import ChainClient.BuildError
import ChainClient.Transaction.Basic
import ChainClient.Transfer

/-!
# Building transactions

A builder starts from a call, which fixes target and entry point, and takes settings in any
order; a later setting replaces an earlier one of the same part. A native call carries its
own arguments and accepts no others; for the delegation of stake the delegator becomes the
initiator.
-/

namespace ChainClient

open BuildError (require)

inductive Call where
  | native (operation : SystemOperation) (args : Arguments)
  | stored (id : InvocationTarget) (entryPoint : String)
  | session (isInstallUpgrade : Bool) (code : Blob)
  deriving DecidableEq, Repr

namespace Call

def target : Call → Target
  | .native _ _ => .native
  | .stored id _ => .stored id .vmCasperV1
  | .session isInstallUpgrade code => .session isInstallUpgrade code .vmCasperV1

def entryPoint : Call → EntryPoint
  | .native operation _ => .system operation
  | .stored _ entryPoint => .custom entryPoint
  | .session _ _ => .call

def args : Call → Arguments
  | .native _ args => args
  | _ => .empty

/-- The name under which a native call refuses other arguments. -/
def fixedName? : Call → Option String
  | .native operation _ => some ("native-" ++ operation.name.toLower)
  | _ => none

end Call

structure TransactionBuilder where
  call : Call
  chainName : Option String
  initiator : Option Initiator
  /-- The moment of building, unless one is set. -/
  timestamp : Option Timestamp
  ttl : Duration
  pricingMode : Option PricingMode
  /-- Arguments in place of those of the call. -/
  customArgs : Option TransactionArguments
  deriving DecidableEq, Repr

namespace TransactionBuilder

/-! ## Starting points -/

def ofCall (call : Call) : TransactionBuilder where
  call
  chainName := none
  initiator := none
  timestamp := none
  ttl := ⟨Limits.defaultTtl⟩
  pricingMode := none
  customArgs := none

/-- A source and an id are passed only if they are given. -/
def transfer (amount : U512) (source : Option URef) (target : TransferTarget)
    (id : Option UInt64) : Except ClValueError TransactionBuilder := do
  let args ← Arguments.transfer amount source target
  let args ← match id with
    | some id => pure (args.push "id" (← ClValue.ofU64 id))
    | none => .ok args
  return ofCall (.native .transfer args)

/-- An operation on the stake of the delegator. -/
def staking (operation : SystemOperation) (delegator : PublicKey) (args : Arguments) :
    TransactionBuilder :=
  { ofCall (.native operation args) with initiator := some (.publicKey delegator) }

def delegate (delegator validator : PublicKey) (amount : U512) :
    Except ClValueError TransactionBuilder := do
  return staking .delegate delegator (← Arguments.staking delegator validator amount)

def undelegate (delegator validator : PublicKey) (amount : U512) :
    Except ClValueError TransactionBuilder := do
  return staking .undelegate delegator (← Arguments.staking delegator validator amount)

def redelegate (delegator validator newValidator : PublicKey) (amount : U512) :
    Except ClValueError TransactionBuilder := do
  return staking .redelegate delegator
    (← Arguments.restaking delegator validator newValidator amount)

def contractByHash (hash : Digest) (entryPoint : String) : TransactionBuilder :=
  ofCall (.stored (.byHash hash) entryPoint)

def contractByName (name entryPoint : String) : TransactionBuilder :=
  ofCall (.stored (.byName name) entryPoint)

def packageByHash (hash : Digest) (version protocolMajor : Option UInt32) (entryPoint : String) :
    TransactionBuilder :=
  ofCall (.stored (.byPackageHash hash version protocolMajor) entryPoint)

def packageByName (name : String) (version protocolMajor : Option UInt32) (entryPoint : String) :
    TransactionBuilder :=
  ofCall (.stored (.byPackageName name version protocolMajor) entryPoint)

def session (isInstallUpgrade : Bool) (code : Blob) : TransactionBuilder :=
  ofCall (.session isInstallUpgrade code)

/-! ## Settings -/

inductive Setting where
  | chainName (name : String)
  | initiator (initiator : Initiator)
  | timestamp (timestamp : Timestamp)
  | ttl (ttl : Duration)
  | pricingMode (mode : PricingMode)
  | arguments (args : TransactionArguments)
  deriving DecidableEq, Repr

def set (b : TransactionBuilder) : Setting → TransactionBuilder
  | .chainName name => { b with chainName := some name }
  | .initiator initiator => { b with initiator := some initiator }
  | .timestamp timestamp => { b with timestamp := some timestamp }
  | .ttl ttl => { b with ttl }
  | .pricingMode mode => { b with pricingMode := some mode }
  | .arguments args => { b with customArgs := some args }

def setAll (b : TransactionBuilder) (settings : List Setting) : TransactionBuilder :=
  settings.foldl set b

/-! ## Building -/

/-- The arguments of the transaction, unless the call refuses those that were set. -/
def arguments {ε : Type} (b : TransactionBuilder) : Except (BuildError ε) TransactionArguments :=
  match b.customArgs, b.call.fixedName? with
  | none, _ => .ok (.named b.call.args)
  | some args, none => .ok args
  | some _, some name => .error (.fixedArguments name)

def build (suite : Suite) (now : Timestamp) (b : TransactionBuilder) :
    Except (BuildError TransactionError) Transaction := do
  let chainName ← require .chainName b.chainName
  let initiator ← require .initiator b.initiator
  let pricingMode ← require .pricingMode b.pricingMode
  let args ← b.arguments
  let fields : TransactionFields := ⟨args, b.call.entryPoint, .standard, b.call.target⟩
  let payload : Payload :=
    ⟨initiator, b.timestamp.getD now, b.ttl, chainName, pricingMode, fields⟩
  (Transaction.sealed suite payload).mapError .rule

end TransactionBuilder

end ChainClient
