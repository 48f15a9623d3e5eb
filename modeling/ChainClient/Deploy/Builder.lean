import ChainClient.BuildError
import ChainClient.Deploy.Basic

/-!
# Building deploys

A builder starts with a session or without one, and takes settings in any order; a later
setting replaces an earlier one of the same part. Staking goes through the auction
contract, whose hash differs between networks, and makes the delegator the account.
-/

namespace ChainClient

open BuildError (require)

inductive Payment where
  | standard (amount : U512)
  | custom (item : ExecutableItem)
  deriving DecidableEq, Repr

namespace Payment

def item : Payment → Except ClValueError ExecutableItem
  | .standard amount => ExecutableItem.standardPayment amount
  | .custom item => .ok item

end Payment

structure DeployBuilder where
  account : Option PublicKey
  chainName : Option String
  payment : Option Payment
  session : Option ExecutableItem
  /-- The moment of building, unless one is set. -/
  timestamp : Option Timestamp
  ttl : Duration
  gasPrice : UInt64
  dependencies : List DeployHash
  deriving DecidableEq, Repr

namespace DeployBuilder

/-! ## Starting points -/

def empty : DeployBuilder where
  account := none
  chainName := none
  payment := none
  session := none
  timestamp := none
  ttl := ⟨Limits.defaultTtl⟩
  gasPrice := Limits.defaultGasPrice
  dependencies := []

def ofSession (item : ExecutableItem) : DeployBuilder := { empty with session := some item }

def transfer (amount : U512) (source : Option URef) (target : TransferTarget)
    (id : Option UInt64) : Except ClValueError DeployBuilder := do
  return ofSession (← ExecutableItem.nativeTransfer amount source target id)

/-- A call of the auction contract on behalf of the delegator. -/
def auction (contract : Digest) (entryPoint : String) (delegator : PublicKey)
    (args : Arguments) : DeployBuilder :=
  { ofSession (.byHash contract entryPoint args) with account := some delegator }

def delegate (contract : Digest) (delegator validator : PublicKey) (amount : U512) :
    Except ClValueError DeployBuilder := do
  return auction contract "delegate" delegator (← Arguments.staking delegator validator amount)

def undelegate (contract : Digest) (delegator validator : PublicKey) (amount : U512) :
    Except ClValueError DeployBuilder := do
  return auction contract "undelegate" delegator (← Arguments.staking delegator validator amount)

def redelegate (contract : Digest) (delegator validator newValidator : PublicKey)
    (amount : U512) : Except ClValueError DeployBuilder := do
  return auction contract "redelegate" delegator
    (← Arguments.restaking delegator validator newValidator amount)

/-! ## Settings -/

inductive Setting where
  | account (key : PublicKey)
  | chainName (name : String)
  | session (item : ExecutableItem)
  | payment (payment : Payment)
  | timestamp (timestamp : Timestamp)
  | ttl (ttl : Duration)
  | gasPrice (price : UInt64)
  | dependencies (hashes : List DeployHash)
  deriving DecidableEq, Repr

def set (b : DeployBuilder) : Setting → DeployBuilder
  | .account key => { b with account := some key }
  | .chainName name => { b with chainName := some name }
  | .session item => { b with session := some item }
  | .payment payment => { b with payment := some payment }
  | .timestamp timestamp => { b with timestamp := some timestamp }
  | .ttl ttl => { b with ttl }
  | .gasPrice price => { b with gasPrice := price }
  | .dependencies hashes => { b with dependencies := hashes }

def setAll (b : DeployBuilder) (settings : List Setting) : DeployBuilder := settings.foldl set b

/-! ## Building -/

def build (suite : Suite) (now : Timestamp) (b : DeployBuilder) :
    Except (BuildError DeployError) Deploy := do
  let account ← require .account b.account
  let chainName ← require .chainName b.chainName
  let session ← require .session b.session
  let payment ← require .payment b.payment
  let payment ← payment.item.mapError .argument
  (Deploy.sealed suite account (b.timestamp.getD now) b.ttl b.gasPrice b.dependencies chainName
    payment session).mapError .rule

end DeployBuilder

end ChainClient
