import ChainClient.Value.Arguments
import ChainClient.Value.ClValue.Build

/-!
# Arguments of native operations

Transfers and staking take fixed arguments under fixed names. A transfer goes to the
account of a key, to an account hash, which is passed as bare bytes, or to a purse.
-/

namespace ChainClient

namespace Arguments

/-- Adds a native value. -/
def insert {clType : ClType} (args : Arguments) (name : String) (t : Native)
    (h : t.clType? = some clType) (x : t.Value) : Except ClValueError Arguments := do
  return args.push name (← ClValue.ofNative t h x)

end Arguments

inductive TransferTarget where
  | publicKey (key : PublicKey)
  | accountHash (account : AccountHash)
  | uref (purse : URef)
  deriving DecidableEq, Repr

namespace TransferTarget

def addTo (target : TransferTarget) (args : Arguments) : Except ClValueError Arguments :=
  match target with
  | .publicKey key => args.insert "target" (.scalar .publicKey) rfl key
  | .accountHash account => args.insert "target" (.byteArray 32) rfl account.bytes
  | .uref purse => args.insert "target" (.scalar .uref) rfl purse

end TransferTarget

namespace Arguments

def addAmount (args : Arguments) (amount : U512) : Except ClValueError Arguments := do
  return args.push "amount" (← ClValue.ofU512 amount)

def addKey (args : Arguments) (name : String) (key : PublicKey) : Except ClValueError Arguments :=
  args.insert name (.scalar .publicKey) rfl key

/-- The amount, the purse it comes from if one is named, and the target. -/
def transfer (amount : U512) (source : Option URef) (target : TransferTarget) :
    Except ClValueError Arguments := do
  let args ← empty.addAmount amount
  let args ← match source with
    | some purse => args.insert "source" (.scalar .uref) rfl purse
    | none => .ok args
  target.addTo args

def staking (delegator validator : PublicKey) (amount : U512) :
    Except ClValueError Arguments := do
  let args ← empty.addKey "delegator" delegator
  let args ← args.addKey "validator" validator
  args.addAmount amount

def restaking (delegator validator newValidator : PublicKey) (amount : U512) :
    Except ClValueError Arguments := do
  let args ← staking delegator validator amount
  args.addKey "new_validator" newValidator

end Arguments

end ChainClient
