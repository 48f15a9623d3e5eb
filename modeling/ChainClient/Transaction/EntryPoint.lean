import ChainClient.Json.Form
import ChainClient.Wire.Envelope

/-!
# Entry points

What a transaction calls: the start of a module, a function of stored code by its name, or
one of the operations of the system.
-/

namespace ChainClient

inductive SystemOperation where
  | transfer
  | addBid
  | withdrawBid
  | delegate
  | undelegate
  | redelegate
  | activateBid
  | changeBidPublicKey
  | addReservations
  | cancelReservations
  deriving DecidableEq, Repr

namespace SystemOperation

def all : List SystemOperation :=
  [.transfer, .addBid, .withdrawBid, .delegate, .undelegate, .redelegate, .activateBid,
   .changeBidPublicKey, .addReservations, .cancelReservations]

def tag : SystemOperation → UInt8
  | .transfer => 2
  | .addBid => 3
  | .withdrawBid => 4
  | .delegate => 5
  | .undelegate => 6
  | .redelegate => 7
  | .activateBid => 8
  | .changeBidPublicKey => 9
  | .addReservations => 10
  | .cancelReservations => 11

def ofTag? (tag : UInt8) : Option SystemOperation := all.find? fun op ↦ op.tag == tag

theorem ofTag?_tag (op : SystemOperation) : ofTag? op.tag = some op := by cases op <;> rfl

def name : SystemOperation → String
  | .transfer => "Transfer"
  | .addBid => "AddBid"
  | .withdrawBid => "WithdrawBid"
  | .delegate => "Delegate"
  | .undelegate => "Undelegate"
  | .redelegate => "Redelegate"
  | .activateBid => "ActivateBid"
  | .changeBidPublicKey => "ChangeBidPublicKey"
  | .addReservations => "AddReservations"
  | .cancelReservations => "CancelReservations"

def ofName? (name : String) : Option SystemOperation := all.find? fun op ↦ op.name == name

end SystemOperation

inductive EntryPoint where
  | call
  | custom (name : String)
  | system (operation : SystemOperation)
  deriving DecidableEq, Repr

namespace EntryPoint

def isNative : EntryPoint → Bool
  | .system _ => true
  | _ => false

def display : EntryPoint → String
  | .call => "Call"
  | .custom name => "custom(" ++ name ++ ")"
  | .system operation => operation.name

def toEnvelope : EntryPoint → Except WireError Envelope
  | .call => Envelope.ofTag 0
  | .custom name => do (← Envelope.ofTag 1).add 1 name
  | .system operation => Envelope.ofTag operation.tag

/-- A field that does not belong is found before an unknown tag. -/
def ofEnvelope (e : Envelope) : Except WireError EntryPoint := do
  let tag : UInt8 ← e.field 0
  if tag = 1 then
    e.ensureMaxIndex 1
    return .custom (← e.field 1)
  else
    e.ensureMaxIndex 0
    if tag = 0 then return .call
    else
      match SystemOperation.ofTag? tag with
      | some operation => return .system operation
      | none => throw (.unknownTag .entryPoint tag)

def lengths : EntryPoint → List Nat
  | .custom name => [1, Wire.width name]
  | _ => [1]

instance : Wire EntryPoint := Wire.ofEnvelope toEnvelope ofEnvelope lengths

instance : JsonForm EntryPoint where
  toJson
    | .call => .str "Call"
    | .custom name => .tagged "Custom" (toJson name)
    | .system operation => .str operation.name
  ofJson? source j :=
    match j.alternative? with
    | some ("Custom", content) => content.bind fun j ↦ (ofJson? source j).map .custom
    | some ("Call", content) => if Json.holdsNothing content then some .call else none
    | some (name, content) =>
      if Json.holdsNothing content then (SystemOperation.ofName? name).map .system else none
    | none => none

end EntryPoint

end ChainClient
