import ChainClient.Transaction.EntryPoint
import ChainClient.Transaction.Target
import ChainClient.Value.Arguments

/-!
# Fields of transactions

What a transaction does: its arguments, target, entry point and scheduling. On the wire
the fields are a map from small numbers to byte strings, each of which holds the form of
one field; all four have to be there and no other.
-/

namespace ChainClient

/-! ## Arguments -/

inductive TransactionArguments where
  | named (args : Arguments)
  /-- Bytes whose meaning only the callee knows. -/
  | encoded (bytes : Blob)
  deriving DecidableEq, Repr

namespace TransactionArguments

def named? : TransactionArguments → Option Arguments
  | .named args => some args
  | .encoded _ => none

def toEnvelope : TransactionArguments → Except WireError Envelope
  | .named args => do (← Envelope.ofTag 0).add 1 args
  | .encoded bytes => do (← Envelope.ofTag 1).add 1 bytes

def ofEnvelope (e : Envelope) : Except WireError TransactionArguments := do
  e.ensureMaxIndex 1
  let tag : UInt8 ← e.field 0
  if tag = 0 then return .named (← e.field 1)
  else if tag = 1 then return .encoded (← e.field 1)
  else throw (.unknownTag .arguments tag)

def lengths : TransactionArguments → List Nat
  | .named args => [1, Wire.width args]
  | .encoded bytes => [1, Wire.width bytes]

instance : Wire TransactionArguments := Wire.ofEnvelope toEnvelope ofEnvelope lengths

instance : JsonForm TransactionArguments where
  toJson
    | .named args => .tagged "Named" (toJson args)
    | .encoded bytes => .tagged "Bytesrepr" (toJson bytes)
  ofJson? source j :=
    match j.alternative? with
    | some ("Named", some content) => (ofJson? source content).map .named
    | some ("Bytesrepr", some content) => (ofJson? source content).map .encoded
    | _ => none

end TransactionArguments

/-! ## Scheduling -/

inductive Scheduling where
  | standard
  deriving DecidableEq, Repr

namespace Scheduling

def ofEnvelope (e : Envelope) : Except WireError Scheduling := do
  e.ensureMaxIndex 0
  let tag : UInt8 ← e.field 0
  if tag = 0 then return .standard
  else throw (.unknownTag .scheduling tag)

instance : Wire Scheduling := Wire.ofEnvelope (fun _ ↦ Envelope.ofTag 0) ofEnvelope fun _ ↦ [1]

instance : JsonForm Scheduling where
  toJson _ := .str "Standard"
  ofJson? _ j :=
    match j.alternative? with
    | some ("Standard", content) => if Json.holdsNothing content then some .standard else none
    | _ => none

end Scheduling

/-! ## Fields -/

structure TransactionFields where
  args : TransactionArguments
  entryPoint : EntryPoint
  scheduling : Scheduling
  target : Target
  deriving DecidableEq, Repr

namespace TransactionFields

abbrev Table := SortedMap UInt16 (fun n ↦ [(n.toNat : Int)]) Blob

def blobOf {α : Type} [Wire α] (x : α) : Except WireError Blob := do return ⟨← Wire.write x⟩

def toTable (fields : TransactionFields) : Except WireError Table := do
  let args ← blobOf fields.args
  let target ← blobOf fields.target
  let entryPoint ← blobOf fields.entryPoint
  let scheduling ← blobOf fields.scheduling
  return .ofList [(0, args), (1, target), (2, entryPoint), (3, scheduling)]

def entry {α : Type} [Wire α] (table : Table) (index : UInt16) : Except WireError α :=
  match table.get? index with
  | some blob => Wire.readAll blob.toList
  | none => .error (.malformed .missingTransactionField)

def ofTable (table : Table) : Except WireError TransactionFields := do
  if table.entries.any fun e ↦ 3 < e.1 then
    throw (.malformed .unexpectedTransactionField)
  let args ← entry table 0
  let target ← entry table 1
  let entryPoint ← entry table 2
  let scheduling ← entry table 3
  return ⟨args, entryPoint, scheduling, target⟩

instance : Wire TransactionFields where
  write fields := do Wire.write (← toTable fields)
  read bytes := do
    let (table, rest) ← (Wire.read bytes : Except WireError (Table × Bytes))
    let fields ← ofTable table
    return (fields, rest)
  width fields :=
    4 + (6 + Wire.width fields.args) + (6 + Wire.width fields.target) +
      (6 + Wire.width fields.entryPoint) + (6 + Wire.width fields.scheduling)

def shape : Json.Shape := .ofNames ["args", "entry_point", "scheduling", "target"]

instance : JsonForm TransactionFields where
  toJson fields :=
    .obj [("args", toJson fields.args), ("entry_point", toJson fields.entryPoint),
      ("scheduling", toJson fields.scheduling), ("target", toJson fields.target)]
  ofJson? source j :=
    match shape.read? j with
    | some [some args, some entryPoint, some scheduling, some target] => do
      return ⟨← ofJson? source args, ← ofJson? source entryPoint, ← ofJson? source scheduling,
        ← ofJson? source target⟩
    | _ => none

end TransactionFields

end ChainClient
