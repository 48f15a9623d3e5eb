import ChainClient.Wire.Basic

/-!
# Envelopes

An envelope holds fields under ascending indices. Its written form is a table of
the indices and of the offsets at which the fields start, and then the body, the
fields one after the other. A field ends where the next one starts, so a table is
accepted only if the first offset is zero, no offset is below the one before it
and none lies beyond the body. A field that is not there has no index: that is how
an optional field stays out of the bytes.

An index that no field of a type can have is refused by `ensureMaxIndex`, and a
field has to be used up entirely by the reader of its type.
-/

namespace ChainClient

structure Envelope where
  fields : List (UInt16 × Bytes)
  deriving DecidableEq, Repr

namespace Envelope

def empty : Envelope := ⟨[]⟩

def body (e : Envelope) : Bytes := e.fields.flatMap (·.2)

/-! ## Building -/

def add {α : Type} [Wire α] (e : Envelope) (index : UInt16) (x : α) : Except WireError Envelope :=
  if e.fields.getLast?.any fun field ↦ index ≤ field.1 then
    .error (.malformed .indicesMustIncrease)
  else if UInt32.size ≤ e.body.length then .error .tooLong
  else do
    let bytes ← Wire.write x
    return ⟨e.fields ++ [(index, bytes)]⟩

/-- An envelope whose first field is a tag. -/
def ofTag (tag : UInt8) : Except WireError Envelope := empty.add 0 tag

def addOptional {α : Type} [Wire α] (e : Envelope) (index : UInt16) :
    Option α → Except WireError Envelope
  | none => .ok e
  | some x => e.add index x

/-! ## Written form -/

/-- The table of fields, given where the first of them starts. -/
def table : Nat → List (UInt16 × Bytes) → Bytes
  | _, [] => []
  | offset, (index, slice) :: fields =>
    Wire.leBytes 2 index.toNat ++ Wire.leBytes 4 offset ++ table (offset + slice.length) fields

def write (e : Envelope) : Except WireError Bytes := do
  let count ← Wire.writeCount e.fields.length
  let bodyBlock ← Wire.writeBlock e.body
  return count ++ table 0 e.fields ++ bodyBlock

/-- The length of an envelope whose fields have the given lengths. -/
def width (lengths : List Nat) : Nat := 8 + 6 * lengths.length + Wire.total lengths

/-! ## Reading -/

/-- The next `n` rows of the table. `last` is the row before them. -/
def readTable : Nat → Option (UInt16 × Nat) → Bytes →
    Except WireError (List (UInt16 × Nat) × Bytes)
  | 0, _, bytes => .ok ([], bytes)
  | n + 1, last, bytes => do
    let (index, rest) ← (Wire.read bytes : Except WireError (UInt16 × Bytes))
    let (offset, rest) ← Wire.readNat 4 rest
    match last with
    | some (lastIndex, lastOffset) =>
      if index ≤ lastIndex ∨ offset < lastOffset then
        throw (.malformed .fieldsOutOfOrder)
    | none =>
      if offset ≠ 0 then
        throw (.malformed .firstOffsetNotZero)
    let (rows, rest) ← readTable n (some (index, offset)) rest
    return ((index, offset) :: rows, rest)

/-- The fields that the rows cut out of the body, which starts at `start`. -/
def cut (start : Nat) (body : Bytes) : List (UInt16 × Nat) → List (UInt16 × Bytes)
  | [] => []
  | [(index, _)] => [(index, body)]
  | (index, _) :: (next, offset) :: rows =>
    (index, body.take (offset - start)) ::
      cut offset (body.drop (offset - start)) ((next, offset) :: rows)

def read (bytes : Bytes) : Except WireError (Envelope × Bytes) := do
  let (count, rest) ← Wire.readCount bytes
  let (rows, rest) ← readTable count none rest
  let (body, rest) ← Wire.readBlock rest
  match rows.getLast? with
  | some (_, offset) =>
    if body.length < offset then
      throw (.malformed .offsetPastEnd)
  | none =>
    if !body.isEmpty then
      throw (.malformed .bodyWithoutFields)
  return (⟨cut 0 body rows⟩, rest)

/-! ## Fields -/

def slice? (e : Envelope) (index : UInt16) : Option Bytes :=
  (e.fields.find? fun field ↦ field.1 == index).map (·.2)

def optionalField {α : Type} [Wire α] (e : Envelope) (index : UInt16) :
    Except WireError (Option α) :=
  match e.slice? index with
  | none => .ok none
  | some slice => do return some (← Wire.readAll slice)

def field {α : Type} [Wire α] (e : Envelope) (index : UInt16) : Except WireError α := do
  match ← e.optionalField index with
  | some x => .ok x
  | none => .error (.malformed .missingEnvelopeField)

def ensureMaxIndex (e : Envelope) (bound : UInt16) : Except WireError Unit :=
  if e.fields.any fun field ↦ bound < field.1 then
    .error (.malformed .unexpectedEnvelopeField)
  else .ok ()

end Envelope

/-- The form of a type whose values are written as envelopes; `lengths` are those of the
fields. -/
@[reducible] def Wire.ofEnvelope {α : Type} (toEnvelope : α → Except WireError Envelope)
    (ofEnvelope : Envelope → Except WireError α) (lengths : α → List Nat) : Wire α where
  write x := do (← toEnvelope x).write
  read bytes := do
    let (e, rest) ← Envelope.read bytes
    let x ← ofEnvelope e
    return (x, rest)
  width x := Envelope.width (lengths x)

end ChainClient
