import ChainClient.Wire.Error

/-!
# Types with a binary form

A type on the wire has a writer, which may refuse a value that is too large, a
reader, which returns the bytes it did not use, and a width, which states the
length of the written form without writing it. `readAll` accepts a value only if
no bytes are left.

Records and alternatives are put together from the forms of their parts: `via`
carries a form over to another type along a pair of functions.
-/

namespace ChainClient

abbrev Bytes := List UInt8

class Wire (α : Type) where
  write : α → Except WireError Bytes
  read : Bytes → Except WireError (α × Bytes)
  width : α → Nat

namespace Wire

/-- The width of a sequence whose parts have the given widths. -/
def total : List Nat → Nat
  | [] => 0
  | n :: ns => n + total ns

def readAll {α : Type} [Wire α] (bytes : Bytes) : Except WireError α := do
  let (x, rest) ← read bytes
  if rest.isEmpty then .ok x else .error (.leftOver rest.length)

/-- The first `n` bytes and the rest. -/
def split (n : Nat) (bytes : Bytes) : Except WireError (Bytes × Bytes) :=
  let (front, rest) := bytes.splitAt n
  if front.length = n then .ok (front, rest) else .error .earlyEnd

/-- The form of `β`, used for `α`. -/
@[reducible] def via {α β : Type} [Wire β] (toParts : α → β) (ofParts : β → α) : Wire α where
  write x := write (toParts x)
  read bytes := do
    let (parts, rest) ← read bytes
    return (ofParts parts, rest)
  width x := width (toParts x)

/-! ## Little-endian numbers -/

/-- The `width` low bytes, least significant first. -/
def leBytes : Nat → Nat → Bytes
  | 0, _ => []
  | width + 1, n => UInt8.ofNat n :: leBytes width (n / 256)

theorem length_leBytes (width n : Nat) : (leBytes width n).length = width := by
  induction width generalizing n with
  | zero => rfl
  | succ width ih => simp [leBytes, ih]

def leValue : Bytes → Nat
  | [] => 0
  | b :: rest => b.toNat + 256 * leValue rest

/-- The count of the numbers that `width` bytes can hold. -/
def capacity : Nat → Nat
  | 0 => 1
  | width + 1 => 256 * capacity width

theorem capacity_pos (width : Nat) : 0 < capacity width := by
  induction width with
  | zero => decide
  | succ width ih =>
    simp only [capacity]
    omega

theorem leValue_lt (bytes : Bytes) : leValue bytes < capacity bytes.length := by
  induction bytes with
  | nil => decide
  | cons b rest ih =>
    have hb := b.toNat_lt
    simp only [leValue, List.length_cons, capacity]
    omega

def readNat (width : Nat) (bytes : Bytes) : Except WireError (Nat × Bytes) := do
  let (front, rest) ← split width bytes
  return (leValue front, rest)

instance : Wire UInt8 where
  write n := .ok [n]
  read
    | [] => .error .earlyEnd
    | b :: rest => .ok (b, rest)
  width _ := 1

instance : Wire UInt16 where
  write n := .ok (leBytes 2 n.toNat)
  read bytes := do
    let (n, rest) ← readNat 2 bytes
    return (UInt16.ofNat n, rest)
  width _ := 2

instance : Wire UInt32 where
  write n := .ok (leBytes 4 n.toNat)
  read bytes := do
    let (n, rest) ← readNat 4 bytes
    return (UInt32.ofNat n, rest)
  width _ := 4

instance : Wire UInt64 where
  write n := .ok (leBytes 8 n.toNat)
  read bytes := do
    let (n, rest) ← readNat 8 bytes
    return (UInt64.ofNat n, rest)
  width _ := 8

/-- Two's complement. -/
instance : Wire Int32 := via Int32.toUInt32 UInt32.toInt32

/-- Two's complement. -/
instance : Wire Int64 := via Int64.toUInt64 UInt64.toInt64

instance : Wire Bool where
  write b := .ok [if b then 1 else 0]
  read
    | [] => .error .earlyEnd
    | b :: rest =>
      if b = 0 then .ok (false, rest)
      else if b = 1 then .ok (true, rest)
      else .error (.malformed .badBool)
  width _ := 1

instance : Wire Unit where
  write _ := .ok []
  read bytes := .ok ((), bytes)
  width _ := 0

/-! ## Bytes and text -/

/-- A 32-bit count or length. -/
def writeCount (n : Nat) : Except WireError Bytes :=
  if n < UInt32.size then .ok (leBytes 4 n) else .error .tooLong

def readCount (bytes : Bytes) : Except WireError (Nat × Bytes) := readNat 4 bytes

def utf8 (s : String) : Bytes := s.toUTF8.data.toList

/-- Bytes behind their length. -/
def writeBlock (bytes : Bytes) : Except WireError Bytes := do
  return (← writeCount bytes.length) ++ bytes

def readBlock (bytes : Bytes) : Except WireError (Bytes × Bytes) := do
  let (n, rest) ← readCount bytes
  split n rest

instance : Wire String where
  write s := writeBlock (utf8 s)
  read bytes := do
    let (raw, rest) ← readBlock bytes
    match String.fromUTF8? ⟨raw.toArray⟩ with
    | some s => .ok (s, rest)
    | none => .error (.malformed .badUtf8)
  width s := 4 + s.utf8ByteSize

end Wire

/-- Bytes of any number, written behind their length. -/
structure Blob where
  toList : Bytes
  deriving DecidableEq, Repr, Inhabited

instance : Wire Blob where
  write b := Wire.writeBlock b.toList
  read bytes := do
    let (raw, rest) ← Wire.readBlock bytes
    return (⟨raw⟩, rest)
  width b := 4 + b.toList.length

/-- Exactly `n` bytes, written bare. -/
structure Octets (n : Nat) where
  toList : Bytes
  length_toList : toList.length = n
  deriving DecidableEq, Repr

namespace Octets

def ofList? (n : Nat) (bytes : Bytes) : Option (Octets n) :=
  if h : bytes.length = n then some ⟨bytes, h⟩ else none

theorem ofList?_toList {n : Nat} (x : Octets n) : ofList? n x.toList = some x := by
  simp [ofList?, x.length_toList]

def zero (n : Nat) : Octets n := ⟨List.replicate n 0, List.length_replicate⟩

/-- Bytes beyond the length are dropped, and missing ones are zeros. -/
def fit (n : Nat) (bytes : Bytes) : Octets n :=
  ⟨bytes.take n ++ List.replicate (n - bytes.length) 0, by simp; omega⟩

end Octets

instance (n : Nat) : Wire (Octets n) where
  write x := .ok x.toList
  read bytes :=
    let (front, rest) := bytes.splitAt n
    if h : front.length = n then .ok (⟨front, h⟩, rest) else .error .earlyEnd
  width _ := n

end ChainClient
