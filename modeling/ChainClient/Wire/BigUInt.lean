import ChainClient.Wire.Basic
import ChainClient.Text.Decimal

/-!
# Wide unsigned integers

A number of 128, 256 or 512 bits is written as the count of its significant bytes
and then those bytes, least significant first. Zero has none. A count beyond the
width and a most significant byte that is zero are refused, so each number has one
form.
-/

namespace ChainClient

/-- An unsigned integer of `size` bytes. -/
structure BigUInt (size : Nat) where
  toNat : Nat
  toNat_lt : toNat < Wire.capacity size
  deriving DecidableEq, Repr

namespace BigUInt

def ofNat? (size n : Nat) : Option (BigUInt size) :=
  if h : n < Wire.capacity size then some ⟨n, h⟩ else none

instance (size : Nat) : Inhabited (BigUInt size) := ⟨⟨0, Wire.capacity_pos size⟩⟩

/-- The bytes of a number up to its most significant one. -/
def magnitude (n : Nat) : Bytes :=
  if n = 0 then [] else UInt8.ofNat n :: magnitude (n / 256)

def bitLength (n : Nat) : Nat := if n = 0 then 0 else n.log2 + 1

/-- Digits only; no digits at all stand for zero. -/
def ofDecimal? (size : Nat) (cs : List Char) : Option (BigUInt size) := do
  ofNat? size (← Text.Decimal.fold? 10 0 cs)

def text (x : BigUInt size) : String := String.ofList (Text.Decimal.ofNat x.toNat)

end BigUInt

instance (size : Nat) : Wire (BigUInt size) where
  write x :=
    let bytes := BigUInt.magnitude x.toNat
    .ok (UInt8.ofNat bytes.length :: bytes)
  read bytes := do
    let (count, rest) ← (Wire.read bytes : Except WireError (UInt8 × Bytes))
    if size < count.toNat then .error (.malformed (.magnitudeTooLong size))
    else
      let (front, rest) ← Wire.split count.toNat rest
      if front.getLast? = some 0 then .error (.malformed (.magnitudeNotMinimal size))
      else
        match BigUInt.ofNat? size (Wire.leValue front) with
        | some x => .ok (x, rest)
        | none => .error (.malformed (.magnitudeTooLong size))
  width x := 1 + (BigUInt.bitLength x.toNat + 7) / 8

abbrev U128 := BigUInt 16

abbrev U256 := BigUInt 32

abbrev U512 := BigUInt 64

end ChainClient
