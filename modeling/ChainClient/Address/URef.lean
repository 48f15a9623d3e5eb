import ChainClient.Address.AccountHash
import ChainClient.Text.Decimal
import ChainClient.Wire.Container

/-!
# References with access rights

A reference is an address of 32 bytes together with the rights that its holder has:
reading, writing and adding, one bit each. The text form ends with the rights as three
octal digits.
-/

namespace ChainClient

structure AccessRights where
  bits : UInt8
  bits_le : bits ≤ 7
  deriving DecidableEq, Repr

namespace AccessRights

def ofBits? (bits : UInt8) : Option AccessRights :=
  if h : bits ≤ 7 then some ⟨bits, h⟩ else none

def readBit : AccessRights := ⟨1, by decide⟩

def writeBit : AccessRights := ⟨2, by decide⟩

def addBit : AccessRights := ⟨4, by decide⟩

/-- Every right of the second is one of the first. -/
def contains (a b : AccessRights) : Bool := a.bits &&& b.bits == b.bits

theorem or_le (a b : AccessRights) : a.bits ||| b.bits ≤ 7 := by
  have ha := a.bits_le
  have hb := b.bits_le
  rw [UInt8.le_iff_toNat_le] at *
  simp only [UInt8.toNat_or]
  exact Nat.le_of_lt_succ (Nat.or_lt_two_pow (n := 3) (Nat.lt_succ_of_le ha) (Nat.lt_succ_of_le hb))

def union (a b : AccessRights) : AccessRights := ⟨a.bits ||| b.bits, or_le a b⟩

def isReadable (a : AccessRights) : Bool := a.contains readBit

def isWriteable (a : AccessRights) : Bool := a.contains writeBit

def isAddable (a : AccessRights) : Bool := a.contains addBit

instance : Wire AccessRights where
  write a := .ok [a.bits]
  read
    | [] => .error .earlyEnd
    | bits :: rest =>
      match ofBits? bits with
      | some a => .ok (a, rest)
      | none => .error (.malformed .badAccessRights)
  width _ := 1

instance : SortKey AccessRights where
  sortKey a := [(a.bits.toNat : Int)]

end AccessRights

structure URef where
  address : Octets 32
  rights : AccessRights
  deriving DecidableEq, Repr

namespace URef

def label : List Char := ['u', 'r', 'e', 'f', '-']

/-- What stands before and after the last separator. -/
def splitLast? (separator : Char) : List Char → Option (List Char × List Char)
  | [] => none
  | c :: cs =>
    match splitLast? separator cs with
    | some (front, back) => some (c :: front, back)
    | none => if c = separator then some ([], cs) else none

def chars (u : URef) : List Char :=
  label ++ Text.Hex.encode u.address.toList ++
    ['-', '0', '0', Text.Decimal.digit u.rights.bits.toNat]

def text (u : URef) : String := String.ofList u.chars

/-- An octal numeral with the value of three bits. -/
def rightsOf? (cs : List Char) : Option AccessRights := do
  let n ← Text.Decimal.natural? 8 cs
  if n < 8 then AccessRights.ofBits? (UInt8.ofNat n) else none

/-- The rights are read before the address. -/
def ofChars (cs : List Char) : Except AddressError URef :=
  match Text.stripLabel? label cs with
  | none => .error (.unknownLabel (String.ofList cs))
  | some body =>
    match splitLast? '-' body with
    | none => .error .accessRights
    | some (digits, suffixed) =>
      match rightsOf? suffixed with
      | none => .error .accessRights
      | some rights => do return ⟨← Address.ofHex digits, rights⟩

def ofText (s : String) : Except AddressError URef := ofChars s.toList

/-- How logs show a reference. -/
def describe (u : URef) : String := "URef(" ++ u.text ++ ")"

instance : Wire URef := Wire.via (fun u ↦ (u.address, u.rights)) fun parts ↦ ⟨parts.1, parts.2⟩

instance : JsonForm URef := .ofText text fun s ↦ (ofText s).toOption

instance : SortKey URef where
  sortKey u := SortKey.ofBytes u.address.toList ++ sortKey u.rights

end URef

end ChainClient
