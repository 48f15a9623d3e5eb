import ChainClient.Text.Quoted

/-!
# Hexadecimal text

Bytes are written as two lower-case digits each; both cases are read. An odd
count of digits is found before a wrong digit, and a wrong digit is named by the
first byte of its UTF-8 form and by the offset of that byte.
-/

namespace ChainClient

inductive HexError where
  | invalidCharacter (byte : UInt8) (position : Nat)
  | oddLength
  | invalidStringLength
  deriving DecidableEq, Repr

namespace HexError

def message : HexError → String
  | .invalidCharacter byte position =>
    "Invalid character " ++ Text.Quoted.char (Char.ofNat byte.toNat) ++ " at position " ++
      toString position
  | .oddLength => "Odd number of digits"
  | .invalidStringLength => "Invalid string length"

end HexError

namespace Text.Hex

def digit (n : Nat) : Char := if n < 10 then Char.ofNat (48 + n) else Char.ofNat (87 + n)

def digitValue? (c : Char) : Option Nat :=
  if '0' ≤ c ∧ c ≤ '9' then some (c.toNat - 48)
  else if 'a' ≤ c ∧ c ≤ 'f' then some (c.toNat - 87)
  else if 'A' ≤ c ∧ c ≤ 'F' then some (c.toNat - 55)
  else none

def ofByte (b : UInt8) : List Char := [digit (b.toNat / 16), digit (b.toNat % 16)]

def encode (bytes : List UInt8) : List Char := bytes.flatMap ofByte

def text (bytes : List UInt8) : String := String.ofList (encode bytes)

def utf8Length : List Char → Nat
  | [] => 0
  | c :: cs => c.utf8Size + utf8Length cs

/-- The error for a character that is no digit. -/
def refused (c : Char) (position : Nat) : HexError :=
  .invalidCharacter ((String.utf8EncodeChar c).headD 0) position

/-- Everything before a refused character is ASCII, so characters count bytes. -/
def pairs (position : Nat) : List Char → Except HexError (List UInt8)
  | [] => .ok []
  | [c] => .error (refused c position)
  | c :: d :: rest =>
    match digitValue? c, digitValue? d with
    | none, _ => .error (refused c position)
    | _, none => .error (refused d (position + 1))
    | some high, some low => do
      return UInt8.ofNat (16 * high + low) :: (← pairs (position + 2) rest)

def decode (cs : List Char) : Except HexError (List UInt8) :=
  if utf8Length cs % 2 = 1 then .error .oddLength else pairs 0 cs

/-- Decoding to exactly `n` bytes; the length is checked before the digits. -/
def decodeExactly (n : Nat) (cs : List Char) : Except HexError (List UInt8) :=
  if utf8Length cs % 2 = 1 then .error .oddLength
  else if utf8Length cs ≠ 2 * n then .error .invalidStringLength
  else pairs 0 cs

end Text.Hex

end ChainClient
