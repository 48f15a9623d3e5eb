/-!
# Positional numerals

Numbers are written in decimal without leading zeros. Reading goes through one
positional fold, for any radix up to ten; on top of it stand the readers that
also take a sign. A numeral always has at least one digit.
-/

namespace ChainClient.Text.Decimal

def digit (n : Nat) : Char := Char.ofNat (48 + n)

def digitValue? (radix : Nat) (c : Char) : Option Nat :=
  if '0' ≤ c ∧ c.toNat < 48 + radix then some (c.toNat - 48) else none

def isDigit (c : Char) : Bool := '0' ≤ c && c ≤ '9'

def ofNat (n : Nat) : List Char :=
  if n < 10 then [digit n] else ofNat (n / 10) ++ [digit (n % 10)]

def ofInt : Int → List Char
  | .ofNat n => ofNat n
  | .negSucc n => '-' :: ofNat (n + 1)

/-- At least `width` digits, filled up with zeros on the left. -/
def padded (width n : Nat) : List Char :=
  List.replicate (width - (ofNat n).length) '0' ++ ofNat n

/-- The value of the digits, most significant first, on top of what was read before. -/
def fold? (radix acc : Nat) : List Char → Option Nat
  | [] => some acc
  | c :: cs => do fold? radix (acc * radix + (← digitValue? radix c)) cs

def numeral? (radix : Nat) : List Char → Option Nat
  | [] => none
  | c :: cs => fold? radix 0 (c :: cs)

/-- A numeral that may carry a plus sign. -/
def natural? (radix : Nat) : List Char → Option Nat
  | '+' :: cs => numeral? radix cs
  | cs => numeral? radix cs

/-- A decimal numeral that may carry either sign. -/
def integer? : List Char → Option Int
  | '-' :: cs => (numeral? 10 cs).map fun n ↦ -(n : Int)
  | cs => (natural? 10 cs).map fun n ↦ (n : Int)

end ChainClient.Text.Decimal
