import ChainClient.Text.Blank
import ChainClient.Text.Quoted
import ChainClient.Value.ClType

/-!
# Reading the names of types

The grammar is that of the canonical names: a leaf is a word, `ByteArray` takes a size
and every other composite takes the names of its parts between parentheses, separated
by commas. White space may stand around every word and sign. The parts are read before
their number is compared with what the composite takes.
-/

namespace ChainClient.ClType

inductive NameFault where
  | nestingTooDeep
  | unexpectedCharacter
  | badByteArraySize
  | unknownTypeOrArity
  | trailingCharacters
  deriving DecidableEq, Repr

namespace NameFault

def message : NameFault → String
  | .nestingTooDeep => "nesting too deep"
  | .unexpectedCharacter => "unexpected character"
  | .badByteArraySize => "invalid ByteArray size"
  | .unknownTypeOrArity => "unknown type or wrong arity"
  | .trailingCharacters => "trailing characters"

end NameFault

structure NameError where
  input : String
  fault : NameFault
  deriving DecidableEq, Repr

def NameError.message (e : NameError) : String :=
  "invalid CLType name " ++ Text.Quoted.string e.input ++ ": " ++ e.fault.message

namespace Name

/-- The letters and digits after white space, and the rest. -/
def word (cs : List Char) : List Char × List Char :=
  let rest := Text.skipBlank cs
  (rest.takeWhile Char.isAlphanum, rest.dropWhile Char.isAlphanum)

/-- What follows the sign, if it stands after white space. -/
def sign? (sign : Char) (cs : List Char) : Option (List Char) :=
  match Text.skipBlank cs with
  | c :: rest => if c = sign then some rest else none
  | [] => none

def expect (sign : Char) (cs : List Char) : Except NameFault (List Char) :=
  match sign? sign cs with
  | some rest => .ok rest
  | none => .error .unexpectedCharacter

def size? (cs : List Char) : Option UInt32 := do
  let n ← Text.Decimal.natural? 10 cs
  if n < UInt32.size then some (UInt32.ofNat n) else none

/-- The composite of that name over those parts. -/
def composite? (name : String) (parts : List ClType) : Option ClType :=
  match parts with
  | [a] =>
    if name = "Option" then some (.option a)
    else if name = "List" then some (.list a)
    else if name = "Tuple1" then some (.tuple1 a)
    else none
  | [a, b] =>
    if name = "Result" then some (.result a b)
    else if name = "Map" then some (.map a b)
    else if name = "Tuple2" then some (.tuple2 a b)
    else none
  | [a, b, c] => if name = "Tuple3" then some (.tuple3 a b c) else none
  | _ => none

/-- The parts that follow the first one, each behind a comma. -/
def moreParts (part : List Char → Except NameFault (ClType × List Char)) :
    Nat → List Char → Except NameFault (List ClType × List Char)
  | 0, cs => .ok ([], cs)
  | fuel + 1, cs =>
    match sign? ',' cs with
    | none => .ok ([], cs)
    | some rest => do
      let (t, rest) ← part rest
      let (ts, rest) ← moreParts part fuel rest
      return (t :: ts, rest)

/-- A name at the front of a text, of a type that may nest `levels` levels. -/
def read : Nat → List Char → Except NameFault (ClType × List Char)
  | 0, _ => .error .nestingTooDeep
  | levels + 1, cs =>
    let (letters, rest) := word cs
    let name := String.ofList letters
    match ClLeaf.ofName? name with
    | some l => .ok (.leaf l, rest)
    | none => do
      let rest ← expect '(' rest
      if name = "ByteArray" then
        let (digits, rest) := word rest
        match size? digits with
        | none => .error .badByteArraySize
        | some size => do
          let rest ← expect ')' rest
          return (.byteArray size, rest)
      else
        let (first, rest) ← read levels rest
        let (others, rest) ← moreParts (read levels) rest.length rest
        match composite? name (first :: others) with
        | none => .error .unknownTypeOrArity
        | some t => do
          let rest ← expect ')' rest
          return (t, rest)

def readAll (cs : List Char) : Except NameFault ClType := do
  let (t, rest) ← read Limits.maxTypeDepth cs
  if (Text.skipBlank rest).isEmpty then .ok t else .error .trailingCharacters

end Name

def ofName (s : String) : Except NameError ClType :=
  (Name.readAll s.toList).mapError fun fault ↦ ⟨s, fault⟩

end ChainClient.ClType
