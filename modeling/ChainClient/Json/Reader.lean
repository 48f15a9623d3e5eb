import ChainClient.Json.Basic

/-!
# Reading JSON text

The grammar is the standard one, without any extension. A number with a fraction
or an exponent, a negative zero, an integer beyond 64 bits and a text with an
unpaired surrogate are well formed but hold no usable value. Containers nest 127
levels at most where a value is used; in a member that is skipped they may nest
further.
-/

namespace ChainClient.Json.Reader

def skipSpace (cs : List Char) : List Char :=
  cs.dropWhile fun c ↦ c == ' ' || c == '\t' || c == '\n' || c == '\r'

def isDigit (c : Char) : Bool := '0' ≤ c && c ≤ '9'

/-! ## Numbers -/

def digitsValue (ds : List Char) : Nat := ds.foldl (fun n d ↦ 10 * n + (d.toNat - 48)) 0

/-- One digit run; it is empty where no digit stands. -/
def digits (cs : List Char) : List Char × List Char := (cs.takeWhile isDigit, cs.dropWhile isDigit)

/-- The part after the point, if there is one: `none` where the point has no digits. -/
def fraction : List Char → Option (Bool × List Char)
  | '.' :: cs => if (digits cs).1.isEmpty then none else some (true, (digits cs).2)
  | cs => some (false, cs)

def unsignedExponent (cs : List Char) : Option (Bool × List Char) :=
  if (digits cs).1.isEmpty then none else some (true, (digits cs).2)

def exponent : List Char → Option (Bool × List Char)
  | c :: cs =>
    if c = 'e' ∨ c = 'E' then
      match cs with
      | '+' :: rest => unsignedExponent rest
      | '-' :: rest => unsignedExponent rest
      | rest => unsignedExponent rest
    else some (false, c :: cs)
  | [] => some (false, [])

def integerValue (negative : Bool) (n : Nat) : Json :=
  if negative then
    if n = 0 ∨ UInt64.size / 2 < n then .other else .int (-(n : Int))
  else if n < UInt64.size then .int n else .other

def magnitude (negative : Bool) (cs : List Char) : Option (Json × List Char) := do
  let (ds, rest) := digits cs
  if ds.isEmpty || (ds.length != 1 && ds.head? == some '0') then none
  let (hasFraction, rest) ← fraction rest
  let (hasExponent, rest) ← exponent rest
  some (if hasFraction || hasExponent then .other else integerValue negative (digitsValue ds), rest)

def number : List Char → Option (Json × List Char)
  | '-' :: cs => magnitude true cs
  | cs => magnitude false cs

/-! ## Text -/

def hexValue? (c : Char) : Option Nat :=
  if '0' ≤ c ∧ c ≤ '9' then some (c.toNat - 48)
  else if 'a' ≤ c ∧ c ≤ 'f' then some (c.toNat - 87)
  else if 'A' ≤ c ∧ c ≤ 'F' then some (c.toNat - 55)
  else none

def codeUnit? (a b c d : Char) : Option Nat := do
  return 4096 * (← hexValue? a) + 256 * (← hexValue? b) + 16 * (← hexValue? c) + (← hexValue? d)

def isHighSurrogate (n : Nat) : Bool := 0xD800 ≤ n && n < 0xDC00

def isLowSurrogate (n : Nat) : Bool := 0xDC00 ≤ n && n < 0xE000

def shortEscape? (c : Char) : Option Char :=
  match c with
  | '"' => some '"'
  | '\\' => some '\\'
  | '/' => some '/'
  | 'b' => some '\x08'
  | 'f' => some '\x0c'
  | 'n' => some '\n'
  | 'r' => some '\r'
  | 't' => some '\t'
  | _ => none

/-- The rest of a text after its opening quote. A part that is no scalar value is
recorded as `none`. -/
def chars : Nat → List Char → Option (List (Option Char) × List Char)
  | 0, _ => none
  | fuel + 1, cs =>
    match cs with
    | '"' :: rest => some ([], rest)
    | '\\' :: 'u' :: a :: b :: c :: d :: rest => do
      let unit ← codeUnit? a b c d
      if isHighSurrogate unit then
        match rest with
        | '\\' :: 'u' :: a' :: b' :: c' :: d' :: rest' =>
          let low ← codeUnit? a' b' c' d'
          if isLowSurrogate low then
            let (tail, rest) ← chars fuel rest'
            some (some (Char.ofNat (0x10000 + (unit - 0xD800) * 1024 + (low - 0xDC00))) :: tail,
              rest)
          else
            let (tail, rest) ← chars fuel rest
            some (none :: tail, rest)
        | _ =>
          let (tail, rest) ← chars fuel rest
          some (none :: tail, rest)
      else
        let (tail, rest) ← chars fuel rest
        some ((if isLowSurrogate unit then none else some (Char.ofNat unit)) :: tail, rest)
    | '\\' :: c :: rest => do
      let meant ← shortEscape? c
      let (tail, rest) ← chars fuel rest
      some (some meant :: tail, rest)
    | c :: rest =>
      if c.toNat < 0x20 ∨ c = '\\' then none
      else do
        let (tail, rest) ← chars fuel rest
        some (some c :: tail, rest)
    | [] => none

/-- A text after its opening quote; the value is `none` if it holds an unpaired surrogate. -/
def text (cs : List Char) : Option (Option String × List Char) := do
  let (parts, rest) ← chars (cs.length + 1) cs
  some ((parts.mapM id).map String.ofList, rest)

/-! ## Values -/

def keyword (word : List Char) (value : Json) (cs : List Char) : Option (Json × List Char) :=
  if word.isPrefixOf cs then some (value, cs.drop word.length) else none

mutual

def value : Nat → List Char → Option (Json × List Char)
  | 0, _ => none
  | fuel + 1, cs =>
    match skipSpace cs with
    | '[' :: rest =>
      match skipSpace rest with
      | ']' :: rest => some (.arr [], rest)
      | rest => do
        let (items, rest) ← elements fuel rest
        some (.arr items, rest)
    | '\x7b' :: rest =>
      match skipSpace rest with
      | '\x7d' :: rest => some (.obj [], rest)
      | rest => do
        let (members, rest) ← entries fuel rest
        some ((members.mapM id).elim .other .obj, rest)
    | '"' :: rest => do
      let (content, rest) ← text rest
      some (content.elim .other .str, rest)
    | 't' :: rest => keyword ['r', 'u', 'e'] (.bool true) rest
    | 'f' :: rest => keyword ['a', 'l', 's', 'e'] (.bool false) rest
    | 'n' :: rest => keyword ['u', 'l', 'l'] .null rest
    | rest => number rest

/-- One or more values and the bracket that closes them. -/
def elements : Nat → List Char → Option (List Json × List Char)
  | 0, _ => none
  | fuel + 1, cs => do
    let (item, rest) ← value fuel cs
    match skipSpace rest with
    | ',' :: rest =>
      let (items, rest) ← elements fuel rest
      some (item :: items, rest)
    | ']' :: rest => some ([item], rest)
    | _ => none

/-- One or more members and the brace that closes them; a member whose name is no
usable text is `none`. -/
def entries : Nat → List Char → Option (List (Option (String × Json)) × List Char)
  | 0, _ => none
  | fuel + 1, cs => do
    match skipSpace cs with
    | '"' :: rest =>
      let (name, rest) ← text rest
      match skipSpace rest with
      | ':' :: rest =>
        let (content, rest) ← value fuel rest
        let entry := name.map fun name ↦ (name, content)
        match skipSpace rest with
        | ',' :: rest =>
          let (others, rest) ← entries fuel rest
          some (entry :: others, rest)
        | '\x7d' :: rest => some ([entry], rest)
        | _ => none
      | _ => none
    | _ => none

end

end Reader

/-- How deep the containers of a document may nest. -/
def maxNesting : Nat := 127

/-- The value of a whole text, without a bound on nesting. -/
def ofText? (s : String) : Option Json := do
  let cs := s.toList
  let (parsed, rest) ← Reader.value (2 * cs.length + 2) cs
  if (Reader.skipSpace rest).isEmpty then some parsed else none

/-- The value of a document's text. -/
def ofDocument? (s : String) : Option Json := (ofText? s).map (prune maxNesting)

end ChainClient.Json
