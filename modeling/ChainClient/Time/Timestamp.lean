import ChainClient.Text.Label
import ChainClient.Time.Calendar
import ChainClient.Time.Duration

/-!
# Timestamps

A moment, as the count of milliseconds since the first of January 1970. Its text is a
date and a time in universal time with three decimals, or the bare count where the date
would lie beyond the calendar. A reader also takes other offsets from universal time, any
number of decimals, of which it uses three, and a second that is inserted at the end of a
minute.
-/

namespace ChainClient

structure Timestamp where
  millis : UInt64
  deriving DecidableEq, Repr

namespace Timestamp

/-- Stops at the last moment that has a count. -/
def add (t : Timestamp) (d : Duration) : Timestamp :=
  ⟨UInt64.ofNat (min (t.millis.toNat + d.millis.toNat) (UInt64.size - 1))⟩

/-! ## Writing -/

/-- The last millisecond of the year 262142. -/
def lastCalendarMillis : Nat := 8210266876799999

def yearChars (year : Nat) : List Char :=
  if year ≤ 9999 then Text.Decimal.padded 4 year else '+' :: Text.Decimal.ofNat year

def calendarChars (n : Nat) : List Char :=
  let date := Calendar.Date.ofDays (n / 86400000)
  let rest := n % 86400000
  yearChars date.year ++ '-' :: Text.Decimal.padded 2 date.month ++
    '-' :: Text.Decimal.padded 2 date.day ++ 'T' :: Text.Decimal.padded 2 (rest / 3600000) ++
    ':' :: Text.Decimal.padded 2 (rest / 60000 % 60) ++
    ':' :: Text.Decimal.padded 2 (rest / 1000 % 60) ++
    '.' :: Text.Decimal.padded 3 (rest % 1000) ++ ['Z']

def chars (t : Timestamp) : List Char :=
  let n := t.millis.toNat
  if n ≤ lastCalendarMillis then calendarChars n else Text.Decimal.ofNat n ++ ['m', 's']

def text (t : Timestamp) : String := String.ofList t.chars

/-! ## Reading -/

/-- A numeral of exactly `width` digits. -/
def fixedNumber? (width : Nat) (cs : List Char) : Option (Nat × List Char) := do
  if cs.length < width then none
  else
    let n ← Text.Decimal.numeral? 10 (cs.take width)
    some (n, cs.drop width)

def sign? (accepted : List Char) : List Char → Option (List Char)
  | [] => none
  | c :: cs => if c ∈ accepted then some cs else none

/-- The milliseconds of a fraction of a second. -/
def fractionMillis? : List Char → Option (Nat × List Char)
  | '.' :: cs =>
    match cs.takeWhile Text.Decimal.isDigit with
    | [] => none
    | digits => do
      let n ← Text.Decimal.numeral? 10 ((digits ++ ['0', '0']).take 3)
      some (n, cs.dropWhile Text.Decimal.isDigit)
  | cs => some (0, cs)

/-- The offset from universal time in minutes, at the end of the text. -/
def offset? : List Char → Option Int
  | ['Z'] => some 0
  | ['z'] => some 0
  | c :: cs => do
    let (hours, cs) ← fixedNumber? 2 cs
    let cs ← sign? [':'] cs
    let (minutes, cs) ← fixedNumber? 2 cs
    if 24 ≤ hours ∨ 60 ≤ minutes ∨ cs ≠ [] then none
    else
      let magnitude : Int := 60 * hours + minutes
      if c = '+' then some magnitude
      else if c = '-' ∨ c = '\u2212' then some (-magnitude)
      else none
  | [] => none

/-- Milliseconds since 1970, negative before. -/
def dateTime? (cs : List Char) : Option Int := do
  let (year, cs) ← fixedNumber? 4 cs
  let cs ← sign? ['-'] cs
  let (month, cs) ← fixedNumber? 2 cs
  let cs ← sign? ['-'] cs
  let (day, cs) ← fixedNumber? 2 cs
  let cs ← sign? ['T', 't', ' '] cs
  let (hour, cs) ← fixedNumber? 2 cs
  let cs ← sign? [':'] cs
  let (minute, cs) ← fixedNumber? 2 cs
  let cs ← sign? [':'] cs
  let (second, cs) ← fixedNumber? 2 cs
  let (millis, cs) ← fractionMillis? cs
  let offset ← offset? cs
  let date : Calendar.Date := ⟨year, month, day⟩
  if date.isValid ∧ hour < 24 ∧ minute < 60 ∧ second ≤ 60 then
    some (date.toDays * 86400000 + ((hour : Int) * 60 + minute - offset) * 60000 +
      second * 1000 + millis)
  else none

/-- The digits of a bare count. -/
def countDigits? (cs : List Char) : Option (List Char) := do
  let rest ← Text.stripLabel? ['s', 'm'] cs.reverse
  if rest ≠ [] ∧ rest.all Text.Decimal.isDigit then some rest.reverse else none

def ofChars (cs : List Char) : Except TimeError Timestamp :=
  match countDigits? cs with
  | some digits =>
    match Text.Decimal.numeral? 10 digits with
    | some n => if n < UInt64.size then .ok ⟨UInt64.ofNat n⟩ else .error .overflow
    | none => .error .overflow
  | none =>
    match dateTime? cs with
    | none => .error .badDateTime
    | some (.ofNat n) => .ok ⟨UInt64.ofNat n⟩
    | some (.negSucc _) => .error .beforeEpoch

def ofText (s : String) : Except TimeError Timestamp := ofChars s.toList

/-! ## Other forms -/

instance : Wire Timestamp := Wire.via millis mk

instance : JsonForm Timestamp := .ofText text fun s ↦ (ofText s).toOption

instance : SortKey Timestamp where
  sortKey t := [(t.millis.toNat : Int)]

end Timestamp

end ChainClient
