import ChainClient.Json.Form
import ChainClient.Order.SortKey
import ChainClient.Text.Blank
import ChainClient.Text.Decimal
import ChainClient.Time.Error
import ChainClient.Wire.Basic

/-!
# Durations

A span of time in milliseconds, for how long a document stays valid. Its text is a list
of components, each a count and a unit, from days down to milliseconds; a component that
is zero is left out. A reader takes components in any order, with or without white space
between them, and adds them up.
-/

namespace ChainClient

structure Duration where
  millis : UInt64
  deriving DecidableEq, Repr

namespace Duration

def perSecond : Nat := 1000

def perMinute : Nat := 60 * perSecond

def perHour : Nat := 60 * perMinute

def perDay : Nat := 24 * perHour

/-- That many units of a length in milliseconds. The product is not checked beforehand, so one that
does not fit stops the program. -/
def ofUnits (size : Nat) (count : UInt64) : Except ArithmeticFault Duration :=
  if count.toNat * size < UInt64.size then .ok ⟨UInt64.ofNat (count.toNat * size)⟩
  else .error .overflow

def ofSeconds : UInt64 → Except ArithmeticFault Duration := ofUnits perSecond

def ofMinutes : UInt64 → Except ArithmeticFault Duration := ofUnits perMinute

/-! ## Text -/

def component (count : Nat) (unit : List Char) : List (List Char) :=
  if count = 0 then [] else [Text.Decimal.ofNat count ++ unit]

def components (n : Nat) : List (List Char) :=
  component (n / perDay) (if n / perDay = 1 then ['d', 'a', 'y'] else ['d', 'a', 'y', 's']) ++
    component (n % perDay / perHour) ['h'] ++
    component (n % perHour / perMinute) ['m'] ++
    component (n % perMinute / perSecond) ['s'] ++
    component (n % perSecond) ['m', 's']

def chars (d : Duration) : List Char :=
  if d.millis = 0 then ['0', 's'] else [' '].intercalate (components d.millis.toNat)

def text (d : Duration) : String := String.ofList d.chars

/-- The length of a unit in milliseconds. -/
def unitMillis? (unit : String) : Option Nat :=
  if unit ∈ ["ms", "msec", "millis"] then some 1
  else if unit ∈ ["s", "sec", "secs", "second", "seconds"] then some perSecond
  else if unit ∈ ["m", "min", "mins", "minute", "minutes"] then some perMinute
  else if unit ∈ ["h", "hr", "hrs", "hour", "hours"] then some perHour
  else if unit ∈ ["d", "day", "days"] then some perDay
  else none

/-- Adds the components of the text to a total. A count beyond 64 bits is found before an
unknown unit. -/
def addComponents : Nat → Nat → List Char → Except TimeError Nat
  | 0, total, _ => .ok total
  | fuel + 1, total, cs =>
    match Text.skipBlank cs with
    | [] => .ok total
    | rest =>
      let digits := rest.takeWhile Text.Decimal.isDigit
      let suffixed := rest.dropWhile Text.Decimal.isDigit
      match Text.Decimal.numeral? 10 digits with
      | none => .error (.missingNumber (String.ofList rest))
      | some count =>
        if UInt64.size ≤ count then .error .overflow
        else
          let unit := String.ofList (suffixed.takeWhile Char.isAlpha)
          match unitMillis? unit with
          | none => .error (.unknownUnit unit)
          | some size =>
            let total := total + count * size
            if UInt64.size ≤ total then .error .overflow
            else addComponents fuel total (suffixed.dropWhile Char.isAlpha)

def ofText (s : String) : Except TimeError Duration :=
  match Text.trim s.toList with
  | [] => .error .empty
  | cs => do
    let total ← addComponents (cs.length + 1) 0 cs
    return ⟨UInt64.ofNat total⟩

/-! ## Other forms -/

instance : Wire Duration := Wire.via millis mk

instance : JsonForm Duration := .ofText text fun s ↦ (ofText s).toOption

instance : SortKey Duration where
  sortKey d := [(d.millis.toNat : Int)]

end Duration

end ChainClient
