import ChainClient.Limits
import ChainClient.Order.SortedMap
import ChainClient.Wire.Basic

/-!
# Containers on the wire

An option and a result are a tag byte and the value, a list is a count and the
elements, a map is a count and the entries in key order, a tuple is its parts one
after the other.

An element may take no bytes at all, so the count of a list is bounded only where
that happens: a reader stops at the first such element of a list that is too long,
and a writer refuses a long list whose elements take no bytes together. Entries of
a map are read in any order, but a key may occur only once.
-/

namespace ChainClient

namespace Wire

/-- Refuses a step over one of `count` elements that used no input. -/
def checkZeroWidth (before after : Bytes) (count : Nat) : Except WireError Unit :=
  if Limits.maxZeroWidthElements < count && after.length == before.length then
    .error (.malformed .tooManyZeroWidthElements)
  else .ok ()

/-! ## Options and results -/

instance {α : Type} [Wire α] : Wire (Option α) where
  write
    | none => .ok [0]
    | some x => do return 1 :: (← write x)
  read
    | [] => .error .earlyEnd
    | tag :: rest =>
      if tag = 0 then .ok (none, rest)
      else if tag = 1 then do
        let (x, rest) ← read rest
        return (some x, rest)
      else .error (.unknownTag .option tag)
  width
    | none => 1
    | some x => 1 + width x

instance {ε α : Type} [Wire ε] [Wire α] : Wire (Except ε α) where
  write
    | .ok x => do return 1 :: (← write x)
    | .error e => do return 0 :: (← write e)
  read
    | [] => .error .earlyEnd
    | tag :: rest =>
      if tag = 1 then do
        let (x, rest) ← read rest
        return (.ok x, rest)
      else if tag = 0 then do
        let (e, rest) ← read rest
        return (.error e, rest)
      else .error (.unknownTag .result tag)
  width
    | .ok x => 1 + width x
    | .error e => 1 + width e

/-! ## Lists -/

def writeItems {α : Type} [Wire α] : List α → Except WireError Bytes
  | [] => .ok []
  | x :: xs => do
    let front ← write x
    return front ++ (← writeItems xs)

/-- The last `n` of `count` elements. -/
def readItems {α : Type} [Wire α] (count : Nat) : Nat → Bytes → Except WireError (List α × Bytes)
  | 0, bytes => .ok ([], bytes)
  | n + 1, bytes => do
    let (x, rest) ← read bytes
    checkZeroWidth bytes rest count
    let (xs, rest) ← readItems count n rest
    return (x :: xs, rest)

instance {α : Type} [Wire α] : Wire (List α) where
  write xs := do
    let front ← writeCount xs.length
    let body ← writeItems xs
    checkZeroWidth body [] xs.length
    return front ++ body
  read bytes := do
    let (count, rest) ← readCount bytes
    readItems count count rest
  width xs := 4 + total (xs.map width)

/-! ## Tuples -/

instance {α β : Type} [Wire α] [Wire β] : Wire (α × β) where
  write p := do
    let front ← write p.1
    return front ++ (← write p.2)
  read bytes := do
    let (x, rest) ← read bytes
    let (y, rest) ← read rest
    return ((x, y), rest)
  width p := width p.1 + width p.2

/-! ## Maps -/

def writeEntries {α β : Type} [Wire α] [Wire β] : List (α × β) → Except WireError Bytes
  | [] => .ok []
  | entry :: entries => do
    let front ← write entry
    return front ++ (← writeEntries entries)

/-- The next `n` entries, added to those read so far. -/
def readEntries {α β : Type} {key : α → List Int} [Wire α] [Wire β] :
    Nat → SortedMap α key β → Bytes → Except WireError (SortedMap α key β × Bytes)
  | 0, map, bytes => .ok (map, bytes)
  | n + 1, map, bytes => do
    let ((k, v), rest) ← (read bytes : Except WireError ((α × β) × Bytes))
    if map.contains k then .error (.malformed .duplicateMapKey)
    else readEntries n (map.insert k v) rest

instance {α β : Type} {key : α → List Int} [Wire α] [Wire β] : Wire (SortedMap α key β) where
  write map := do
    let front ← writeCount map.entries.length
    return front ++ (← writeEntries map.entries)
  read bytes := do
    let (count, rest) ← readCount bytes
    readEntries count .empty rest
  width map := 4 + total (map.entries.map width)

end Wire

end ChainClient
