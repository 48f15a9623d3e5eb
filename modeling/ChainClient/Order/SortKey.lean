/-!
# Orders by key

Every ordered type of the library is compared through a key, a list of integers
under the lexicographic order. A number is its own key, a record has the keys of
its fields one after the other, an alternative starts with its ordinal, and a list
announces each element with a one and its end with a zero. No key is a proper
beginning of another of the same type, so this is the usual order on each of them.
-/

namespace ChainClient

class SortKey (α : Type) where
  sortKey : α → List Int

export SortKey (sortKey)

namespace SortKey

def compareKeys (k l : List Int) : Ordering :=
  if k < l then .lt else if k = l then .eq else .gt

def compare {α : Type} [SortKey α] (x y : α) : Ordering := compareKeys (sortKey x) (sortKey y)

def ofList {α : Type} (key : α → List Int) (items : List α) : List Int :=
  items.flatMap (fun item ↦ 1 :: key item) ++ [0]

def ofBytes (bytes : List UInt8) : List Int := bytes.map fun b ↦ (b.toNat : Int)

/-- Bytes whose number is not fixed. -/
def ofBlock (bytes : List UInt8) : List Int := ofList (fun b : UInt8 ↦ [(b.toNat : Int)]) bytes

end SortKey

end ChainClient
