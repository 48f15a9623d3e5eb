/-!
# JSON values

The values that documents are written to and read from. Members keep their order
and may repeat a name, so that a reader can refuse a repetition. Numbers are
integers only: what is well formed but can stand for nothing in a document, such
as a fraction, is kept as one value that every reader refuses.
-/

namespace ChainClient

inductive Json where
  | null
  | bool (value : Bool)
  | int (value : Int)
  | str (value : String)
  | arr (items : List Json)
  | obj (members : List (String × Json))
  /-- A well-formed value that no document holds. -/
  | other
  deriving Repr, BEq, Inhabited

namespace Json

/-- Containers nested below `depth` levels are replaced by `other`. -/
def prune : Nat → Json → Json
  | 0, .arr _ => .other
  | 0, .obj _ => .other
  | depth + 1, .arr items => .arr (items.map (prune depth))
  | depth + 1, .obj members => .obj (members.map fun member ↦ (member.1, prune depth member.2))
  | _, value => value

end Json

end ChainClient
