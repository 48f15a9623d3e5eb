import ChainClient.Json.Basic

/-!
# Types with a JSON form

A type that stands in documents has a writer and a reader. Three shapes recur.
A record is an object with one member per field; it is also read from the array of
its fields. A choice between alternatives is the bare name of an alternative that
holds nothing, or an object whose single member is named for the alternative.
Everything else is a text, a number, a truth value or a list.

A reader is told where its value comes from, because one thing depends on it: the
record that an alternative holds may be an array of its fields only in a text.
-/

namespace ChainClient

/-- Where a value comes from: out of a text, or put together as a tree of values. -/
inductive Json.Source where
  | text
  | tree
  deriving DecidableEq, Repr

class JsonForm (α : Type) where
  toJson : α → Json
  ofJson? : Json.Source → Json → Option α

export JsonForm (toJson ofJson?)

namespace Json

/-- A natural number below `bound`. -/
def nat? (bound : Nat) : Json → Option Nat
  | .int (.ofNat n) => if n < bound then some n else none
  | _ => none

def text? : Json → Option String
  | .str s => some s
  | _ => none

def list? : Json → Option (List Json)
  | .arr items => some items
  | _ => none

/-! ## Records -/

/-- Whether a field may be left out: never, in the object form, or also at the end of
the array form. -/
inductive Presence where
  | required
  | nullable
  | optional
  deriving DecidableEq, Repr

structure Shape where
  fields : List (String × Presence)
  /-- Unknown members are refused. -/
  closed : Bool

namespace Shape

def ofNames (names : List String) : Shape :=
  ⟨names.map fun name ↦ (name, .required), true⟩

/-- The only member of that name, or nothing where the field may be missing. -/
def fieldOf? (members : List (String × Json)) (field : String × Presence) : Option (Option Json) :=
  match members.filter fun member ↦ member.1 == field.1 with
  | [] => if field.2 = .required then none else some none
  | [member] => some (some member.2)
  | _ => none

def ofItems? : List (String × Presence) → List Json → Option (List (Option Json))
  | [], [] => some []
  | [], _ :: _ => none
  | _ :: fields, item :: items => (ofItems? fields items).map (some item :: ·)
  | field :: fields, [] =>
    if field.2 = .optional then (ofItems? fields []).map (none :: ·) else none

/-- The values of the fields in declaration order. -/
def read? (shape : Shape) : Json → Option (List (Option Json))
  | .obj members =>
    if shape.closed && members.any fun member ↦ !shape.fields.any fun field ↦ field.1 == member.1
    then none
    else shape.fields.mapM (fieldOf? members)
  | .arr items => ofItems? shape.fields items
  | _ => none

/-- The values of the fields of a record that an alternative holds. -/
def readHeld? (shape : Shape) : Source → Json → Option (List (Option Json))
  | .tree, .arr _ => none
  | _, content => shape.read? content

end Shape

/-! ## Alternatives -/

/-- The name of an alternative and what it holds. -/
def alternative? : Json → Option (String × Option Json)
  | .str name => some (name, none)
  | .obj [(name, content)] => some (name, some content)
  | _ => none

/-- An alternative that holds nothing is written bare, and is also read from a null member. -/
def holdsNothing : Option Json → Bool
  | none => true
  | some .null => true
  | some _ => false

def tagged (name : String) (content : Json) : Json := .obj [(name, content)]

end Json

/-- The form of a type that is written as a text. -/
@[reducible] def JsonForm.ofText {α : Type} (text : α → String) (read? : String → Option α) :
    JsonForm α where
  toJson x := .str (text x)
  ofJson? _ j := do read? (← j.text?)

/-! ## Plain types -/

instance : JsonForm Bool where
  toJson := .bool
  ofJson?
    | _, .bool b => some b
    | _, _ => none

instance : JsonForm String where
  toJson := .str
  ofJson? _ := Json.text?

instance : JsonForm UInt8 where
  toJson n := .int n.toNat
  ofJson? _ j := (Json.nat? UInt8.size j).map UInt8.ofNat

instance : JsonForm UInt32 where
  toJson n := .int n.toNat
  ofJson? _ j := (Json.nat? UInt32.size j).map UInt32.ofNat

instance : JsonForm UInt64 where
  toJson n := .int n.toNat
  ofJson? _ j := (Json.nat? UInt64.size j).map UInt64.ofNat

instance {α : Type} [JsonForm α] : JsonForm (List α) where
  toJson items := .arr (items.map toJson)
  ofJson? source j := do (← j.list?).mapM (ofJson? source)

instance {α : Type} [JsonForm α] : JsonForm (Option α) where
  toJson
    | none => .null
    | some x => toJson x
  ofJson?
    | _, .null => some none
    | source, j => (ofJson? source j).map some

/-- A field that was left out counts as one that is null. -/
def Json.ofField? {α : Type} [JsonForm α] (source : Json.Source) :
    Option Json → Option (Option α)
  | none => some none
  | some j => ofJson? source j

end ChainClient
