import ChainClient.Json.Form

/-!
# Members in any order

Writers put the members of an object in a fixed order, but a tree of values may keep them in
another one, for instance by name. A reader looks members up by their names, so that it finds the
same fields in each arrangement of an object. What it means that a value survives JSON is therefore
said about all arrangements of its form, and about both sources that the form may come from.
-/

namespace ChainClient

namespace Json

/-- In which order the members of an object stand. -/
structure Arrangement where
  order : List (String × Json) → List (String × Json)
  perm (members : List (String × Json)) : (order members).Perm members

namespace Arrangement

/-- The order that writers use. -/
def asWritten : Arrangement := ⟨id, fun _ ↦ .refl _⟩

/-- The order of the names. -/
def byName : Arrangement :=
  ⟨fun members ↦ members.mergeSort fun first second ↦ decide (first.1 ≤ second.1),
    fun _ ↦ List.mergeSort_perm _ _⟩

end Arrangement

mutual

/-- The value with the members of each object in it in that order. -/
def arranged (a : Arrangement) : Json → Json
  | .arr items => .arr (arrangedItems a items)
  | .obj members => .obj (a.order (arrangedMembers a members))
  | value => value

def arrangedItems (a : Arrangement) : List Json → List Json
  | [] => []
  | item :: items => arranged a item :: arrangedItems a items

def arrangedMembers (a : Arrangement) : List (String × Json) → List (String × Json)
  | [] => []
  | (name, value) :: members => (name, arranged a value) :: arrangedMembers a members

end

variable (a : Arrangement)

theorem arrangedItems_eq_map (items : List Json) :
    arrangedItems a items = items.map (arranged a) := by
  induction items with
  | nil => rfl
  | cons item items ih => rw [arrangedItems, ih, List.map_cons]

theorem arrangedMembers_eq_map (members : List (String × Json)) :
    arrangedMembers a members = members.map fun member ↦ (member.1, arranged a member.2) := by
  induction members with
  | nil => rfl
  | cons member members ih => rw [arrangedMembers, ih, List.map_cons]

@[simp]
theorem arranged_str (s : String) : arranged a (.str s) = .str s := rfl

@[simp]
theorem arranged_int (n : Int) : arranged a (.int n) = .int n := rfl

@[simp]
theorem arranged_arr (items : List Json) :
    arranged a (.arr items) = .arr (items.map (arranged a)) := by
  rw [arranged, arrangedItems_eq_map]

/-- The members of an object are arranged inside first and then put into another order. -/
theorem arranged_obj (members : List (String × Json)) : arranged a (.obj members) =
    .obj (a.order (members.map fun member ↦ (member.1, arranged a member.2))) := by
  rw [arranged, arrangedMembers_eq_map]

/-- A single member has only one place. -/
@[simp]
theorem arranged_tagged (name : String) (content : Json) :
    arranged a (tagged name content) = tagged name (arranged a content) := by
  unfold tagged
  rw [arranged_obj]
  exact congrArg obj (List.perm_singleton.1 (a.perm _))

mutual

/-- Leaving all members where they are changes nothing. -/
theorem arranged_asWritten : (j : Json) → arranged .asWritten j = j
  | .arr items => congrArg arr (arrangedItems_asWritten items)
  | .obj members => congrArg obj (arrangedMembers_asWritten members)
  | .null => rfl
  | .bool _ => rfl
  | .int _ => rfl
  | .str _ => rfl
  | .other => rfl

theorem arrangedItems_asWritten : (items : List Json) → arrangedItems .asWritten items = items
  | [] => rfl
  | item :: items => by
    rw [arrangedItems, arranged_asWritten item, arrangedItems_asWritten items]

theorem arrangedMembers_asWritten :
    (members : List (String × Json)) → arrangedMembers .asWritten members = members
  | [] => rfl
  | (name, value) :: members => by
    rw [arrangedMembers, arranged_asWritten value, arrangedMembers_asWritten members]

end

/-- Two members can only stay or change places. -/
theorem eq_or_eq_of_perm_pair {α : Type} {l : List α} {x y : α} (h : l.Perm [x, y]) :
    l = [x, y] ∨ l = [y, x] := by
  match l, h.length_eq with
  | [u, v], _ =>
    have hmem : u = x ∨ u = y := by simpa using h.mem_iff.1 List.mem_cons_self
    rcases hmem with rfl | rfl
    · obtain rfl := List.singleton_inj.1 (List.perm_singleton.1 ((List.perm_cons u).1 h))
      exact .inl rfl
    · have hswap := (List.perm_cons u).1 (h.trans (.swap u x []))
      obtain rfl := List.singleton_inj.1 (List.perm_singleton.1 hswap)
      exact .inr rfl

/-- Two members stand one way or the other. -/
theorem arranged_pair (name name' : String) (x y : Json) :
    arranged a (.obj [(name, x), (name', y)]) =
        .obj [(name, arranged a x), (name', arranged a y)] ∨
      arranged a (.obj [(name, x), (name', y)]) =
        .obj [(name', arranged a y), (name, arranged a x)] := by
  rw [arranged_obj]
  exact (eq_or_eq_of_perm_pair (a.perm _)).imp (congrArg obj) (congrArg obj)

@[simp]
theorem alternative?_tagged (name : String) (content : Json) :
    (tagged name content).alternative? = some (name, some content) := rfl

namespace Shape

variable {members members' : List (String × Json)} {fields : List (Option Json)} {shape : Shape}
  {j : Json}

/-- A field is found in whatever order the members are, since a second member of its name is an
error. -/
theorem fieldOf?_perm (h : members.Perm members') (field : String × Presence) :
    fieldOf? members field = fieldOf? members' field := by
  have hfound := h.filter fun member ↦ member.1 == field.1
  unfold fieldOf?
  generalize members.filter _ = found at hfound ⊢
  generalize members'.filter _ = found' at hfound ⊢
  match found, found', hfound.length_eq with
  | [], [], _ => rfl
  | [member], [member'], _ =>
    obtain rfl := List.singleton_inj.1 (List.perm_singleton.1 hfound)
    rfl
  | _ :: _ :: _, _ :: _ :: _, _ => rfl

/-- What is found for a field follows a change of all members. -/
theorem fieldOf?_map (f : Json → Json) (members : List (String × Json))
    (field : String × Presence) :
    fieldOf? (members.map fun member ↦ (member.1, f member.2)) field =
      (fieldOf? members field).map (Option.map f) := by
  have hfilter : (members.map fun member ↦ (member.1, f member.2)).filter
        (fun member ↦ member.1 == field.1) =
      (members.filter fun member ↦ member.1 == field.1).map fun member ↦ (member.1, f member.2) :=
    List.filter_map
  unfold fieldOf?
  rw [hfilter]
  generalize members.filter _ = found
  match found with
  | [] => by_cases h : field.2 = .required <;> simp [h]
  | [_] => rfl
  | _ :: _ :: _ => rfl

theorem mapM_eq_map_mapM {f g : String × Presence → Option (Option Json)}
    {change : Option Json → Option Json} (h : ∀ field, g field = (f field).map change)
    (fields : List (String × Presence)) :
    fields.mapM g = (fields.mapM f).map (List.map change) := by
  induction fields with
  | nil => rfl
  | cons field fields ih =>
    rw [List.mapM_cons, List.mapM_cons, h, ih]
    cases f field <;> cases fields.mapM f <;> rfl

/-- An object is read field by field, after its members are compared with the fields if it is
closed. -/
theorem read?_obj (shape : Shape) (members : List (String × Json)) : shape.read? (.obj members) =
    if shape.closed && members.any fun member ↦ !shape.fields.any fun field ↦ field.1 == member.1
    then none else shape.fields.mapM (fieldOf? members) := rfl

theorem ofItems?_map (f : Json → Json) (fields : List (String × Presence)) (items : List Json) :
    ofItems? fields (items.map f) = (ofItems? fields items).map (List.map (Option.map f)) := by
  fun_induction ofItems? fields items with
  | case1 => rfl
  | case2 => rfl
  | case3 field fields item items ih =>
    rw [List.map_cons, ofItems?, ih]
    cases ofItems? fields items <;> rfl
  | case4 field fields hoptional ih =>
    rw [List.map_nil] at ih ⊢
    rw [ofItems?, if_pos hoptional]
    conv => lhs; rw [ih]
    cases ofItems? fields [] <;> rfl
  | case5 field fields hrequired =>
    rw [List.map_nil, ofItems?, if_neg hrequired]
    rfl

/-- The fields of a record do not depend on the order of its members. -/
theorem read?_arranged (shape : Shape) (j : Json) : shape.read? (arranged a j) =
    (shape.read? j).map (List.map (Option.map (arranged a))) := by
  cases j with
  | obj members =>
    have hperm := a.perm (members.map fun member ↦ (member.1, arranged a member.2))
    have hfield (field : String × Presence) :
        fieldOf? (a.order (members.map fun member ↦ (member.1, arranged a member.2))) field =
          (fieldOf? members field).map (Option.map (arranged a)) :=
      (fieldOf?_perm hperm field).trans (fieldOf?_map _ members field)
    have hany : (a.order (members.map fun member ↦ (member.1, arranged a member.2))).any
          (fun member ↦ !shape.fields.any fun field ↦ field.1 == member.1) =
        members.any fun member ↦ !shape.fields.any fun field ↦ field.1 == member.1 :=
      hperm.any_eq.trans List.any_map
    rw [arranged_obj, read?_obj, read?_obj, hany, mapM_eq_map_mapM hfield]
    split <;> rfl
  | arr items =>
    rw [arranged_arr]
    exact ofItems?_map _ shape.fields items
  | _ => rfl

/-- A form that is held back until its kind is known is read in any arrangement too. -/
theorem readHeld?_arranged (shape : Shape) (source : Source) (j : Json) :
    shape.readHeld? source (arranged a j) =
      (shape.readHeld? source j).map (List.map (Option.map (arranged a))) := by
  cases source with
  | text => exact read?_arranged a shape j
  | tree =>
    cases j with
    | obj members => exact read?_arranged a shape (.obj members)
    | _ => rfl

theorem read?_arranged_of_eq (h : shape.read? j = some fields) :
    shape.read? (arranged a j) = some (fields.map (Option.map (arranged a))) := by
  rw [read?_arranged, h, Option.map_some]

theorem readHeld?_arranged_of_eq {source : Source} (h : shape.readHeld? source j = some fields) :
    shape.readHeld? source (arranged a j) = some (fields.map (Option.map (arranged a))) := by
  rw [readHeld?_arranged, h, Option.map_some]

end Shape

end Json

/-! ## Reading back -/

section Reads

variable {α : Type} [JsonForm α] {j : Json} {x : α}

/-- Each arrangement of the tree is read as the value, wherever it comes from. -/
def ReadsAs (j : Json) (x : α) : Prop :=
  ∀ (a : Json.Arrangement) (source : Json.Source), ofJson? source (j.arranged a) = some x

/-- The value is read back from its form. -/
def ReadsBack (x : α) : Prop := ReadsAs (toJson x) x

theorem ReadsAs.ofJson?_eq (h : ReadsAs j x) (source : Json.Source) :
    ofJson? source j = some x := by
  have hwritten := h .asWritten source
  rw [Json.arranged_asWritten] at hwritten
  exact hwritten

/-- A value that survives is read back from its own form. -/
theorem ReadsBack.ofJson?_toJson (h : ReadsBack x) (source : Json.Source) :
    ofJson? source (toJson x) = some x :=
  ReadsAs.ofJson?_eq h source

/-- A record is read if its reader makes it out of its fields. -/
theorem ReadsAs.of_fields {shape : Json.Shape} {fields : List (Option Json)}
    (hfields : shape.read? j = some fields)
    (h : ∀ (a : Json.Arrangement) (source : Json.Source) (j : Json),
      shape.read? j = some (fields.map (Option.map (Json.arranged a))) →
        ofJson? source j = some x) : ReadsAs j x :=
  fun a source ↦ h a source _ (Json.Shape.read?_arranged_of_eq a hfields)

/-- An alternative is read if its reader makes it out of what stands under its name. -/
theorem ReadsAs.of_content {name : String} {content : Json}
    (h : ∀ (a : Json.Arrangement) (source : Json.Source),
      ofJson? source (.tagged name (content.arranged a)) = some x) :
    ReadsAs (.tagged name content) x := by
  intro a source
  rw [Json.arranged_tagged]
  exact h a source

/-- So is an alternative that holds a record. -/
theorem ReadsAs.of_held {name : String} {members : List (String × Json)} {shape : Json.Shape}
    {fields : List (Option Json)} (hfields : shape.read? (.obj members) = some fields)
    (h : ∀ (a : Json.Arrangement) (source : Json.Source) (content : Json),
      shape.readHeld? source content = some (fields.map (Option.map (Json.arranged a))) →
        ofJson? source (.tagged name content) = some x) :
    ReadsAs (.tagged name (.obj members)) x := by
  apply ReadsAs.of_content
  intro a source
  have hheld : shape.readHeld? source (.obj members) = some fields := by
    cases source <;> exact hfields
  exact h a source _ (Json.Shape.readHeld?_arranged_of_eq a hheld)

end Reads

namespace Json

theorem nat?_of_lt {bound n : Nat} (h : n < bound) : nat? bound (.int n) = some n := if_pos h

theorem nat?_eq_some {bound n : Nat} {j : Json} :
    nat? bound j = some n ↔ n < bound ∧ j = .int n := by
  constructor
  · intro h
    unfold nat? at h
    split at h
    · split at h
      case isTrue hlt =>
        obtain rfl := Option.some.inj h
        exact ⟨hlt, rfl⟩
      case isFalse => cases h
    · cases h
  · rintro ⟨hlt, rfl⟩
    exact nat?_of_lt hlt

theorem readsBack_bool (b : Bool) : ReadsBack b := fun _ _ ↦ rfl

theorem readsBack_string (s : String) : ReadsBack s := fun _ _ ↦ rfl

theorem map_nat?_of_lt {α : Type} {ofNat : Nat → α} {bound n : Nat} {x : α} (h : n < bound)
    (hx : ofNat n = x) : (nat? bound (.int n)).map ofNat = some x := by
  rw [nat?_of_lt h, Option.map_some, hx]

theorem readsBack_uint8 (n : UInt8) : ReadsBack n :=
  fun _ _ ↦ map_nat?_of_lt n.toNat_lt UInt8.ofNat_toNat

theorem readsBack_uint32 (n : UInt32) : ReadsBack n :=
  fun _ _ ↦ map_nat?_of_lt n.toNat_lt UInt32.ofNat_toNat

/-- Numbers of 64 bits survive as numbers. -/
theorem readsBack_uint64 (n : UInt64) : ReadsBack n :=
  fun _ _ ↦ map_nat?_of_lt n.toNat_lt UInt64.ofNat_toNat

/-- The form of a number is never null. -/
theorem readsBack_option_uint32 (n : Option UInt32) : ReadsBack n := by
  intro a source
  cases n with
  | none => rfl
  | some n => exact congrArg (Option.map some) (readsBack_uint32 n a source)

theorem readsBack_list {α : Type} [JsonForm α] {xs : List α} (h : ∀ x ∈ xs, ReadsBack x) :
    ReadsBack xs := by
  intro a source
  have hitems : ((xs.map toJson).map (arranged a)).mapM (ofJson? source) = some xs := by
    induction xs with
    | nil => rfl
    | cons x xs ih =>
      obtain ⟨hx, hxs⟩ := List.forall_mem_cons.1 h
      rw [List.map_cons, List.map_cons, List.mapM_cons, hx a source, ih hxs]
      rfl
  rw [toJson, instJsonFormList, arranged_arr]
  exact hitems

/-- A form that is a text survives if the value reads back from that text. -/
theorem readsBack_text {α ε : Type} {text : α → String} {read : String → Except ε α} {x : α}
    (h : read (text x) = .ok x) :
    @ReadsBack α (.ofText text fun s ↦ (read s).toOption) x :=
  fun _ _ ↦ congrArg Except.toOption h

end Json

end ChainClient
