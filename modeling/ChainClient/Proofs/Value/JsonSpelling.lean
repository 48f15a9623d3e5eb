import ChainClient.Json.Reader
import ChainClient.Proofs.Json.Nesting
import ChainClient.Proofs.Value.Json
import ChainClient.Proofs.Value.TypeName

/-!
# How types stand in JSON

A type is read from more than the form that is printed of it: the part of a one-element tuple may
stand bare or in an array, two named parts may be an array of both, and members come in any order.
No type is an array, so the bare part and the array of it are never confused, at any depth. Those
are all the forms of a type that are read. A typed value is read from one of them and its bytes,
and what is shown beside them is passed over.
-/

namespace ChainClient

open Json (Arrangement arranged)

/-! ## Parts in arrays -/

namespace Json

mutual

/-- The second value is the first, but that what stands under the name of a one-element tuple may
stand in an array of its own, in any places. -/
inductive Boxes : Json → Json → Prop
  | same (j : Json) : Boxes j j
  | arr {items items' : List Json} (h : BoxesItems items items') : Boxes (.arr items) (.arr items')
  | obj {members members' : List (String × Json)} (h : BoxesMembers members members') :
    Boxes (.obj members) (.obj members')
  | box {j j' : Json} (h : Boxes j j') : Boxes (.tagged "Tuple1" j) (.tagged "Tuple1" (.arr [j']))

/-- The relation for the items of a list, item by item. -/
inductive BoxesItems : List Json → List Json → Prop
  | nil : BoxesItems [] []
  | cons {j j' : Json} {items items' : List Json} (h : Boxes j j') (hs : BoxesItems items items') :
    BoxesItems (j :: items) (j' :: items')

/-- The relation for the members of an object; their names stay. -/
inductive BoxesMembers : List (String × Json) → List (String × Json) → Prop
  | nil : BoxesMembers [] []
  | cons {name : String} {j j' : Json} {members members' : List (String × Json)}
    (h : Boxes j j') (hs : BoxesMembers members members') :
    BoxesMembers ((name, j) :: members) ((name, j') :: members')

end

theorem BoxesItems.refl (items : List Json) : BoxesItems items items := by
  induction items with
  | nil => exact .nil
  | cons j items ih => exact .cons (.same j) ih

theorem BoxesMembers.refl (members : List (String × Json)) : BoxesMembers members members := by
  induction members with
  | nil => exact .nil
  | cons member members ih => exact .cons (.same member.2) ih

namespace Boxes

variable {name : String} {j content : Json}

theorem exists_items {items : List Json} (h : Boxes (.arr items) content) :
    ∃ items', BoxesItems items items' ∧ content = .arr items' := by
  cases h with
  | same => exact ⟨items, .refl items, rfl⟩
  | arr h => exact ⟨_, h, rfl⟩

/-- More members than one are not those of a one-element tuple. -/
theorem exists_members {first second : String × Json} {members : List (String × Json)}
    (h : Boxes (.obj (first :: second :: members)) content) :
    ∃ members', BoxesMembers (first :: second :: members) members' ∧ content = .obj members' := by
  cases h with
  | same => exact ⟨_, .refl _, rfl⟩
  | obj h => exact ⟨_, h, rfl⟩

/-- Under a name there is the related content, or its boxed form if the name is that of the
one-tuple. -/
theorem exists_content (h : Boxes (.tagged name j) content) : ∃ j', Boxes j j' ∧
    (content = .tagged name j' ∨ name = "Tuple1" ∧ content = .tagged name (.arr [j'])) := by
  cases h with
  | same => exact ⟨j, .same j, .inl rfl⟩
  | obj h =>
    cases h with
    | cons hj hs =>
      cases hs
      exact ⟨_, hj, .inl rfl⟩
  | box h => exact ⟨_, h, .inr ⟨rfl, rfl⟩⟩

/-- What stands under another name stays bare. -/
theorem exists_content_of_ne (h : Boxes (.tagged name j) content) (hname : name ≠ "Tuple1") :
    ∃ j', Boxes j j' ∧ content = .tagged name j' := by
  obtain ⟨j', hj, rfl | ⟨heq, -⟩⟩ := h.exists_content
  · exact ⟨j', hj, rfl⟩
  · exact absurd heq hname

end Boxes

end Json

namespace ClType

/-- Two parts are named members, in any order, or the two elements of an array. -/
inductive HoldsPair (name name' : String) (j k : Json) : Json → Prop
  | named : HoldsPair name name' j k (.obj [(name, j), (name', k)])
  | swapped : HoldsPair name name' j k (.obj [(name', k), (name, j)])
  | items : HoldsPair name name' j k (.arr [j, k])

/-- The type stands in the value. -/
inductive StandsIn : ClType → Json → Prop
  | leaf (l : ClLeaf) : StandsIn (.leaf l) (.str l.name)
  | option {t : ClType} {j : Json} (h : StandsIn t j) :
    StandsIn (.option t) (.tagged "Option" j)
  | list {t : ClType} {j : Json} (h : StandsIn t j) : StandsIn (.list t) (.tagged "List" j)
  | byteArray (size : UInt32) :
    StandsIn (.byteArray size) (.tagged "ByteArray" (.int size.toNat))
  | result {t u : ClType} {j k parts : Json} (ht : StandsIn t j) (hu : StandsIn u k)
    (h : HoldsPair "ok" "err" j k parts) : StandsIn (.result t u) (.tagged "Result" parts)
  | map {t u : ClType} {j k parts : Json} (ht : StandsIn t j) (hu : StandsIn u k)
    (h : HoldsPair "key" "value" j k parts) : StandsIn (.map t u) (.tagged "Map" parts)
  | tuple1 {t : ClType} {j : Json} (h : StandsIn t j) :
    StandsIn (.tuple1 t) (.tagged "Tuple1" j)
  | boxed {t : ClType} {j : Json} (h : StandsIn t j) :
    StandsIn (.tuple1 t) (.tagged "Tuple1" (.arr [j]))
  | tuple2 {t u : ClType} {j k : Json} (ht : StandsIn t j) (hu : StandsIn u k) :
    StandsIn (.tuple2 t u) (.tagged "Tuple2" (.arr [j, k]))
  | tuple3 {t u v : ClType} {j k l : Json} (ht : StandsIn t j) (hu : StandsIn u k)
    (hv : StandsIn v l) : StandsIn (.tuple3 t u v) (.tagged "Tuple3" (.arr [j, k, l]))

/-! ## What is read -/

namespace StandsIn

variable {t : ClType} {j : Json}

/-- No type is an array, so a part that stands bare is not taken for an array of one part. -/
theorem ne_arr (h : t.StandsIn j) (items : List Json) : j ≠ .arr items := by
  cases h <;> exact nofun

theorem ofJson?_eq (h : t.StandsIn j) : ofJson? j = some t := by
  induction h with
  | leaf l => rw [ofJson?, ClLeaf.ofName?_name, Option.map_some]
  | option _ ih | list _ ih | boxed _ ih => rw [Json.tagged, ofJson?, ih, Option.map_some]
  | byteArray size =>
    rw [Json.tagged, ofJson?, Json.nat?_of_lt size.toNat_lt, Option.map_some,
      UInt32.ofNat_toNat]
  | tuple1 h ih =>
    rw [Json.tagged, ofJson?, ih, Option.map_some]
    exact fun part hpart ↦ h.ne_arr [part] hpart
  | result _ _ h iht ihu | map _ _ h iht ihu =>
    cases h <;>
      · rw [Json.tagged, ofJson?, iht, ihu]
        rfl
  | tuple2 _ _ iht ihu =>
    rw [Json.tagged, ofJson?, iht, ihu]
    rfl
  | tuple3 _ _ _ iht ihu ihv =>
    rw [Json.tagged, ofJson?, iht, ihu, ihv]
    rfl

end StandsIn

theorem exists_parts_of_eq_some {make : ClType → ClType → ClType} {first second : Option ClType}
    {t : ClType} (h : (do return make (← first) (← second)) = some t) :
    ∃ u v, first = some u ∧ second = some v ∧ make u v = t := by
  obtain ⟨u, hu, h⟩ := Option.bind_eq_some_iff.1 h
  obtain ⟨v, hv, h⟩ := Option.bind_eq_some_iff.1 h
  exact ⟨u, v, hu, hv, Option.some.inj h⟩

/-- Nothing else is read: the cases are those of the reader. -/
theorem standsIn_of_ofJson? {j : Json} {t : ClType} (h : ofJson? j = some t) : t.StandsIn j := by
  fun_induction ofJson? j generalizing t with
  | case1 name =>
    obtain ⟨l, hl, rfl⟩ := Option.map_eq_some_iff.1 h
    obtain rfl := ClLeaf.name_of_ofName? hl
    exact .leaf l
  | case2 j ih =>
    obtain ⟨t, ht, rfl⟩ := Option.map_eq_some_iff.1 h
    exact .option (ih ht)
  | case3 j ih =>
    obtain ⟨t, ht, rfl⟩ := Option.map_eq_some_iff.1 h
    exact .list (ih ht)
  | case4 size =>
    obtain ⟨n, hn, rfl⟩ := Option.map_eq_some_iff.1 h
    obtain ⟨hlt, rfl⟩ := Json.nat?_eq_some.1 hn
    have hsize := StandsIn.byteArray (UInt32.ofNat n)
    rwa [UInt32.toNat_ofNat_of_lt' hlt] at hsize
  | case5 j k ihj ihk =>
    obtain ⟨t, u, ht, hu, rfl⟩ := exists_parts_of_eq_some h
    exact .result (ihj ht) (ihk hu) .items
  | case6 j k ihj ihk =>
    obtain ⟨t, u, ht, hu, rfl⟩ := exists_parts_of_eq_some h
    exact .result (ihj ht) (ihk hu) .named
  | case7 k j ihj ihk =>
    obtain ⟨t, u, ht, hu, rfl⟩ := exists_parts_of_eq_some h
    exact .result (ihj ht) (ihk hu) .swapped
  | case8 j k ihj ihk =>
    obtain ⟨t, u, ht, hu, rfl⟩ := exists_parts_of_eq_some h
    exact .map (ihj ht) (ihk hu) .items
  | case9 j k ihj ihk =>
    obtain ⟨t, u, ht, hu, rfl⟩ := exists_parts_of_eq_some h
    exact .map (ihj ht) (ihk hu) .named
  | case10 k j ihj ihk =>
    obtain ⟨t, u, ht, hu, rfl⟩ := exists_parts_of_eq_some h
    exact .map (ihj ht) (ihk hu) .swapped
  | case11 j ih =>
    obtain ⟨t, ht, rfl⟩ := Option.map_eq_some_iff.1 h
    exact .boxed (ih ht)
  | case12 j _ ih =>
    obtain ⟨t, ht, rfl⟩ := Option.map_eq_some_iff.1 h
    exact .tuple1 (ih ht)
  | case13 j k ihj ihk =>
    obtain ⟨t, u, ht, hu, rfl⟩ := exists_parts_of_eq_some h
    exact .tuple2 (ihj ht) (ihk hu)
  | case14 j k l ihj ihk ihl =>
    obtain ⟨t, ht, h⟩ := Option.bind_eq_some_iff.1 h
    obtain ⟨u, hu, h⟩ := Option.bind_eq_some_iff.1 h
    obtain ⟨v, hv, h⟩ := Option.bind_eq_some_iff.1 h
    obtain rfl := Option.some.inj h
    exact .tuple3 (ihj ht) (ihk hu) (ihl hv)
  | case15 => cases h

/-- The part of a one-element tuple stands bare or in an array, as it comes. -/
theorem standsIn_of_boxes {t : ClType} {j : Json} (h : Json.Boxes t.toJson j) : t.StandsIn j := by
  induction t generalizing j with
  | leaf l =>
    cases h
    exact .leaf l
  | byteArray size =>
    obtain ⟨content, hsize, rfl⟩ := h.exists_content_of_ne (by decide)
    cases hsize
    exact .byteArray size
  | option t ih =>
    obtain ⟨content, ht, rfl⟩ := h.exists_content_of_ne (by decide)
    exact .option (ih ht)
  | list t ih =>
    obtain ⟨content, ht, rfl⟩ := h.exists_content_of_ne (by decide)
    exact .list (ih ht)
  | tuple1 t ih =>
    obtain ⟨content, ht, rfl | ⟨-, rfl⟩⟩ := h.exists_content
    · exact .tuple1 (ih ht)
    · exact .boxed (ih ht)
  | result t u iht ihu =>
    obtain ⟨content, hparts, rfl⟩ := h.exists_content_of_ne (by decide)
    obtain ⟨_, _ | ⟨ht, _ | ⟨hu, _ | _⟩⟩, rfl⟩ := hparts.exists_members
    exact .result (iht ht) (ihu hu) .named
  | map t u iht ihu =>
    obtain ⟨content, hparts, rfl⟩ := h.exists_content_of_ne (by decide)
    obtain ⟨_, _ | ⟨ht, _ | ⟨hu, _ | _⟩⟩, rfl⟩ := hparts.exists_members
    exact .map (iht ht) (ihu hu) .named
  | tuple2 t u iht ihu =>
    obtain ⟨content, hparts, rfl⟩ := h.exists_content_of_ne (by decide)
    obtain ⟨_, _ | ⟨ht, _ | ⟨hu, _ | _⟩⟩, rfl⟩ := hparts.exists_items
    exact .tuple2 (iht ht) (ihu hu)
  | tuple3 t u v iht ihu ihv =>
    obtain ⟨content, hparts, rfl⟩ := h.exists_content_of_ne (by decide)
    obtain ⟨_, _ | ⟨ht, _ | ⟨hu, _ | ⟨hv, _ | _⟩⟩⟩, rfl⟩ := hparts.exists_items
    exact .tuple3 (iht ht) (ihu hu) (ihv hv)

section Arranged

variable (a : Arrangement)

theorem HoldsPair.arranged {name name' : String} {j k parts : Json}
    (h : HoldsPair name name' j k parts) :
    HoldsPair name name' (arranged a j) (arranged a k) (arranged a parts) := by
  cases h with
  | named =>
    rcases Json.arranged_pair a name name' j k with h | h <;> rw [h]
    · exact .named
    · exact .swapped
  | swapped =>
    rcases Json.arranged_pair a name' name k j with h | h <;> rw [h]
    · exact .swapped
    · exact .named
  | items =>
    rw [Json.arranged_arr]
    exact .items

/-- Members in another order are found by their names. -/
theorem StandsIn.arranged {t : ClType} {j : Json} (h : t.StandsIn j) :
    t.StandsIn (arranged a j) := by
  induction h with
  | leaf l => exact .leaf l
  | byteArray size =>
    rw [Json.arranged_tagged]
    exact .byteArray size
  | option _ ih =>
    rw [Json.arranged_tagged]
    exact .option ih
  | list _ ih =>
    rw [Json.arranged_tagged]
    exact .list ih
  | result _ _ h iht ihu =>
    rw [Json.arranged_tagged]
    exact .result iht ihu (h.arranged a)
  | map _ _ h iht ihu =>
    rw [Json.arranged_tagged]
    exact .map iht ihu (h.arranged a)
  | tuple1 _ ih =>
    rw [Json.arranged_tagged]
    exact .tuple1 ih
  | boxed _ ih =>
    rw [Json.arranged_tagged, Json.arranged_arr]
    exact .boxed ih
  | tuple2 _ _ iht ihu =>
    rw [Json.arranged_tagged, Json.arranged_arr]
    exact .tuple2 iht ihu
  | tuple3 _ _ _ iht ihu ihv =>
    rw [Json.arranged_tagged, Json.arranged_arr]
    exact .tuple3 iht ihu ihv

end Arranged

/-! ## Containers -/

theorem HoldsPair.isWithin {depth : Nat} {name name' : String} {j k parts : Json}
    (h : HoldsPair name name' j k parts) (hj : j.IsWithin depth) (hk : k.IsWithin depth) :
    parts.IsWithin (depth + 1) := by
  cases h <;> simp [Json.IsWithin, hj, hk]

/-- Each level of a type but the last takes two containers at most, and a size takes one. -/
theorem StandsIn.isWithin {t : ClType} {j : Json} (h : t.StandsIn j) {n : Nat}
    (hnesting : t.nesting ≤ n + 1) : j.IsWithin (2 * n + 1) := by
  induction h generalizing n with
  | leaf l => simp [Json.IsWithin]
  | byteArray size => exact Json.isWithin_tagged.2 (by simp [Json.IsWithin])
  | option h ih | list h ih | tuple1 h ih =>
    obtain ⟨n, rfl⟩ := exists_levels_eq_succ (Nat.le_of_succ_le_succ hnesting)
    exact Json.isWithin_tagged.2 (ih (Nat.le_of_succ_le_succ hnesting)).succ
  | boxed h ih =>
    obtain ⟨n, rfl⟩ := exists_levels_eq_succ (Nat.le_of_succ_le_succ hnesting)
    have hpart := ih (Nat.le_of_succ_le_succ hnesting)
    exact Json.isWithin_tagged.2 (by simpa [Json.IsWithin, Nat.mul_add] using hpart)
  | result _ _ h iht ihu | map _ _ h iht ihu =>
    rw [nesting] at hnesting
    obtain ⟨ht, hu⟩ := Nat.max_le.1 (Nat.le_of_succ_le_succ hnesting)
    obtain ⟨n, rfl⟩ := exists_levels_eq_succ ht
    exact Json.isWithin_tagged.2 (h.isWithin (iht ht) (ihu hu))
  | tuple2 _ _ iht ihu =>
    rw [nesting] at hnesting
    obtain ⟨ht, hu⟩ := Nat.max_le.1 (Nat.le_of_succ_le_succ hnesting)
    obtain ⟨n, rfl⟩ := exists_levels_eq_succ ht
    exact Json.isWithin_tagged.2 (by simpa [Json.IsWithin, Nat.mul_add] using ⟨iht ht, ihu hu⟩)
  | tuple3 _ _ _ iht ihu ihv =>
    rw [nesting] at hnesting
    obtain ⟨ht, huv⟩ := Nat.max_le.1 (Nat.le_of_succ_le_succ hnesting)
    obtain ⟨hu, hv⟩ := Nat.max_le.1 huv
    obtain ⟨n, rfl⟩ := exists_levels_eq_succ ht
    exact Json.isWithin_tagged.2
      (by simpa [Json.IsWithin, Nat.mul_add] using ⟨iht ht, ihu hu, ihv hv⟩)

end ClType

/-! ## Types and values in documents -/

namespace Json

/-- Pruning changes the fields of a record and not which ones they are. -/
theorem Shape.read?_prune (shape : Shape) (depth : Nat) (j : Json) :
    shape.read? (prune (depth + 1) j) =
      (shape.read? j).map (List.map (Option.map (prune depth))) := by
  cases j with
  | obj members =>
    have hany : (members.map fun member ↦ (member.1, prune depth member.2)).any
          (fun member ↦ !shape.fields.any fun field ↦ field.1 == member.1) =
        members.any fun member ↦ !shape.fields.any fun field ↦ field.1 == member.1 :=
      List.any_map
    rw [prune, read?_obj, read?_obj, hany, mapM_eq_map_mapM (fieldOf?_map _ members)]
    split <;> rfl
  | arr items => exact ofItems?_map _ shape.fields items
  | _ => rfl

/-- The object with another value under the name. -/
def replaced (j : Json) (name : String) (value : Json) : Json :=
  match j with
  | .obj members =>
    .obj (members.map fun member ↦ (member.1, if member.1 = name then value else member.2))
  | j => j

end Json

/-- The value is read from each arrangement of the tree and from each text of one. -/
structure IsReadFrom {α : Type} [JsonForm α] (j : Json) (x : α) : Prop where
  ofTree : ∀ (a : Arrangement) (source : Json.Source), ofJson? source (j.arranged a) = some x
  ofText : ∀ (a : Arrangement) (text : String), Json.ofText? text = some (j.arranged a) →
    (Json.ofDocument? text).bind (ofJson? .text) = some x

theorem IsReadFrom.ofJson?_eq {α : Type} [JsonForm α] {j : Json} {x : α} (h : IsReadFrom j x)
    (source : Json.Source) : ofJson? source j = some x := by
  have htree := h.ofTree .asWritten source
  rwa [Json.arranged_asWritten] at htree

theorem ClType.StandsIn.isReadFrom {t : ClType} {j : Json} (h : t.StandsIn j)
    (hnesting : t.nesting ≤ Limits.maxTypeDepth) : IsReadFrom j t where
  ofTree a _ := (h.arranged a).ofJson?_eq
  ofText a text htext := by
    have hwithin : (j.arranged a).IsWithin Json.maxNesting :=
      ((h.arranged a).isWithin (n := 49) hnesting).mono (by decide)
    rw [Json.ofDocument?, htext, Option.map_some, hwithin.prune_eq]
    exact (h.arranged a).ofJson?_eq

namespace ClValue

theorem isReadFrom_of_fields {v : ClValue} (hv : v.IsChecked)
    (hnesting : v.clType.nesting ≤ Limits.maxTypeDepth) {j part : Json}
    (hfields : shape.read? j = some [some part, some (.str (Text.Hex.text v.payload))])
    (hpart : v.clType.StandsIn part) : IsReadFrom j v where
  ofTree a _ := ofJson?_of_fields hv (Json.Shape.read?_arranged_of_eq a hfields)
    (hpart.arranged a).ofJson?_eq
  ofText a text htext := by
    have hwithin : (part.arranged a).IsWithin 126 :=
      ((hpart.arranged a).isWithin (n := 49) hnesting).mono (by decide)
    have hpruned := Json.Shape.read?_prune shape 126 (j.arranged a)
    rw [Json.Shape.read?_arranged_of_eq a hfields] at hpruned
    simp only [Option.map_some, List.map_cons, List.map_nil, hwithin.prune_eq,
      Json.arranged_str] at hpruned
    rw [Json.ofDocument?, htext]
    exact ofJson?_of_fields hv hpruned (hpart.arranged a).ofJson?_eq

/-- A checked value is read from any boxed form of it, whatever its parsed entry shows. -/
theorem isReadFrom_of_boxes {v : ClValue} (hv : v.IsChecked)
    (hnesting : v.clType.nesting ≤ Limits.maxTypeDepth) {j : Json} (h : Json.Boxes v.toJson j)
    (shown : Json) : IsReadFrom (j.replaced "parsed" shown) v := by
  obtain ⟨_, hmembers, rfl⟩ := h.exists_members
  obtain _ | ⟨htype, _ | ⟨hbytes, _ | ⟨_, _ | _⟩⟩⟩ := hmembers
  cases hbytes
  exact isReadFrom_of_fields hv hnesting rfl (ClType.standsIn_of_boxes htype)

end ClValue

/-- A type within the limit is read from its form, whether the parts of one-element tuples stand
bare in it or in arrays, and nothing but a spelling of the type is read as it. So is a value that
passes the check, whatever is shown beside its bytes. -/
theorem types_and_values_read_from_json :
    (∀ (t : ClType) (j : Json), t.nesting ≤ Limits.maxTypeDepth → Json.Boxes (toJson t) j →
      IsReadFrom j t) ∧
    (∀ (t : ClType) (j : Json) (source : Json.Source), ofJson? source j = some t ↔
      t.StandsIn j) ∧
    (∀ (v : ClValue) (j shown : Json), v.IsChecked → v.clType.nesting ≤ Limits.maxTypeDepth →
      Json.Boxes (toJson v) j → IsReadFrom (j.replaced "parsed" shown) v) :=
  ⟨fun _ _ hnesting h ↦ (ClType.standsIn_of_boxes h).isReadFrom hnesting,
    fun _ _ _ ↦ ⟨ClType.standsIn_of_ofJson?, ClType.StandsIn.ofJson?_eq⟩,
    fun _ _ shown hv hnesting h ↦ ClValue.isReadFrom_of_boxes hv hnesting h shown⟩

/-- A tuple in a tuple, the outer part bare and the inner one in an array; the text of a type, which
is not read from an array; and a number beside which something else is shown. -/
theorem types_and_values_read_from_json_tuples :
    ofJson? .tree (.tagged "Tuple1" (.tagged "Tuple1" (.arr [.str "U8"]))) =
      some (ClType.tuple1 (.tuple1 (.leaf .u8))) ∧
    (Json.ofDocument? "\"U8\"").bind (ofJson? .text) = some (ClType.leaf .u8) ∧
    (ofJson? .tree (.arr [.str "U8"]) : Option ClType) ≠ some (.leaf .u8) ∧
    ofJson? .tree (.obj [("cl_type", .str "U8"), ("bytes", .str "05"), ("parsed", .arr [])]) =
      some (⟨.leaf .u8, [5]⟩ : ClValue) := by
  obtain ⟨htype, hexact, hvalue⟩ := types_and_values_read_from_json
  refine ⟨?_, ?_, ?_, ?_⟩
  · have hread := htype (.tuple1 (.tuple1 (.leaf .u8)))
      (.tagged "Tuple1" (.tagged "Tuple1" (.arr [.str "U8"]))) (by decide)
      (.obj (.cons (.box (.same _)) .nil))
    exact hread.ofJson?_eq .tree
  · exact (htype (.leaf .u8) (.str "U8") (by decide) (.same _)).ofText .asWritten _ rfl
  · intro h
    exact ((hexact _ _ _).1 h).ne_arr _ rfl
  · have hread := hvalue ⟨.leaf .u8, [5]⟩ _ (.arr []) rfl (by decide) (.same _)
    exact hread.ofJson?_eq .tree

end ChainClient
