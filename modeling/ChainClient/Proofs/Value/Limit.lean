import ChainClient.Json.Reader
import ChainClient.Proofs.Json.Nesting
import ChainClient.Proofs.Value.Arguments
import ChainClient.Proofs.Value.Json
import ChainClient.Proofs.Value.JsonSpelling
import ChainClient.Proofs.Value.TypeName

/-!
# The limit on nesting

The binary reader and the reader of names count the levels of a type and stop at the limit. What is
written of a type beyond the limit is refused for its depth and for nothing else, since each part
in front of the deep one is read. The reader of JSON does not count, so that it alone lets types
beyond the limit in; those do not come back from their binary form.
-/

namespace ChainClient

namespace ClType

/-- The parts in front of the deep one are read, and then the count runs out. -/
theorem readWithin_bytes_eq_tooDeep {levels : Nat} {t : ClType} (h : levels < t.nesting)
    (rest : Bytes) : readWithin levels (t.bytes ++ rest) = .error .tooDeep := by
  induction t generalizing levels rest with
  | leaf l | byteArray n =>
    obtain rfl := Nat.lt_one_iff.1 h
    rfl
  | option a ih | list a ih | tuple1 a ih =>
    cases levels with
    | zero => rfl
    | succ levels => simp [bytes, readWithin, ih (Nat.lt_of_succ_lt_succ h)]
  | result a b iha ihb | map a b iha ihb | tuple2 a b iha ihb =>
    cases levels with
    | zero => rfl
    | succ levels =>
      rcases Nat.lt_or_ge levels a.nesting with ha | ha
      · simp [bytes, readWithin, iha ha]
      · have hb : levels < b.nesting := by
          rw [nesting] at h
          omega
        simp [bytes, readWithin, readWithin_bytes ha, ihb hb]
  | tuple3 a b c iha ihb ihc =>
    cases levels with
    | zero => rfl
    | succ levels =>
      rcases Nat.lt_or_ge levels a.nesting with ha | ha
      · simp [bytes, readWithin, iha ha]
      · rcases Nat.lt_or_ge levels b.nesting with hb | hb
        · simp [bytes, readWithin, readWithin_bytes ha, ihb hb]
        · have hc : levels < c.nesting := by
            rw [nesting] at h
            omega
          simp [bytes, readWithin, readWithin_bytes ha, readWithin_bytes hb, ihc hc]

/-- The reader accepts exactly the written types within the limit. -/
theorem read_eq_ok {bytes rest : Bytes} {t : ClType} : Wire.read bytes = .ok (t, rest) ↔
    (∃ front, Wire.write t = .ok front ∧ bytes = front ++ rest) ∧
      t.nesting ≤ Limits.maxTypeDepth := by
  constructor
  · intro h
    obtain ⟨hnesting, hbytes⟩ := readWithin_eq_ok.1 h
    exact ⟨⟨t.bytes, rfl, hbytes⟩, hnesting⟩
  · rintro ⟨⟨front, hfront, rfl⟩, hnesting⟩
    obtain rfl := Except.ok.inj hfront
    exact readWithin_bytes hnesting rest

/-- A deeper type is refused for its depth, not as malformed. -/
theorem read_eq_tooDeep {t : ClType} (h : Limits.maxTypeDepth < t.nesting) (rest : Bytes) :
    (Wire.read (t.bytes ++ rest) : Except WireError (ClType × Bytes)) = .error .tooDeep :=
  readWithin_bytes_eq_tooDeep h rest

theorem readAll_eq_tooDeep {t : ClType} (h : Limits.maxTypeDepth < t.nesting) :
    (Wire.readAll t.bytes : Except WireError ClType) = .error .tooDeep := by
  have hread := read_eq_tooDeep h []
  rw [List.append_nil] at hread
  rw [Wire.readAll, hread]
  rfl

theorem readAll_bytes_eq_ok_iff (t : ClType) :
    Wire.readAll t.bytes = .ok t ↔ t.nesting ≤ Limits.maxTypeDepth := by
  rw [Wire.readAll_eq_ok, read_eq_ok]
  exact and_iff_right ⟨t.bytes, rfl, (List.append_nil _).symm⟩

end ClType

/-- The binary readers accept the written forms of types within the limit, and of values of such
types that pass the check. They refuse a type beyond the limit for its depth. -/
theorem types_and_values_exact :
    (∀ (bytes rest : Bytes) (t : ClType), Wire.read bytes = .ok (t, rest) ↔
      (∃ front, Wire.write t = .ok front ∧ bytes = front ++ rest) ∧
        t.nesting ≤ Limits.maxTypeDepth) ∧
    (∀ t : ClType, Limits.maxTypeDepth < t.nesting → ∃ bytes, Wire.write t = .ok bytes ∧
      (Wire.readAll bytes : Except WireError ClType) = .error .tooDeep ∧
      ∀ rest, (Wire.read (bytes ++ rest) : Except WireError (ClType × Bytes)) = .error .tooDeep) ∧
    (∀ (bytes rest : Bytes) (v : ClValue), Wire.read bytes = .ok (v, rest) ↔
      (∃ front, Wire.write v = .ok front ∧ bytes = front ++ rest) ∧
        v.clType.nesting ≤ Limits.maxTypeDepth ∧ v.clType.validate v.payload = .ok ()) := by
  refine ⟨fun bytes rest t ↦ ClType.read_eq_ok, fun t h ↦ ?_, fun bytes rest v ↦ ?_⟩
  · exact ⟨t.bytes, rfl, ClType.readAll_eq_tooDeep h, ClType.read_eq_tooDeep h⟩
  · exact ClValue.read_eq_ok.trans and_comm

/-- A short type with bytes behind it, a type one level too deep and a value of a number. -/
theorem types_and_values_exact_options :
    Wire.read ([13, 9] ++ [7]) = .ok (ClType.option (.leaf .unit), [7]) ∧
    (Wire.readAll (Nat.repeat ClType.option 50 (.leaf .unit)).bytes : Except WireError ClType) =
      .error .tooDeep ∧
    Wire.read ([1, 0, 0, 0, 5, 3] ++ [7]) = .ok ((⟨.leaf .u8, [5]⟩ : ClValue), [7]) := by
  obtain ⟨htype, hdeep, hvalue⟩ := types_and_values_exact
  refine ⟨?_, ?_, ?_⟩
  · exact (htype _ _ _).2 ⟨⟨[13, 9], rfl, rfl⟩, by decide⟩
  · obtain ⟨bytes, hw, hread, -⟩ := hdeep (Nat.repeat ClType.option 50 (.leaf .unit)) (by decide)
    obtain rfl := Except.ok.inj hw
    exact hread
  · exact (hvalue _ _ _).2 ⟨⟨[1, 0, 0, 0, 5, 3], rfl, rfl⟩, by decide, rfl⟩

/-! ## Types in JSON -/

namespace ClType

/-- The levels of the type that stands in the value, if one does: an object with one member is a
level above the parts that it holds. -/
def jsonLevels : Json → Nat
  | .str _ => 1
  | .obj [(_, .arr [a])] => jsonLevels a + 1
  | .obj [(_, .arr [a, b])] => max (jsonLevels a) (jsonLevels b) + 1
  | .obj [(_, .arr [a, b, c])] => max (jsonLevels a) (max (jsonLevels b) (jsonLevels c)) + 1
  | .obj [(_, .obj [(_, a), (_, b)])] => max (jsonLevels a) (jsonLevels b) + 1
  | .obj [(_, content)] => jsonLevels content + 1
  | _ => 0

namespace StandsIn

variable {t : ClType} {j : Json}

/-- A part that stands bare is a level below. -/
theorem jsonLevels_bare (h : t.StandsIn j) (name : String) :
    jsonLevels (.tagged name j) = jsonLevels j + 1 := by
  cases h <;> rfl

theorem nesting_eq (h : t.StandsIn j) : t.nesting = jsonLevels j := by
  induction h with
  | leaf l | byteArray size => rfl
  | option h ih | list h ih | tuple1 h ih => rw [h.jsonLevels_bare, nesting, ih]
  | boxed h ih => rw [Json.tagged, jsonLevels, nesting, ih]
  | result _ _ h iht ihu | map _ _ h iht ihu =>
    cases h with
    | named | items => rw [Json.tagged, jsonLevels, nesting, iht, ihu]
    | swapped => rw [Json.tagged, jsonLevels, nesting, iht, ihu, Nat.max_comm]
  | tuple2 _ _ iht ihu => rw [Json.tagged, jsonLevels, nesting, iht, ihu]
  | tuple3 _ _ _ iht ihu ihv => rw [Json.tagged, jsonLevels, nesting, iht, ihu, ihv]

end StandsIn

/-- What is read from JSON is as deep as the JSON says; nothing stops it at the limit. -/
theorem nesting_of_ofJson? {j : Json} {t : ClType} (h : ofJson? j = some t) :
    t.nesting = jsonLevels j :=
  (standsIn_of_ofJson? h).nesting_eq

theorem jsonLevels_toJson (t : ClType) : jsonLevels (ChainClient.toJson t) = t.nesting :=
  (nesting_of_ofJson? (t.readsBack.ofJson?_toJson .text)).symm

/-- Each level of a type but the last takes a container. -/
theorem jsonLevels_le {depth : Nat} {j : Json} (h : j.IsWithin depth) :
    jsonLevels j ≤ depth + 1 := by
  fun_induction jsonLevels j generalizing depth with
  | case1 | case7 => omega
  | case2 | case3 | case4 =>
    obtain ⟨below, rfl, hcontent⟩ := h.content
    have hitems := hcontent.items
    simp only [List.forall_mem_cons] at hitems
    grind
  | case5 =>
    obtain ⟨below, rfl, hcontent⟩ := h.content
    have hmembers := hcontent.members
    simp only [List.forall_mem_cons] at hmembers
    grind
  | case6 _ content _ _ _ _ ih =>
    obtain ⟨below, rfl, hcontent⟩ := h.content
    exact Nat.succ_le_succ (ih hcontent)

/-- Every nesting is accepted, from a text and from a tree of values. -/
theorem not_forall_nesting_le_of_ofJson? :
    ¬ ∀ (source : Json.Source) (j : Json) (t : ClType),
      ChainClient.ofJson? source j = some t → t.nesting ≤ Limits.maxTypeDepth := by
  intro h
  have hread := (readsBack (Nat.repeat ClType.option 50 (.leaf .unit))).ofJson?_toJson .text
  exact absurd (h _ _ _ hread) (by decide)

end ClType

namespace ClValue

/-- Where the type of a value stands. -/
def typePart? (j : Json) : Option Json := do (← (← shape.read? j).head?)

/-- A value that is read has a type part that is read. -/
theorem exists_typePart? {j : Json} {v : ClValue} (h : ofJson? j = some v) :
    ∃ part, typePart? j = some part ∧ ClType.ofJson? part = some v.clType := by
  unfold ofJson? at h
  split at h
  case h_1 part bytes hfields =>
    obtain ⟨t, ht, h⟩ := Option.bind_eq_some_iff.1 h
    obtain ⟨text, -, h⟩ := Option.bind_eq_some_iff.1 h
    obtain ⟨payload, -, h⟩ := Option.bind_eq_some_iff.1 h
    obtain ⟨-, rfl⟩ := ofComponents_eq_ok.1 (Wire.eq_ok_of_toOption h)
    exact ⟨part, by rw [typePart?, hfields]; rfl, ht⟩
  case h_2 => cases h

end ClValue

/-- No type beyond the limit comes out of the binary form, alone or with a value, or out of a name.
A type out of JSON, alone or with a value, is within the limit if the levels that stand there are,
and not otherwise; only then is it read back from its bytes. Every type comes out that was put in.
The text of a document bounds the levels by the containers that it may hold. -/
theorem limit_kept_outside_json (source : Json.Source) (bytes rest : Bytes)
    (name document : String) (j : Json) (t : ClType) (v : ClValue) :
    (Wire.read bytes = .ok (t, rest) → t.nesting ≤ Limits.maxTypeDepth) ∧
    (Wire.read bytes = .ok (v, rest) → v.clType.nesting ≤ Limits.maxTypeDepth) ∧
    (ClType.ofName name = .ok t → t.nesting ≤ Limits.maxTypeDepth) ∧
    (ofJson? source j = some t →
      (t.nesting ≤ Limits.maxTypeDepth ↔ ClType.jsonLevels j ≤ Limits.maxTypeDepth) ∧
      (Wire.readAll t.bytes = .ok t ↔ ClType.jsonLevels j ≤ Limits.maxTypeDepth)) ∧
    (ofJson? source j = some v → ∃ part, ClValue.typePart? j = some part ∧
      (v.clType.nesting ≤ Limits.maxTypeDepth ↔ ClType.jsonLevels part ≤ Limits.maxTypeDepth)) ∧
    (Json.ofDocument? document = some j → ofJson? source j = some t →
      t.nesting ≤ Json.maxNesting + 1) ∧
    ofJson? source (toJson t) = some t ∧
    (v.IsChecked → ofJson? source (toJson v) = some v) := by
  refine ⟨fun h ↦ (ClType.read_eq_ok.1 h).2, fun h ↦ (ClValue.read_eq_ok.1 h).1.1,
    fun h ↦ (ClType.ofName_eq_ok.1 h).1, fun h ↦ ?_, fun h ↦ ?_, fun hdocument h ↦ ?_,
    t.readsBack.ofJson?_toJson source, fun h ↦ (ClValue.readsBack h).ofJson?_toJson source⟩
  · rw [ClType.readAll_bytes_eq_ok_iff, ClType.nesting_of_ofJson? h]
    exact ⟨Iff.rfl, Iff.rfl⟩
  · obtain ⟨part, hpart, htype⟩ := ClValue.exists_typePart? h
    refine ⟨part, hpart, ?_⟩
    rw [ClType.nesting_of_ofJson? htype]
  · obtain ⟨whole, -, rfl⟩ := Option.map_eq_some_iff.1 hdocument
    rw [ClType.nesting_of_ofJson? h]
    exact ClType.jsonLevels_le (Json.isWithin_prune _ whole)

/-- A leaf and a number within the limit, and fifty options around a leaf, which bytes do not give
back. -/
theorem limit_kept_outside_json_options :
    Wire.readAll [9] = .ok (ClType.leaf .unit) ∧
    (ClType.leaf .unit).nesting ≤ Json.maxNesting + 1 ∧
    (⟨.leaf .u8, [5]⟩ : ClValue).clType.nesting ≤ Limits.maxTypeDepth ∧
    ofJson? .text (toJson (⟨.leaf .u8, [5]⟩ : ClValue)) = some (⟨.leaf .u8, [5]⟩ : ClValue) ∧
    Wire.readAll (Nat.repeat ClType.option 50 (.leaf .unit)).bytes ≠
      .ok (Nat.repeat ClType.option 50 (.leaf .unit)) := by
  obtain ⟨-, -, -, htype, -, hdocument, hback, -⟩ :=
    limit_kept_outside_json .text [] [] "" "\"Unit\"" (.str "Unit") (.leaf .unit)
      ⟨.leaf .u8, [5]⟩
  obtain ⟨-, hvalue, -, -, -, -, -, hvalueBack⟩ :=
    limit_kept_outside_json .text [1, 0, 0, 0, 5, 3] [] "" "" .null (.leaf .u8) ⟨.leaf .u8, [5]⟩
  obtain ⟨-, -, -, hdeep, -, -, hdeepBack, -⟩ :=
    limit_kept_outside_json .text [] [] "" "" (toJson (Nat.repeat ClType.option 50 (.leaf .unit)))
      (Nat.repeat ClType.option 50 (.leaf .unit)) ⟨.leaf .u8, [5]⟩
  refine ⟨(htype hback).2.2 (by decide), hdocument rfl hback, hvalue rfl, hvalueBack rfl, ?_⟩
  refine mt (hdeep hdeepBack).2.1 ?_
  rw [ClType.jsonLevels_toJson]
  decide

end ChainClient
