import ChainClient.Proofs.Value.Builders

/-!
# How composites are shown

A composite is shown as its parts are, put together in the order in which they were given. The
parts are separate values with bytes of their own, whereas a composite is shown from the joined
bytes; that the walk finds the parts again is due to the grammar, in which each part ends where
it ends whatever follows. A part that cannot be shown leaves nothing to show of the composite.
-/

namespace ChainClient.ClValue

variable {v w : ClValue}

/-- The parsed view is what is shown of the payload; bytes left over do not matter. -/
theorem parsed?_eq_map (v : ClValue) :
    v.parsed? = (v.clType.render v.payload).toOption.map Prod.fst := by
  unfold parsed?
  cases v.clType.render v.payload <;> rfl

/-- A spelled payload is parsed as the grammar shows it. -/
theorem parsed?_eq_of_spells {shown : Option Json} (h : v.clType.Spells v.payload shown) :
    v.parsed? = shown := by
  have hrender := h.render []
  rw [List.append_nil] at hrender
  rw [parsed?_eq_map, hrender]
  cases shown <;> rfl

/-- The bytes belong to the grammar of the type, which shows them as the walk does. -/
def IsSpelled (v : ClValue) : Prop := v.clType.Spells v.payload v.parsed?

theorem spellsIf_iff {P : Prop} :
    v.clType.SpellsIf P v.payload ↔ v.IsSpelled ∧ (P → v.parsed?.isSome) := by
  constructor
  · rintro ⟨shown, hspells, hshown⟩
    rw [IsSpelled, parsed?_eq_of_spells hspells]
    exact ⟨hspells, hshown⟩
  · rintro ⟨hspells, hshown⟩
    exact ⟨v.parsed?, hspells, hshown⟩

/-! ## Lists and maps -/

/-- The values in one array. -/
def parsedAll? (vs : List ClValue) : Option Json := (vs.mapM parsed?).map .arr

/-- The view of an entry needs the views of its key and its value. -/
def parsedPair? (entry : ClValue × ClValue) : Option Json :=
  entry.1.parsed?.bind fun key ↦ entry.2.parsed?.map fun value ↦
    .obj [("key", key), ("value", value)]

/-- The view of a map needs the views of all entries. -/
def parsedPairs? (entries : List (ClValue × ClValue)) : Option Json :=
  (entries.mapM parsedPair?).map .arr

section Collections

variable {P : Prop} {element key value : ClType} {items : List ClValue}
  {entries : List (ClValue × ClValue)}

theorem spells_of_list (h : list element items = .ok w) (hitems : ∀ v ∈ items, v.IsSpelled) :
    w.clType.Spells w.payload (parsedAll? items) := by
  obtain ⟨count, hcount, htypes, hbytes, rfl⟩ := list_eq_ok.1 h
  let part (v : ClValue) : Bytes × Option Json := (v.payload, v.parsed?)
  have hparts : ∀ p ∈ items.map part, element.Spells p.1 p.2 := by
    refine List.forall_mem_map.2 fun v hv ↦ ?_
    rw [← htypes v hv]
    exact hitems v hv
  rw [← List.length_map part] at hcount hbytes
  have hspells := ClType.Spells.list hcount hparts fun hlong ↦
    List.forall_mem_map.2 (hbytes hlong)
  rw [List.flatMap_map, List.mapM_map] at hspells
  exact hspells

theorem spells_of_map (h : map key value entries = .ok w)
    (hkeys : ∀ entry ∈ entries, entry.1.IsSpelled)
    (hvalues : ∀ entry ∈ entries, entry.2.IsSpelled) :
    w.clType.Spells w.payload (parsedPairs? entries) := by
  obtain ⟨count, hcount, htypes, hnodup, rfl⟩ := of_map h
  let parts (entry : ClValue × ClValue) : EntryParts :=
    ((entry.1.payload, entry.1.parsed?), (entry.2.payload, entry.2.parsed?))
  have hkeys' : ∀ p ∈ entries.map parts, key.Spells p.1.1 p.1.2 := by
    refine List.forall_mem_map.2 fun entry hentry ↦ ?_
    rw [← (htypes entry hentry).1]
    exact hkeys entry hentry
  have hvalues' : ∀ p ∈ entries.map parts, value.Spells p.2.1 p.2.2 := by
    refine List.forall_mem_map.2 fun entry hentry ↦ ?_
    rw [← (htypes entry hentry).2]
    exact hvalues entry hentry
  have hnodup' : ((entries.map parts).map (·.1.1)).Nodup := by rwa [List.map_map]
  rw [← List.length_map parts] at hcount
  have hspells := ClType.Spells.map hcount hkeys' hvalues' hnodup'
  rw [List.flatMap_map, List.mapM_map] at hspells
  exact hspells

theorem spellsIf_of_list (h : list element items = .ok w)
    (hitems : ∀ v ∈ items, v.clType.SpellsIf P v.payload) : w.clType.SpellsIf P w.payload := by
  refine ⟨_, spells_of_list h fun v hv ↦ (spellsIf_iff.1 (hitems v hv)).1, fun hP ↦ ?_⟩
  rw [parsedAll?, Option.isSome_map]
  exact isSome_mapM_iff.2 fun v hv ↦ (spellsIf_iff.1 (hitems v hv)).2 hP

theorem spellsIf_of_map (h : map key value entries = .ok w)
    (hkeys : ∀ entry ∈ entries, entry.1.clType.SpellsIf P entry.1.payload)
    (hvalues : ∀ entry ∈ entries, entry.2.clType.SpellsIf P entry.2.payload) :
    w.clType.SpellsIf P w.payload := by
  refine ⟨_, spells_of_map h (fun entry hentry ↦ (spellsIf_iff.1 (hkeys entry hentry)).1)
    fun entry hentry ↦ (spellsIf_iff.1 (hvalues entry hentry)).1, fun hP ↦ ?_⟩
  rw [parsedPairs?, Option.isSome_map]
  refine isSome_mapM_iff.2 fun entry hentry ↦ ?_
  have hkey := (spellsIf_iff.1 (hkeys entry hentry)).2 hP
  have hvalue := (spellsIf_iff.1 (hvalues entry hentry)).2 hP
  simp [parsedPair?, Option.isSome_bind, hkey, hvalue]

end Collections

/-! ## Other composites -/

section Tuples

variable {a b c : ClValue}

end Tuples

end ChainClient.ClValue
