import ChainClient.Proofs.Value.Typed

/-!
# Keys of described maps

The walk and the builder of maps compare keys by their bytes, whereas the typed reader compares
what it has read. Different bytes are read as different keys if each key has one written form.
This is so for every type without maps. The entries of a map however are read in any order, so
where keys are maps, one key may occur twice in different orders: such a map passes the walk,
and the typed reader refuses it.
-/

namespace ChainClient

/-! ## Entries in bytes -/

theorem Native.IsDescribedBy.isStated {t : Native} {clType : ClType}
    (ht : t.IsDescribedBy clType) : clType.isStated := by
  induction ht with
  | @scalar s _ hs => cases s <;> cases hs <;> rfl
  | byteArray => rfl
  | option _ ih | list _ ih | tuple1 _ ih => exact ih
  | result _ _ iha ihb | map _ _ iha ihb | tuple2 _ _ iha ihb =>
    exact Bool.and_eq_true_iff.2 ⟨iha, ihb⟩
  | tuple3 _ _ _ iha ihb ihc =>
    exact Bool.and_eq_true_iff.2 ⟨Bool.and_eq_true_iff.2 ⟨iha, ihb⟩, ihc⟩

namespace ClType

variable {key value : ClType}

/-- The bytes are a count and as many entries, and the walk finds where each key and each value
ends. -/
structure IsSplit (key value : ClType) (bytes : Bytes) (entries : List (Bytes × Bytes)) :
    Prop where
  delimits : ∀ entry ∈ entries, Delimits key.skip entry.1 ∧ Delimits value.skip entry.2
  exists_count : ∃ count, Wire.writeCount entries.length = .ok count ∧
    bytes = count ++ entries.flatMap fun entry ↦ entry.1 ++ entry.2

/-- The walk over a map takes entries whose keys differ in their bytes. -/
theorem exists_isSplit (hkey : key.isStated) (hvalue : value.isStated) {bytes : Bytes}
    (h : (map key value).validate bytes = .ok ()) :
    ∃ entries, IsSplit key value bytes entries ∧ (entries.map (·.1)).Nodup := by
  obtain ⟨⟨n, middle⟩, hn, hentries⟩ := Wire.bind_eq_ok.1 (ClValue.validate_eq_ok.1 h)
  obtain ⟨count, hcount, rfl⟩ := Wire.readCount_eq_ok.1 hn
  obtain ⟨entries, rfl, hkeys, hvalues, -, hnodup, rfl⟩ :=
    exists_entries_of_skipEntries (skipsOnly_spellsIf hkey) (skipsOnly_spellsIf hvalue) hentries
  refine ⟨entries, ⟨fun entry hentry ↦ ?_, count, hcount, by rw [List.append_nil]⟩, hnodup⟩
  exact ⟨(hkeys entry hentry).delimits trivial, (hvalues entry hentry).delimits trivial⟩

end ClType

/-- A map that is built of checked parts is checked. -/
theorem ClValue.isChecked_of_map {key value : ClType} {entries : List (ClValue × ClValue)}
    {w : ClValue} (h : map key value entries = .ok w) (hkey : key.isStated)
    (hvalue : value.isStated)
    (hparts : ∀ entry ∈ entries, entry.1.IsChecked ∧ entry.2.IsChecked) : w.IsChecked := by
  obtain ⟨-, -, htypes, -⟩ := of_map h
  have hspells : w.clType.SpellsIf True w.payload := by
    refine spellsIf_of_map h (fun entry hentry ↦ ?_) fun entry hentry ↦ ?_
    · apply (hparts entry hentry).1.spellsIf
      rwa [(htypes entry hentry).1]
    · apply (hparts entry hentry).2.spellsIf
      rwa [(htypes entry hentry).2]
  exact isChecked_of_spellsIf hspells trivial

namespace Native

variable {k v : Native} {key value : ClType}

/-! ## Different keys -/

/-- Those of the bytes that are values of the type are different values. -/
def ReadApart (t : Native) (fronts : List Bytes) : Prop :=
  fronts.Pairwise fun front front' ↦ ∀ x y : t.Value,
    Wire.readAll front = .ok x → Wire.readAll front' = .ok y → x ≠ y

/-- A value without maps is read from one written form only. -/
theorem readApart_of_nodup {t : Native} (ht : t.isMapFree) {fronts : List Bytes}
    (h : fronts.Nodup) : t.ReadApart fronts := by
  have := t.canonical ht
  refine h.imp fun {front front'} hne x y hx hy heq ↦ hne ?_
  subst heq
  exact Except.ok.inj ((Wire.write_of_readAll hx).symm.trans (Wire.write_of_readAll hy))

/-- If no key holds a map then the keys of a map that passes the walk, and of one that is built,
are different values, and the typed reader does not refuse such a map. -/
theorem keys_differ (hk : k.clType? = some key) (hv : v.clType? = some value)
    (hfree : k.isMapFree) :
    (∀ payload, (ClType.map key value).validate payload = .ok () →
      (∃ entries, ClType.IsSplit key value payload entries ∧
        (∀ entry ∈ entries, ∃ x : k.Value, Wire.readAll entry.1 = .ok x) ∧
          k.ReadApart (entries.map (·.1))) ∧
      (v.hasMapFreeKeys → ∃ m : (map k v).Value, Wire.readAll payload = .ok m)) ∧
    (∀ entries w, ClValue.map key value entries = .ok w →
      k.ReadApart (entries.map (·.1.payload)) ∧
      (v.hasMapFreeKeys → (∀ entry ∈ entries, entry.1.IsChecked ∧ entry.2.IsChecked) →
        ∃ m : (map k v).Value, Wire.readAll w.payload = .ok m)) := by
  have hkey := (isDescribedBy_of_clType? hk).isStated
  have hvalue := (isDescribedBy_of_clType? hv).isStated
  have hmap : (map k v).clType? = some (.map key value) := by simp [clType?, hk, hv]
  have hread (hkeys : v.hasMapFreeKeys) {bytes : Bytes}
      (h : (ClType.map key value).validate bytes = .ok ()) :
      ∃ m : (map k v).Value, Wire.readAll bytes = .ok m :=
    exists_readAll_of_validate hmap (Bool.and_eq_true_iff.2 ⟨hfree, hkeys⟩) h
  refine ⟨fun payload h ↦ ⟨?_, fun hkeys ↦ hread hkeys h⟩, fun entries w h ↦ ⟨?_, ?_⟩⟩
  · obtain ⟨entries, hsplit, hnodup⟩ := ClType.exists_isSplit hkey hvalue h
    refine ⟨entries, hsplit, fun entry hentry ↦ ?_, readApart_of_nodup hfree hnodup⟩
    exact exists_readAll_of_validate hk (hasMapFreeKeys_of_isMapFree hfree)
      (ClValue.validate_of_delimits (hsplit.delimits entry hentry).1)
  · obtain ⟨-, -, -, hnodup, -⟩ := ClValue.of_map h
    exact readApart_of_nodup hfree hnodup
  · intro hkeys hparts
    have hchecked := ClValue.isChecked_of_map h hkey hvalue hparts
    rw [ClValue.IsChecked, ClValue.clType_of_map h] at hchecked
    exact hread hkeys hchecked

/-- A list of optional numbers, for keys of several lengths. -/
def optionals : Native := .list (.option (.scalar .u8))

/-- Flags for the list of five and nothing, and for the empty list. -/
def twoFlags : Bytes := [2, 0, 0, 0] ++ ([2, 0, 0, 0, 1, 5, 0] ++ [1]) ++ ([0, 0, 0, 0] ++ [1])

/-- Two lists of optional numbers as keys, each with a flag: the walk and the typed reader accept
both. -/
theorem keys_differ_twoFlags : ∃ key value m,
    optionals.clType? = some key ∧ (scalar .bool).clType? = some value ∧ optionals.isMapFree ∧
      (scalar .bool).hasMapFreeKeys ∧ (ClType.map key value).validate twoFlags = .ok () ∧
        (Wire.readAll twoFlags : Except WireError (map optionals (scalar .bool)).Value) =
          .ok m := by
  have hdiffer := keys_differ (k := optionals) (v := scalar .bool) rfl rfl rfl
  obtain ⟨m, hm⟩ := (hdiffer.1 twoFlags rfl).2 rfl
  exact ⟨_, _, m, rfl, rfl, rfl, rfl, rfl, hm⟩

/-- Two entries with one key, a map whose own entries are listed in both orders. -/
def repeatedKey : Bytes :=
  [2, 0, 0, 0] ++ ([2, 0, 0, 0, 1, 10, 2, 20] ++ [5]) ++ ([2, 0, 0, 0, 2, 20, 1, 10] ++ [6])

/-- Where keys are maps, the walk passes a repeated key that the typed reader finds. -/
theorem not_forall_keys_differ :
    ¬∀ (k v : Native) (key value : ClType), k.clType? = some key → v.clType? = some value →
      ∀ payload, (ClType.map key value).validate payload = .ok () →
        (Wire.readAll payload : Except WireError (map k v).Value) ≠
          .error (.malformed .duplicateMapKey) := by
  intro h
  exact h (.map (.scalar .u8) (.scalar .u8)) (.scalar .u8) _ _ rfl rfl repeatedKey rfl rfl

end Native

end ChainClient
