import ChainClient.Proofs.Value.Agreement
import ChainClient.Proofs.Value.Construction

/-!
# Values of unstated structure

A value of unstated structure takes all bytes that are left. The builders join the bytes of the
parts nevertheless, so that such a part takes what was meant for the parts behind it. A built
value passes the check if only its end is of unstated structure, and what passes the check is
shown, whatever the type.
-/

namespace ChainClient

open Wire (bind_of_eq_ok)

/-! ## What may be of unstated structure -/

namespace ClType

/-- A part of unstated structure, if there is one, is at the end. The parts of a list or a map
may have others behind them. -/
def opensLast : ClType → Bool
  | .leaf _ => true
  | .option t => t.opensLast
  | .list t => t.isStated
  | .byteArray _ => true
  | .result a b => a.opensLast && b.opensLast
  | .map k v => k.isStated && v.isStated
  | .tuple1 t => t.opensLast
  | .tuple2 a b => a.isStated && b.opensLast
  | .tuple3 a b c => a.isStated && b.isStated && c.opensLast

end ClType

namespace ClValue

variable {v w : ClValue}

/-! ## Built values -/

/-- A payload that was walked is shown. -/
theorem IsChecked.isSome_parsed? (h : v.IsChecked) : v.parsed?.isSome := by
  obtain ⟨value, hvalue⟩ := ClType.exists_render_of_skip (validate_eq_ok.1 h)
  rw [parsed?_eq_map, hvalue]
  rfl

theorem IsNative.isChecked (h : v.IsNative PublicKey.IsAccepted) : v.IsChecked :=
  isChecked_of_spellsIf h.spellsIf fun _ hkey ↦ hkey

/-- The last part of a pair may be of unstated structure: nothing is read behind it. -/
theorem isChecked_tuple2 {a b : ClValue} (ha : Delimits a.clType.skip a.payload)
    (hb : b.IsChecked) : (tuple2 a b).IsChecked :=
  validate_eq_ok.2 (bind_of_eq_ok (ha b.payload) (validate_eq_ok.1 hb))

theorem isChecked_tuple3 {a b c : ClValue} (ha : Delimits a.clType.skip a.payload)
    (hb : Delimits b.clType.skip b.payload) (hc : c.IsChecked) : (tuple3 a b c).IsChecked := by
  have hfirst := ha (b.payload ++ c.payload)
  rw [← List.append_assoc] at hfirst
  have hothers := bind_of_eq_ok (hb c.payload) (validate_eq_ok.1 hc)
  exact validate_eq_ok.2 (bind_of_eq_ok hfirst hothers)

/-- A value of stated type ends where its payload does, whatever follows. -/
theorem Constructed.delimits (hv : v.Constructed PublicKey.IsAccepted) (ht : v.clType.isStated) :
    Delimits v.clType.skip v.payload := (hv.spellsIf ht).delimits fun _ hkey ↦ hkey

theorem Constructed.isChecked_of_isStated (hv : v.Constructed PublicKey.IsAccepted)
    (ht : v.clType.isStated) : v.IsChecked :=
  isChecked_of_spellsIf (hv.spellsIf ht) fun _ hkey ↦ hkey

/-- A part that has another behind it is of stated structure, so its end is found. -/
theorem Constructed.isChecked (hv : v.Constructed PublicKey.IsAccepted) (ht : v.clType.opensLast) :
    v.IsChecked := by
  induction hv with
  | ofNative h hx => exact (isNative_of_ofNative h hx).isChecked
  | ofInteger h => exact (isNative_of_ofInteger h).isChecked
  | ofDecimal h => exact (isNative_of_ofDecimal h).isChecked
  | unit => rfl
  | @option _ item _ _ h ih =>
    cases item with
    | none =>
      obtain rfl := Except.ok.inj h
      rfl
    | some v =>
      obtain ⟨rfl, rfl⟩ := option_some_eq_ok.1 h
      exact ih v rfl ht
  | list hitems h _ =>
    apply (Constructed.list hitems h).isChecked_of_isStated
    rw [clType_of_list h] at ht ⊢
    exact ht
  | byteArray h =>
    obtain ⟨-, rfl⟩ := byteArray_eq_ok.1 h
    exact (Constructed.byteArray h).isChecked_of_isStated rfl
  | map hkeys hvalues h _ _ =>
    apply (Constructed.map hkeys hvalues h).isChecked_of_isStated
    rw [clType_of_map h] at ht ⊢
    exact ht
  | resultOk _ ih => exact ih (Bool.and_eq_true_iff.1 ht).1
  | resultErr _ ih => exact ih (Bool.and_eq_true_iff.1 ht).2
  | tuple1 _ ih => exact ih ht
  | tuple2 ha _ _ ihb =>
    obtain ⟨hta, htb⟩ := Bool.and_eq_true_iff.1 ht
    exact isChecked_tuple2 (ha.delimits hta) (ihb htb)
  | tuple3 ha hb _ _ _ ihc =>
    obtain ⟨htab, htc⟩ := Bool.and_eq_true_iff.1 ht
    obtain ⟨hta, htb⟩ := Bool.and_eq_true_iff.1 htab
    exact isChecked_tuple3 (ha.delimits hta) (hb.delimits htb) (ihc htc)
  | ofComponents h => exact isChecked_of_ofComponents h
  | read h => exact isChecked_of_read h
  | ofJson? h => exact isChecked_of_ofJson? h

/-- Built values pass the check and are shown, if at most their end is of unstated structure. -/
theorem Constructed.checked_and_parsed (hv : v.Constructed PublicKey.IsAccepted)
    (ht : v.clType.opensLast) : v.clType.validate v.payload = .ok () ∧ v.parsed?.isSome :=
  ⟨hv.isChecked ht, (hv.isChecked ht).isSome_parsed?⟩

/-- One byte of unstated structure. -/
def blob : ClValue := ⟨.leaf .any, [1]⟩

theorem constructed_blob {accepts : PublicKey → Prop} : blob.Constructed accepts := by
  have h : ofComponents (.leaf .any) [1] = .ok blob := rfl
  exact .ofComponents h

/-- A pair that ends with a byte of unstated structure passes the check and is shown. -/
theorem checked_and_parsed_table_blob :
    (tuple2 table blob).Constructed PublicKey.IsAccepted ∧
      (tuple2 table blob).clType.validate [1, 0, 0, 0, 5, 1, 5, 1] = .ok () ∧
      (tuple2 table blob).parsed?.isSome := by
  have hv : (tuple2 table blob).Constructed PublicKey.IsAccepted :=
    .tuple2 constructed_table constructed_blob
  exact ⟨hv, hv.checked_and_parsed rfl⟩

/-- Behind a part of unstated structure, there must be nothing to read. -/
theorem isChecked_tuple2_any_iff {a b : ClValue} (ha : a.clType = .leaf .any) :
    (tuple2 a b).IsChecked ↔ b.clType.skip [] = .ok [] := by
  rw [IsChecked, validate_eq_ok, tuple2, ha]
  exact Iff.rfl

/-- A part of unstated structure in front takes all bytes, and the number behind it finds none. -/
theorem not_forall_checked_and_parsed :
    ¬∀ v : ClValue, v.Constructed PublicKey.IsAccepted →
      v.clType.validate v.payload = .ok () ∧ v.parsed?.isSome := by
  intro h
  have hv : (tuple2 blob five).Constructed PublicKey.IsAccepted :=
    .tuple2 constructed_blob constructed_five
  have hskip := (isChecked_tuple2_any_iff rfl).1 (h (tuple2 blob five) hv).1
  exact nomatch hskip

end ClValue

end ChainClient
