import ChainClient.Proofs.Value.Rendering

/-!
# Typed values that can be built

A typed value is built from native values, from checked bytes, by a reader, or from values that
were built before. If no part of its type is of unstated structure then its bytes belong to the
grammar of the type, by induction on how it was built, and this is all that a reader asks of
them. What a reader asks of the type besides, no builder checks: a type may nest deeper than
the reader's limit.
-/

namespace ChainClient.ClValue

variable {accepts : PublicKey → Prop} {v w : ClValue}

/-! ## Construction -/

/-- The value is built by finitely many builders and readers, from native values whose public
keys are accepted. -/
inductive Constructed (accepts : PublicKey → Prop) : ClValue → Prop
  | ofNative {clType : ClType} {t : Native} {ht : t.clType? = some clType} {x : t.Value}
    {v : ClValue} (h : ofNative t ht x = .ok v) (hx : t.AllKeys accepts x) : Constructed accepts v
  | ofInteger {clType : ClType} {n : Int} {v : ClValue} (h : ofInteger clType n = .ok v) :
    Constructed accepts v
  | ofDecimal {clType : ClType} {text : String} {v : ClValue} (h : ofDecimal clType text = .ok v) :
    Constructed accepts v
  | unit : Constructed accepts unit
  | option {inner : ClType} {item : Option ClValue} {w : ClValue}
    (hitem : ∀ v ∈ item, Constructed accepts v) (h : option inner item = .ok w) :
    Constructed accepts w
  | list {element : ClType} {items : List ClValue} {w : ClValue}
    (hitems : ∀ v ∈ items, Constructed accepts v) (h : list element items = .ok w) :
    Constructed accepts w
  | byteArray {bytes : Bytes} {w : ClValue} (h : byteArray bytes = .ok w) : Constructed accepts w
  | map {key value : ClType} {entries : List (ClValue × ClValue)} {w : ClValue}
    (hkeys : ∀ entry ∈ entries, Constructed accepts entry.1)
    (hvalues : ∀ entry ∈ entries, Constructed accepts entry.2)
    (h : map key value entries = .ok w) : Constructed accepts w
  | resultOk {v : ClValue} {err : ClType} (hv : Constructed accepts v) :
    Constructed accepts (resultOk v err)
  | resultErr {ok : ClType} {v : ClValue} (hv : Constructed accepts v) :
    Constructed accepts (resultErr ok v)
  | tuple1 {a : ClValue} (ha : Constructed accepts a) : Constructed accepts (tuple1 a)
  | tuple2 {a b : ClValue} (ha : Constructed accepts a) (hb : Constructed accepts b) :
    Constructed accepts (tuple2 a b)
  | tuple3 {a b c : ClValue} (ha : Constructed accepts a) (hb : Constructed accepts b)
    (hc : Constructed accepts c) : Constructed accepts (tuple3 a b c)
  | ofComponents {clType : ClType} {payload : Bytes} {v : ClValue}
    (h : ofComponents clType payload = .ok v) : Constructed accepts v
  | read {bytes rest : Bytes} {v : ClValue} (h : Wire.read bytes = .ok (v, rest)) :
    Constructed accepts v
  | ofJson? {j : Json} {v : ClValue} (h : ofJson? j = some v) : Constructed accepts v

/-- The bytes of a built value belong to the grammar of its type. -/
theorem Constructed.spellsIf (hv : v.Constructed accepts) (ht : v.clType.isStated) :
    v.clType.SpellsIf (∀ key, accepts key → key.IsAccepted) v.payload := by
  induction hv with
  | ofNative h hx => exact (isNative_of_ofNative h hx).spellsIf
  | ofInteger h => exact (isNative_of_ofInteger h).spellsIf
  | ofDecimal h => exact (isNative_of_ofDecimal h).spellsIf
  | unit => exact isNative_unit.spellsIf
  | @option _ item _ _ h ih =>
    cases item with
    | none =>
      obtain rfl := Except.ok.inj h
      exact .none
    | some v =>
      obtain ⟨rfl, rfl⟩ := option_some_eq_ok.1 h
      exact (ih v rfl ht).some
  | list _ h ih =>
    obtain ⟨-, -, htypes, -⟩ := list_eq_ok.1 h
    rw [clType_of_list h] at ht
    exact spellsIf_of_list h fun v hv ↦ ih v hv (by rw [htypes v hv]; exact ht)
  | byteArray h =>
    obtain ⟨hlength, rfl⟩ := byteArray_eq_ok.1 h
    exact .byteArray (UInt32.toNat_ofNat_of_lt' hlength).symm
  | map _ _ h ihkeys ihvalues =>
    obtain ⟨-, -, htypes, -⟩ := of_map h
    rw [clType_of_map h] at ht
    obtain ⟨hkey, hvalue⟩ := Bool.and_eq_true_iff.1 ht
    apply spellsIf_of_map h
    · exact fun entry hentry ↦ ihkeys entry hentry (by rw [(htypes entry hentry).1]; exact hkey)
    · exact fun entry hentry ↦ ihvalues entry hentry (by rw [(htypes entry hentry).2]; exact hvalue)
  | resultOk _ ih => exact (ih (Bool.and_eq_true_iff.1 ht).1).ok
  | resultErr _ ih => exact (ih (Bool.and_eq_true_iff.1 ht).2).err
  | tuple1 _ ih => exact (ih ht).tuple1
  | tuple2 _ _ iha ihb =>
    obtain ⟨ha, hb⟩ := Bool.and_eq_true_iff.1 ht
    exact (iha ha).tuple2 (ihb hb)
  | @tuple3 a b c _ _ _ iha ihb ihc =>
    obtain ⟨hab, hc⟩ := Bool.and_eq_true_iff.1 ht
    obtain ⟨ha, hb⟩ := Bool.and_eq_true_iff.1 hab
    have hspells := (iha ha).tuple3 (ihb hb) (ihc hc)
    rw [← List.append_assoc] at hspells
    exact hspells
  | ofComponents h => exact (isChecked_of_ofComponents h).spellsIf ht
  | read h => exact (isChecked_of_read h).spellsIf ht
  | ofJson? h => exact (isChecked_of_ofJson? h).spellsIf ht

theorem Constructed.isSpelled (hv : v.Constructed accepts) (ht : v.clType.isStated) :
    v.IsSpelled := (spellsIf_iff.1 (hv.spellsIf ht)).1

/-- What is built from accepted keys is shown. -/
theorem Constructed.isSome_parsed? (hv : v.Constructed accepts) (ht : v.clType.isStated)
    (haccepts : ∀ key, accepts key → key.IsAccepted) : v.parsed?.isSome :=
  (spellsIf_iff.1 (hv.spellsIf ht)).2 haccepts

/-! ## What reads back -/

/-- What is shown is checked as well. -/
theorem Constructed.isChecked_iff (hv : v.Constructed accepts) (ht : v.clType.isStated) :
    v.IsChecked ↔ v.parsed?.isSome := by
  constructor
  · intro hchecked
    exact (spellsIf_iff.1 (hchecked.spellsIf ht)).2 trivial
  · intro hshown
    have hspells : v.clType.SpellsIf True v.payload :=
      spellsIf_iff.2 ⟨hv.isSpelled ht, fun _ ↦ hshown⟩
    exact isChecked_of_spellsIf hspells trivial

/-- A written value reads back if its type is not too deep and it is spelled. -/
theorem readAll_eq_ok_iff_isAccepted {bytes : Bytes} (hw : Wire.write v = .ok bytes) :
    Wire.readAll bytes = .ok v ↔ v.IsAccepted := by
  rw [Wire.readAll_eq_ok, read_eq_ok]
  exact and_iff_left ⟨bytes, hw, (List.append_nil bytes).symm⟩

/-- A built value reads back if its type nests within the limit and the value can be shown, and
not otherwise. It can be shown unless it holds a key that no reader accepts. -/
theorem Constructed.reads_back_iff {bytes : Bytes} (hv : v.Constructed accepts)
    (ht : v.clType.isStated) (hw : Wire.write v = .ok bytes) :
    (Wire.readAll bytes = .ok v ↔ v.clType.nesting ≤ Limits.maxTypeDepth ∧ v.parsed?.isSome) ∧
      ((∀ key, accepts key → key.IsAccepted) → v.parsed?.isSome) := by
  refine ⟨?_, hv.isSome_parsed? ht⟩
  rw [readAll_eq_ok_iff_isAccepted hw, ← hv.isChecked_iff ht]
  exact Iff.rfl

/-- A small number. -/
def five : ClValue := ⟨.leaf .u8, [5]⟩

theorem constructed_five : five.Constructed accepts := by
  have h : ofInteger (.leaf .u8) 5 = .ok five := rfl
  exact .ofInteger h

def someFive : ClValue := ⟨.option (.leaf .u8), [1, 5]⟩

theorem constructed_someFive : someFive.Constructed accepts := by
  have h : option (.leaf .u8) (some five) = .ok someFive := rfl
  exact .option (fun _ hv ↦ Option.some.inj hv ▸ constructed_five) h

/-- A map with one entry. -/
def table : ClValue := ⟨.map (.leaf .u8) (.option (.leaf .u8)), [1, 0, 0, 0, 5, 1, 5]⟩

/-- The table is what the map builder gives for its one entry. -/
theorem map_eq_table : map (.leaf .u8) (.option (.leaf .u8)) [(five, someFive)] = .ok table := rfl

theorem constructed_table : table.Constructed accepts := by
  refine .map ?_ ?_ map_eq_table <;> rw [List.forall_mem_singleton]
  · exact constructed_five
  · exact constructed_someFive

/-- A map from a number to an option, with its written form given byte by byte. -/
theorem reads_back_table :
    Wire.write table = .ok [7, 0, 0, 0, 1, 0, 0, 0, 5, 1, 5, 17, 3, 13, 3] ∧
      Wire.readAll [7, 0, 0, 0, 1, 0, 0, 0, 5, 1, 5, 17, 3, 13, 3] = .ok table := by
  have hv : table.Constructed PublicKey.IsAccepted := constructed_table
  have hw : Wire.write table = .ok [7, 0, 0, 0, 1, 0, 0, 0, 5, 1, 5, 17, 3, 13, 3] := rfl
  obtain ⟨hiff, hshown⟩ := hv.reads_back_iff rfl hw
  exact ⟨hw, hiff.2 ⟨by decide, hshown fun _ hkey ↦ hkey⟩⟩

/-- Nothing, of a type that nests one level beyond the limit. -/
def deep : ClValue := ⟨Nat.repeat ClType.option 50 (.leaf .unit), [0]⟩

/-- The value that is too deep needs no part: an absent option states its inner type. -/
theorem constructed_deep : deep.Constructed accepts := by
  have h : option (Nat.repeat ClType.option 49 (.leaf .unit)) none = .ok deep := rfl
  exact .option (fun v hv ↦ absurd hv (Option.not_mem_none v)) h

/-- An absent option around fifty levels is built, written and then refused by the reader. -/
theorem not_forall_reads_back : ¬∀ v : ClValue, v.Constructed PublicKey.IsAccepted →
    v.clType.isStated → ∀ bytes, Wire.write v = .ok bytes → Wire.readAll bytes = .ok v := by
  intro h
  obtain ⟨bytes, hw⟩ : ∃ bytes, Wire.write deep = .ok bytes := ⟨_, rfl⟩
  have hread := h deep constructed_deep rfl bytes hw
  have hnesting := ((readAll_eq_ok_iff_isAccepted hw).1 hread).1
  exact absurd hnesting (by decide)

/-! ## How built values are shown -/

/-- The value is built, and no part of its type is of unstated structure. -/
structure IsStated (accepts : PublicKey → Prop) (v : ClValue) : Prop where
  constructed : v.Constructed accepts
  stated : v.clType.isStated

theorem IsStated.isSpelled (h : v.IsStated accepts) : v.IsSpelled :=
  h.constructed.isSpelled h.stated

end ChainClient.ClValue
