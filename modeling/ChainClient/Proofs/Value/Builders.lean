import ChainClient.Proofs.Value.Arguments
import ChainClient.Proofs.Value.Native
import ChainClient.Value.ClValue.Build

/-!
# What builds typed values

A builder of composites checks the types of the parts, the bytes of the items of a long list and
the keys of a map, and joins the bytes. The builders of numbers write native values. The others
take bytes from outside and make the check of the readers.
-/

namespace ChainClient.ClValue

open Wire (bind_eq_ok bind_unit_eq_ok mapError_eq_ok pure_eq_ok)

variable {accepts : PublicKey → Prop} {v w : ClValue}

/-! ## What the builders check -/

/-- A native value gives its described type and its written form, or the error of writing it. -/
theorem ofNative_eq_ok {clType : ClType} {t : Native} {ht : t.clType? = some clType} {x : t.Value} :
    ofNative t ht x = .ok v ↔ v.clType = clType ∧ Wire.write x = .ok v.payload := by
  rw [ofNative, bind_eq_ok]
  simp only [mapError_eq_ok, pure_eq_ok]
  constructor
  · rintro ⟨payload, hw, rfl⟩
    exact ⟨rfl, hw⟩
  · rintro ⟨rfl, hw⟩
    exact ⟨v.payload, hw, rfl⟩

/-- Parts given from outside are walked before they become a value. -/
theorem ofComponents_eq_ok {clType : ClType} {payload : Bytes} :
    ofComponents clType payload = .ok v ↔
      clType.validate payload = .ok () ∧ ⟨clType, payload⟩ = v := by
  rw [ofComponents, bind_unit_eq_ok, mapError_eq_ok, pure_eq_ok]

theorem expectType_eq_ok {expected : ClType} :
    expectType expected v = .ok () ↔ v.clType = expected := by
  unfold expectType
  split <;> simp [*]

theorem option_some_eq_ok {inner : ClType} :
    option inner (some v) = .ok w ↔ v.clType = inner ∧ ⟨.option inner, 1 :: v.payload⟩ = w := by
  rw [option, bind_unit_eq_ok, expectType_eq_ok, pure_eq_ok]

/-- The payload joins the elements, once all have the stated type and the zero-width rule holds. -/
theorem itemsPayload_eq_ok {element : ClType} {count : Nat} {vs : List ClValue} {body : Bytes} :
    itemsPayload element count vs = .ok body ↔
      (∀ v ∈ vs, v.clType = element) ∧
      (Limits.maxZeroWidthElements < count → ∀ v ∈ vs, v.payload ≠ []) ∧
      vs.flatMap payload = body := by
  induction vs generalizing body with
  | nil => simp [itemsPayload]
  | cons v vs ih =>
    rw [itemsPayload, bind_unit_eq_ok, bind_unit_eq_ok, bind_eq_ok, expectType_eq_ok,
      mapError_eq_ok, Wire.checkZeroWidth_eq_ok]
    simp only [ih, pure_eq_ok, List.forall_mem_cons, List.flatMap_cons]
    constructor
    · rintro ⟨htype, hbytes, _, ⟨htypes, hothers, rfl⟩, rfl⟩
      refine ⟨⟨htype, htypes⟩, fun hcount ↦ ⟨fun hnil ↦ ?_, hothers hcount⟩, rfl⟩
      exact hbytes hcount (by rw [hnil])
    · rintro ⟨⟨htype, htypes⟩, hbytes, rfl⟩
      refine ⟨htype, fun hcount hlength ↦ (hbytes hcount).1 ?_, _,
        ⟨htypes, fun hcount ↦ (hbytes hcount).2, rfl⟩, rfl⟩
      exact List.eq_nil_of_length_eq_zero hlength.symm

/-- A list states its element type, so that an empty one has a type too. -/
theorem list_eq_ok {element : ClType} {vs : List ClValue} :
    list element vs = .ok w ↔ ∃ count, Wire.writeCount vs.length = .ok count ∧
      (∀ v ∈ vs, v.clType = element) ∧
      (Limits.maxZeroWidthElements < vs.length → ∀ v ∈ vs, v.payload ≠ []) ∧
      ⟨.list element, count ++ vs.flatMap payload⟩ = w := by
  rw [list, bind_eq_ok]
  simp only [bind_eq_ok, mapError_eq_ok, pure_eq_ok, itemsPayload_eq_ok]
  constructor
  · rintro ⟨count, hcount, _, ⟨htypes, hbytes, rfl⟩, rfl⟩
    exact ⟨count, hcount, htypes, hbytes, rfl⟩
  · rintro ⟨count, hcount, htypes, hbytes, rfl⟩
    exact ⟨count, hcount, _, ⟨htypes, hbytes, rfl⟩, rfl⟩

theorem clType_of_list {element : ClType} {vs : List ClValue} (h : list element vs = .ok w) :
    w.clType = .list element := by
  obtain ⟨count, -, -, -, rfl⟩ := list_eq_ok.1 h
  rfl

/-- The length of the bytes becomes part of the type and has to fit 32 bits. -/
theorem byteArray_eq_ok {bytes : Bytes} :
    byteArray bytes = .ok w ↔
      bytes.length < UInt32.size ∧ ⟨.byteArray (UInt32.ofNat bytes.length), bytes⟩ = w := by
  unfold byteArray
  split <;> simp [*]

/-- The bytes of an entry. -/
def entryPayload (entry : ClValue × ClValue) : Bytes := entry.1.payload ++ entry.2.payload

/-- Keys are compared by their bytes. -/
theorem of_entriesPayload {key value : ClType} {seen : List Bytes}
    {entries : List (ClValue × ClValue)} {body : Bytes}
    (h : entriesPayload key value seen entries = .ok body) :
    (∀ entry ∈ entries, entry.1.clType = key ∧ entry.2.clType = value) ∧
      (∀ entry ∈ entries, entry.1.payload ∉ seen) ∧
      (entries.map fun entry ↦ entry.1.payload).Nodup ∧
      body = entries.flatMap entryPayload := by
  induction entries generalizing seen body with
  | nil =>
    obtain rfl := Except.ok.inj h
    simp
  | cons entry entries ih =>
    obtain ⟨k, x⟩ := entry
    obtain ⟨hkey, hnext⟩ := bind_unit_eq_ok.1 h
    obtain ⟨hvalue, hnext⟩ := bind_unit_eq_ok.1 hnext
    rw [expectType_eq_ok] at hkey hvalue
    split at hnext
    · cases hnext
    case isFalse hnew =>
      obtain ⟨others, hothers, hbody⟩ := bind_eq_ok.1 hnext
      obtain rfl := pure_eq_ok.1 hbody
      obtain ⟨htypes, hseen, hnodup, rfl⟩ := ih hothers
      have hfresh : k.payload ∉ entries.map fun entry ↦ entry.1.payload := by
        intro hmem
        obtain ⟨entry, hentry, heq⟩ := List.mem_map.1 hmem
        exact hseen entry hentry (heq ▸ List.mem_cons_self)
      refine ⟨List.forall_mem_cons.2 ⟨⟨hkey, hvalue⟩, htypes⟩,
        List.forall_mem_cons.2 ⟨hnew, fun entry hentry hmem ↦ ?_⟩,
        List.nodup_cons.2 ⟨hfresh, hnodup⟩, rfl⟩
      exact hseen entry hentry (List.mem_cons_of_mem _ hmem)

/-- What an accepted map tells of its entries: their types, their order and that no key stands
twice. -/
theorem of_map {key value : ClType} {entries : List (ClValue × ClValue)}
    (h : map key value entries = .ok w) : ∃ count, Wire.writeCount entries.length = .ok count ∧
      (∀ entry ∈ entries, entry.1.clType = key ∧ entry.2.clType = value) ∧
      (entries.map fun entry ↦ entry.1.payload).Nodup ∧
      w = ⟨.map key value, count ++ entries.flatMap entryPayload⟩ := by
  obtain ⟨count, hcount, hnext⟩ := bind_eq_ok.1 h
  obtain ⟨body, hbody, hw⟩ := bind_eq_ok.1 hnext
  obtain rfl := pure_eq_ok.1 hw
  obtain ⟨htypes, -, hnodup, rfl⟩ := of_entriesPayload hbody
  exact ⟨count, mapError_eq_ok.1 hcount, htypes, hnodup, rfl⟩

theorem clType_of_map {key value : ClType} {entries : List (ClValue × ClValue)}
    (h : map key value entries = .ok w) : w.clType = .map key value := by
  obtain ⟨count, -, -, -, rfl⟩ := of_map h
  rfl

/-! ## Native values and numbers -/

/-- The bytes are written of a native value, whose public keys are accepted. -/
def IsNative (accepts : PublicKey → Prop) (v : ClValue) : Prop :=
  ∃ (t : Native) (x : t.Value), t.clType? = some v.clType ∧ t.AllKeys accepts x ∧
    Wire.write x = .ok v.payload

theorem isNative_of_ofNative {clType : ClType} {t : Native} {ht : t.clType? = some clType}
    {x : t.Value} (h : ofNative t ht x = .ok v) (hx : t.AllKeys accepts x) :
    v.IsNative accepts := by
  obtain ⟨rfl, hw⟩ := ofNative_eq_ok.1 h
  exact ⟨t, x, ht, hx, hw⟩

section Numbers

variable {clType : ClType} {n : Int}

theorem of_bounded {least greatest : Int} {build : Int → Except ClValueError ClValue}
    (h : bounded clType least greatest build n = .ok v) : build n = .ok v := by
  unfold bounded at h
  split at h
  · exact h
  · cases h

theorem exists_of_wide {size : Nat} {build : BigUInt size → Except ClValueError ClValue}
    (h : wide clType size build n = .ok v) : ∃ x, build x = .ok v := by
  unfold wide at h
  split at h
  · split at h
    · exact ⟨_, h⟩
    · cases h
  · cases h

theorem exists_of_wideDecimal {size : Nat} {build : BigUInt size → Except ClValueError ClValue}
    {text : String} (h : wideDecimal clType size build text = .ok v) : ∃ x, build x = .ok v := by
  unfold wideDecimal at h
  split at h
  · exact ⟨_, h⟩
  · cases h

theorem isNative_of_ofInteger (h : ofInteger clType n = .ok v) : v.IsNative accepts := by
  unfold ofInteger at h
  split at h
  case h_1 | h_2 | h_3 | h_4 | h_5 => exact isNative_of_ofNative (of_bounded h) trivial
  case h_6 | h_7 | h_8 =>
    obtain ⟨x, hx⟩ := exists_of_wide h
    exact isNative_of_ofNative hx trivial
  case h_9 => cases h

theorem isNative_of_signedDecimal {text : String} (h : signedDecimal clType text = .ok v) :
    v.IsNative accepts := by
  unfold signedDecimal at h
  split at h
  · exact isNative_of_ofInteger h
  · cases h

theorem isNative_of_ofDecimal {text : String} (h : ofDecimal clType text = .ok v) :
    v.IsNative accepts := by
  unfold ofDecimal at h
  split at h
  case h_1 | h_2 | h_3 =>
    obtain ⟨x, hx⟩ := exists_of_wideDecimal h
    exact isNative_of_ofNative hx trivial
  case h_4 | h_5 | h_6 | h_7 | h_8 => exact isNative_of_signedDecimal h
  case h_9 => cases h

end Numbers

theorem isNative_unit : unit.IsNative accepts := ⟨.scalar .unit, (), rfl, trivial, rfl⟩

/-- What a native value writes is spelled by the grammar, and shown if its keys are accepted. -/
theorem IsNative.spellsIf (h : v.IsNative accepts) :
    v.clType.SpellsIf (∀ key, accepts key → key.IsAccepted) v.payload := by
  obtain ⟨t, x, ht, hx, hw⟩ := h
  exact Native.spellsIf_of_write (Native.isDescribedBy_of_clType? ht) hx hw

/-! ## Checked bytes -/

/-- The check accepts a payload that the walk uses up. -/
theorem validate_eq_ok {t : ClType} {bytes : Bytes} :
    t.validate bytes = .ok () ↔ t.skip bytes = .ok [] := by
  rw [ClType.validate, bind_eq_ok]
  constructor
  · rintro ⟨rest, hskip, hrest⟩
    cases rest with
    | nil => exact hskip
    | cons b rest => cases hrest
  · exact fun hskip ↦ ⟨[], hskip, rfl⟩

/-- The bytes pass the check that readers make. -/
def IsChecked (v : ClValue) : Prop := v.clType.validate v.payload = .ok ()

theorem isChecked_of_ofComponents {clType : ClType} {payload : Bytes}
    (h : ofComponents clType payload = .ok v) : v.IsChecked := by
  obtain ⟨hvalid, rfl⟩ := ofComponents_eq_ok.1 h
  exact hvalid

/-- Reading a value from bytes checks its payload. -/
theorem isChecked_of_read {bytes rest : Bytes} (h : Wire.read bytes = .ok (v, rest)) :
    v.IsChecked := (read_eq_ok.1 h).1.2

theorem isChecked_of_ofJson? {j : Json} (h : ofJson? j = some v) : v.IsChecked := by
  unfold ofJson? at h
  split at h
  · obtain ⟨clType, -, hnext⟩ := Option.bind_eq_some_iff.1 h
    obtain ⟨text, -, hnext'⟩ := Option.bind_eq_some_iff.1 hnext
    obtain ⟨payload, -, hcomponents⟩ := Option.bind_eq_some_iff.1 hnext'
    exact isChecked_of_ofComponents (Wire.eq_ok_of_toOption hcomponents)
  · cases h

theorem IsChecked.spellsIf {P : Prop} (h : v.IsChecked) (ht : v.clType.isStated) :
    v.clType.SpellsIf P v.payload := by
  obtain ⟨front, hfront, hpayload⟩ := ClType.skipsOnly_spellsIf ht (validate_eq_ok.1 h)
  rw [hpayload, List.append_nil]
  exact hfront.of_true

theorem validate_of_delimits {t : ClType} {front : Bytes} (h : Delimits t.skip front) :
    t.validate front = .ok () := by
  have hskip := h []
  rw [List.append_nil] at hskip
  exact validate_eq_ok.2 hskip

theorem isChecked_of_spellsIf {P : Prop} (h : v.clType.SpellsIf P v.payload) (hP : P) :
    v.IsChecked := validate_of_delimits (h.delimits hP)

end ChainClient.ClValue
