import ChainClient.Proofs.Value.Builders
import ChainClient.Proofs.Wire.Items

/-!
# Composites of native values

A composite is put together from parts that are typed already, or written as one native value.
Both ways lead to the same result. They check different things: the items of a long list one by
one or all of them together, and the keys of a map by their bytes or by their order. But a type
has either no empty value or no other ones, and different keys are written as different bytes.
-/

namespace ChainClient

/-! ## Descriptors of composites -/

namespace Native

variable {a b c : Native} {α β γ : ClType}

theorem clType?_option (ha : a.clType? = some α) : (option a).clType? = some (.option α) := by
  simp [clType?, ha]

theorem clType?_list (ha : a.clType? = some α) : (list a).clType? = some (.list α) := by
  simp [clType?, ha]

theorem clType?_result (ha : a.clType? = some α) (hb : b.clType? = some β) :
    (result a b).clType? = some (.result α β) := by
  simp [clType?, ha, hb]

theorem clType?_map (ha : a.clType? = some α) (hb : b.clType? = some β) :
    (map a b).clType? = some (.map α β) := by
  simp [clType?, ha, hb]

theorem clType?_tuple1 (ha : a.clType? = some α) : (tuple1 a).clType? = some (.tuple1 α) := by
  simp [clType?, ha]

theorem clType?_tuple2 (ha : a.clType? = some α) (hb : b.clType? = some β) :
    (tuple2 a b).clType? = some (.tuple2 α β) := by
  simp [clType?, ha, hb]

theorem clType?_tuple3 (ha : a.clType? = some α) (hb : b.clType? = some β)
    (hc : c.clType? = some γ) : (tuple3 a b c).clType? = some (.tuple3 α β γ) := by
  simp [clType?, ha, hb, hc]

end Native

namespace ClValue

open Wire (mapError_eq_ok)

variable {a b c : Native} {α β γ : ClType}

/-! ## Options, results and tuples -/

/-- What a writer returned, as a value of the type. -/
def ofWritten (clType : ClType) (written : Except WireError Bytes) :
    Except ClValueError ClValue := do
  let payload ← written.mapError .serialization
  return ⟨clType, payload⟩

theorem ofNative_eq_ofWritten {t : Native} (ht : t.clType? = some α) (x : t.Value) :
    ofNative t ht x = ofWritten α (Wire.write x) := rfl

section Written

variable (w w' w'' : Except WireError Bytes)

theorem option_ofWritten : (ofWritten α w >>= fun v ↦ option α (some v)) =
    ofWritten (.option α) (do return 1 :: (← w)) := by
  cases w with
  | error e => rfl
  | ok payload => simp [ofWritten, Except.mapError, option, expectType]

theorem resultOk_ofWritten : (do return resultOk (← ofWritten α w) β) =
    ofWritten (.result α β) (do return 1 :: (← w)) := by
  cases w <;> rfl

theorem resultErr_ofWritten : (do return resultErr α (← ofWritten β w)) =
    ofWritten (.result α β) (do return 0 :: (← w)) := by
  cases w <;> rfl

theorem tuple1_ofWritten :
    (do return tuple1 (← ofWritten α w)) = ofWritten (.tuple1 α) w := by
  cases w <;> rfl

theorem tuple2_ofWritten : (do return tuple2 (← ofWritten α w) (← ofWritten β w')) =
    ofWritten (.tuple2 α β) (do return (← w) ++ (← w')) := by
  cases w with
  | error e => rfl
  | ok front => cases w' <;> rfl

theorem tuple3_ofWritten :
    (do return tuple3 (← ofWritten α w) (← ofWritten β w') (← ofWritten γ w'')) =
      ofWritten (.tuple3 α β γ) (do
        let front ← w
        let back ← (do return (← w') ++ (← w'') : Except WireError Bytes)
        return front ++ back) := by
  cases w with
  | error e => rfl
  | ok front =>
    cases w' with
    | error e => rfl
    | ok middle =>
      cases w'' with
      | error e => rfl
      | ok back =>
        have hpayload : front ++ middle ++ back = front ++ (middle ++ back) :=
          List.append_assoc front middle back
        exact congrArg (fun payload ↦ Except.ok (mk (.tuple3 α β γ) payload)) hpayload

end Written

/-- An option built at run time is the option of the native value, errors of the inner value
included. -/
theorem option_eq_ofNative (ha : a.clType? = some α) (x? : Option a.Value) :
    (x?.mapM (ofNative a ha) >>= option α) =
      ofNative (.option a) (Native.clType?_option ha) x? := by
  cases x? with
  | none => rfl
  | some x =>
    calc
      ((some x).mapM (ofNative a ha) >>= option α) =
          ofWritten α (Wire.write x) >>= fun v ↦ option α (some v) := by
        rw [Option.mapM_some, ofNative_eq_ofWritten, map_eq_pure_bind, bind_assoc]
        rfl
      _ = ofNative (.option a) (Native.clType?_option ha) (some x) := option_ofWritten _

/-! ## Lists -/

/-- The items are checked one by one as they are checked together, if an empty item is not found
among others. -/
theorem itemsPayload_eq {element : ClType} {vs : List ClValue}
    (htypes : ∀ v ∈ vs, v.clType = element)
    (hempty : ∀ v ∈ vs, v.payload = [] → vs.flatMap payload = []) :
    itemsPayload element vs.length vs = (do
      (Wire.checkZeroWidth (vs.flatMap payload) [] vs.length).mapError .serialization
      return vs.flatMap payload) := by
  by_cases hlong : Limits.maxZeroWidthElements < vs.length ∧ vs.flatMap payload = []
  · obtain ⟨hcount, hnil⟩ := hlong
    have hcheck : Wire.checkZeroWidth [] [] vs.length =
        .error (.malformed .tooManyZeroWidthElements) := if_pos (by simpa using hcount)
    obtain ⟨v, vs, rfl⟩ := List.exists_cons_of_length_pos (Nat.zero_lt_of_lt hcount)
    have hv : v.payload = [] := (List.append_eq_nil_iff.1 hnil).1
    have hexpect : expectType element v = .ok () :=
      expectType_eq_ok.2 (htypes v List.mem_cons_self)
    rw [itemsPayload, hexpect, hv, hnil, hcheck]
    rfl
  · have hitems : itemsPayload element vs.length vs = .ok (vs.flatMap payload) :=
      itemsPayload_eq_ok.2
        ⟨htypes, fun hcount v hv hnil ↦ hlong ⟨hcount, hempty v hv hnil⟩, rfl⟩
    have hcheck : Wire.checkZeroWidth (vs.flatMap payload) [] vs.length = .ok () :=
      Wire.checkZeroWidth_eq_ok.2 fun hcount hlength ↦
        hlong ⟨hcount, List.eq_nil_of_length_eq_zero hlength.symm⟩
    rw [hitems, hcheck]
    rfl

/-- A list built from built elements is the list of the native values. -/
theorem list_eq_ofNative (ha : a.clType? = some α) {xs : (Native.list a).Value}
    {vs : List ClValue} (h : List.Forall₂ (fun x v ↦ ofNative a ha x = .ok v) xs vs) :
    list α vs = ofNative (.list a) (Native.clType?_list ha) xs := by
  have hlength : xs.length = vs.length := h.length_eq
  have hitems : Wire.writeItems xs = .ok (vs.flatMap payload) :=
    Wire.writeItems_of_forall₂ (h.imp fun _ _ hx ↦ (ofNative_eq_ok.1 hx).2)
  have htypes : ∀ v ∈ vs, v.clType = α := by
    intro v hv
    obtain ⟨x, -, hx⟩ := Wire.exists_mem_of_forall₂ h.flip v hv
    exact (ofNative_eq_ok.1 hx).1
  -- A type with an empty value has no other ones, so one empty item makes all of them empty.
  have hempty : ∀ v ∈ vs, v.payload = [] → vs.flatMap payload = [] := by
    intro v hv hnil
    obtain ⟨x, -, hx⟩ := Wire.exists_mem_of_forall₂ h.flip v hv
    exact Wire.eq_nil_of_writeItems (hnil ▸ (ofNative_eq_ok.1 hx).2) hitems
  have hwrite : Wire.write xs = (do
      let count ← Wire.writeCount vs.length
      Wire.checkZeroWidth (vs.flatMap payload) [] vs.length
      return count ++ vs.flatMap payload) := by
    calc
      _ = (do
        let count ← Wire.writeCount xs.length
        let body ← Wire.writeItems xs
        Wire.checkZeroWidth body [] xs.length
        return count ++ body) := rfl
      _ = _ := by
        rw [hlength, hitems]
        rfl
  rw [list, itemsPayload_eq htypes hempty, ofNative_eq_ofWritten, hwrite]
  cases Wire.writeCount vs.length with
  | error e => rfl
  | ok count =>
    simp only [Wire.ok_bind]
    cases Wire.checkZeroWidth (vs.flatMap payload) [] vs.length <;> rfl

/-! ## Maps -/

/-- Entries with different keys are joined as they stand, in their order. -/
theorem entriesPayload_of_nodup {key value : ClType} {seen : List Bytes}
    {entries : List (ClValue × ClValue)}
    (htypes : ∀ entry ∈ entries, entry.1.clType = key ∧ entry.2.clType = value)
    (hseen : ∀ entry ∈ entries, entry.1.payload ∉ seen)
    (hnodup : (entries.map fun entry ↦ entry.1.payload).Nodup) :
    entriesPayload key value seen entries = .ok (entries.flatMap entryPayload) := by
  induction entries generalizing seen with
  | nil => rfl
  | cons entry entries ih =>
    obtain ⟨k, x⟩ := entry
    obtain ⟨⟨hkey, hvalue⟩, htypes⟩ := List.forall_mem_cons.1 htypes
    obtain ⟨hnew, hseen⟩ := List.forall_mem_cons.1 hseen
    obtain ⟨hfresh, hnodup⟩ := List.nodup_cons.1 hnodup
    have hothers : ∀ entry ∈ entries, entry.1.payload ∉ k.payload :: seen := by
      intro entry hentry hmem
      rcases List.mem_cons.1 hmem with heq | hmem
      · exact hfresh (List.mem_map.2 ⟨entry, hentry, heq⟩)
      · exact hseen entry hentry hmem
    calc
      _ = (do
        expectType key k
        expectType value x
        if k.payload ∈ seen then .error (.serialization (.malformed .duplicateMapKey))
        else return k.payload ++ x.payload ++
          (← entriesPayload key value (k.payload :: seen) entries)) := rfl
      _ = _ := by
        rw [expectType_eq_ok.2 hkey, expectType_eq_ok.2 hvalue, Wire.ok_bind, Wire.ok_bind,
          if_neg hnew, ih htypes hothers hnodup]
        rfl

/-- The parts of an entry, each of them written on its own. -/
def ofEntry (ha : a.clType? = some α) (hb : b.clType? = some β) (entry : a.Value × b.Value) :
    Except ClValueError (ClValue × ClValue) := do
  let k ← ofNative a ha entry.1
  let x ← ofNative b hb entry.2
  return (k, x)

/-- A built entry has the two types and the two written forms of its native key and value. -/
theorem ofEntry_eq_ok {ha : a.clType? = some α} {hb : b.clType? = some β}
    {entry : a.Value × b.Value} {q : ClValue × ClValue} :
    ofEntry ha hb entry = .ok q ↔
      (q.1.clType = α ∧ Wire.write entry.1 = .ok q.1.payload) ∧
        q.2.clType = β ∧ Wire.write entry.2 = .ok q.2.payload := by
  simp only [ofEntry, Wire.bind_eq_ok, Wire.pure_eq_ok, ofNative_eq_ok]
  constructor
  · rintro ⟨k, hk, x, hx, rfl⟩
    exact ⟨hk, hx⟩
  · rintro ⟨hk, hx⟩
    exact ⟨q.1, hk, q.2, hx, rfl⟩

/-- A map built from built entries is the map of the native entries. -/
theorem map_eq_ofNative (ha : a.clType? = some α) (hb : b.clType? = some β)
    {m : (Native.map a b).Value} {entries : List (ClValue × ClValue)}
    (h : List.Forall₂ (fun entry q ↦ ofEntry ha hb entry = .ok q) m.entries entries) :
    map α β entries = ofNative (.map a b) (Native.clType?_map ha hb) m := by
  have hlength : m.entries.length = entries.length := h.length_eq
  have hitems : Wire.writeItems m.entries = .ok (entries.flatMap entryPayload) := by
    refine Wire.writeItems_of_forall₂ (h.imp fun entry q hq ↦ ?_)
    obtain ⟨⟨-, hk⟩, -, hx⟩ := ofEntry_eq_ok.1 hq
    exact Wire.writePair_eq_ok.2 ⟨_, _, hk, hx, rfl⟩
  have htypes : ∀ q ∈ entries, q.1.clType = α ∧ q.2.clType = β := by
    intro q hq
    obtain ⟨entry, -, hentry⟩ := Wire.exists_mem_of_forall₂ h.flip q hq
    obtain ⟨⟨hkey, -⟩, hvalue, -⟩ := ofEntry_eq_ok.1 hentry
    exact ⟨hkey, hvalue⟩
  -- The keys of the map differ in order, and different keys are not written as the same bytes.
  have hnodup : (entries.map fun q ↦ q.1.payload).Nodup := by
    refine List.pairwise_map.2
      (Wire.pairwise_of_forall₂ h ?_ (SortedMap.pairwise_ne_of_perm (.refl _)))
    intro entry entry' q q' hq hq' hne heq
    have hk := (ofEntry_eq_ok.1 hq).1.2
    have hk' := (ofEntry_eq_ok.1 hq').1.2
    exact hne (congrArg _ (Wire.write_injective hk (heq ▸ hk')))
  have hwrite : Wire.write m = (do
      let count ← Wire.writeCount entries.length
      return count ++ entries.flatMap entryPayload) := by
    calc
      _ = (do
        let count ← Wire.writeCount m.entries.length
        return count ++ (← Wire.writeEntries m.entries)) := rfl
      _ = _ := by
        rw [hlength, Wire.writeEntries_eq_writeItems, hitems]
        rfl
  rw [map, entriesPayload_of_nodup htypes (by simp) hnodup, ofNative_eq_ofWritten, hwrite]
  cases Wire.writeCount entries.length <;> rfl

/-! ## Both ways -/

/-- Where the parts of a value are written, putting them together and writing the whole value
lead to the same result, a value or an error. -/
theorem composite_ofNative (ha : a.clType? = some α) (hb : b.clType? = some β)
    (hc : c.clType? = some γ) :
    (∀ (xs : List a.Value) vs, xs.mapM (ofNative a ha) = .ok vs →
      list α vs = ofNative (.list a) (Native.clType?_list ha) xs) ∧
    (∀ (m : SortedMap a.Value a.carrier.sortKey b.Value) entries,
      m.entries.mapM (ofEntry ha hb) = .ok entries →
      map α β entries = ofNative (.map a b) (Native.clType?_map ha hb) m) ∧
    (∀ x? : Option a.Value, (x?.mapM (ofNative a ha) >>= option α) =
      ofNative (.option a) (Native.clType?_option ha) x?) ∧
    (∀ x, (do return resultOk (← ofNative a ha x) β) =
      ofNative (.result a b) (Native.clType?_result ha hb) (.ok x)) ∧
    (∀ y, (do return resultErr α (← ofNative b hb y)) =
      ofNative (.result a b) (Native.clType?_result ha hb) (.error y)) ∧
    (∀ x, (do return tuple1 (← ofNative a ha x)) =
      ofNative (.tuple1 a) (Native.clType?_tuple1 ha) x) ∧
    (∀ x y, (do return tuple2 (← ofNative a ha x) (← ofNative b hb y)) =
      ofNative (.tuple2 a b) (Native.clType?_tuple2 ha hb) (x, y)) ∧
    ∀ x y z, (do return tuple3 (← ofNative a ha x) (← ofNative b hb y) (← ofNative c hc z)) =
      ofNative (.tuple3 a b c) (Native.clType?_tuple3 ha hb hc) (x, y, z) :=
  ⟨fun _ _ h ↦ list_eq_ofNative ha (Wire.forall₂_of_mapM h),
    fun _ _ h ↦ map_eq_ofNative ha hb (Wire.forall₂_of_mapM h), option_eq_ofNative ha,
    fun _ ↦ resultOk_ofWritten _, fun _ ↦ resultErr_ofWritten _, fun _ ↦ tuple1_ofWritten _,
    fun _ _ ↦ tuple2_ofWritten _ _, fun _ _ _ ↦ tuple3_ofWritten _ _ _⟩

/-- The native type of the example: an optional string. -/
def optionalString : Native := .option (.scalar .string)

/-- A string and nothing. -/
def optionalStrings : List ClValue :=
  [⟨.option (.leaf .string), [1, 1, 0, 0, 0, 97]⟩, ⟨.option (.leaf .string), [0]⟩]

/-- Two optional strings, one of them absent, built at run time and from native values. -/
theorem composite_ofNative_optionalStrings :
    [some "a", none].mapM (ofNative optionalString rfl) = .ok optionalStrings ∧
      list (.option (.leaf .string)) optionalStrings =
        ofNative (.list optionalString) (Native.clType?_list rfl) [some "a", none] ∧
      ∃ entries, [(none, true), (some "a", false)].mapM
          (ofEntry (a := optionalString) (b := .scalar .bool) rfl rfl) = .ok entries ∧
        map (.option (.leaf .string)) (.leaf .bool) entries =
          ofNative (.map optionalString (.scalar .bool)) (Native.clType?_map rfl rfl)
            ⟨[(none, true), (some "a", false)], by decide⟩ := by
  obtain ⟨hlist, hmap, -⟩ :=
    composite_ofNative (a := optionalString) (b := .scalar .bool) (c := .scalar .unit) rfl rfl rfl
  exact ⟨rfl, hlist _ optionalStrings rfl, _, rfl, hmap _ _ rfl⟩

end ClValue

end ChainClient
