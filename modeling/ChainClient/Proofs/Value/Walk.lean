import ChainClient.Proofs.Wire.Container
import ChainClient.Value.Walk

/-!
# Steps over the bytes of values

A walk over a value is put together from steps that each use the bytes in front of any others.
Two such steps after each other are a step again, and so are the steps over the items of a list
and over the entries of a map. In turn, if the items are skipped one by one, then the bytes that
were skipped fall into the items.
-/

namespace ChainClient

open Wire (bind_eq_ok bind_of_eq_ok toOption_bind)

/-! ## Steps over bytes -/

section Step

variable {α β : Type}

/-- The step uses the bytes in front of any others and has the result, or fails. -/
def StepsTo (step : Bytes → Except WireError (α × Bytes)) (front : Bytes) (result : Option α) :
    Prop :=
  ∀ rest, (step (front ++ rest)).toOption = result.map fun a ↦ (a, rest)

/-- The step goes to the end of the bytes, whatever follows. -/
def Delimits (step : Bytes → Except WireError Bytes) (front : Bytes) : Prop :=
  ∀ rest, step (front ++ rest) = .ok rest

variable {step : Bytes → Except WireError (α × Bytes)}
  {next : α → Bytes → Except WireError (β × Bytes)} {skip : Bytes → Except WireError Bytes}
  {front back : Bytes}

theorem StepsTo.pure (a : α) : StepsTo (fun bytes ↦ .ok (a, bytes)) [] (some a) := fun _ ↦ rfl

theorem StepsTo.bind {result : Option α} {result' : α → Option β} (h : StepsTo step front result)
    (hnext : ∀ a ∈ result, StepsTo (next a) back (result' a)) :
    StepsTo (fun bytes ↦ step bytes >>= fun p ↦ next p.1 p.2) (front ++ back)
      (result.bind result') := by
  intro rest
  rw [toOption_bind, List.append_assoc, h]
  cases result with
  | none => rfl
  | some a => exact hnext a rfl rest

/-- A step whose result is only converted. -/
theorem StepsTo.map {result : Option α} (h : StepsTo step front result) (f : α → β) :
    StepsTo (fun bytes ↦ step bytes >>= fun p ↦ .ok (f p.1, p.2)) front (result.map f) := by
  have hpure : ∀ a ∈ result, StepsTo (fun bytes ↦ .ok (f a, bytes)) [] (some (f a)) :=
    fun a _ ↦ .pure (f a)
  have hbind := h.bind hpure
  rw [List.append_nil] at hbind
  rwa [Option.map_eq_bind]

theorem Delimits.bind {skip' : Bytes → Except WireError Bytes} (h : Delimits skip front)
    (h' : Delimits skip' back) :
    Delimits (fun bytes ↦ skip bytes >>= skip') (front ++ back) := by
  intro rest
  rw [List.append_assoc]
  exact bind_of_eq_ok (h (back ++ rest)) (h' rest)

theorem stepsTo_of_readable [Wire α] {x : α} (hx : Wire.Readable x)
    (hw : Wire.write x = .ok front) : StepsTo Wire.read front (some x) := by
  intro rest
  rw [hx front rest hw]
  rfl

theorem stepsTo_split {n : Nat} (h : front.length = n) :
    StepsTo (Wire.split n) front (some front) := by
  intro rest
  rw [Wire.split_eq_ok.2 ⟨h, rfl⟩]
  rfl

end Step

/-! ## Steps over items and entries -/

theorem mapM_cons_eq_bind {α β : Type} (f : α → Option β) (x : α) (xs : List α) :
    (x :: xs).mapM f = (f x).bind fun y ↦ (xs.mapM f).map (y :: ·) := by
  rw [List.mapM_cons]
  cases f x <;> cases xs.mapM f <;> rfl

/-- The whole has a view if every part has one. -/
theorem isSome_mapM_iff {α β : Type} {f : α → Option β} {xs : List α} :
    (xs.mapM f).isSome ↔ ∀ x ∈ xs, (f x).isSome := by
  induction xs with
  | nil => simp
  | cons x xs ih =>
    rw [mapM_cons_eq_bind, List.forall_mem_cons, ← ih]
    cases f x <;> simp

theorem stepsTo_renderItems {step : Bytes → Except WireError (Json × Bytes)}
    {parts : List (Bytes × Option Json)} (h : ∀ part ∈ parts, StepsTo step part.1 part.2) :
    StepsTo (renderItems step parts.length) (parts.flatMap Prod.fst) (parts.mapM Prod.snd) := by
  induction parts with
  | nil => exact .pure []
  | cons part parts ih =>
    have hpart := h part List.mem_cons_self
    have hparts := ih fun other hother ↦ h other (List.mem_cons_of_mem part hother)
    rw [mapM_cons_eq_bind]
    exact hpart.bind fun item _ ↦ hparts.map (item :: ·)

/-- An entry in bytes, with what its key and its value are shown as. -/
abbrev EntryParts := (Bytes × Option Json) × (Bytes × Option Json)

namespace EntryParts

def bytes (entry : EntryParts) : Bytes := entry.1.1 ++ entry.2.1

def shown (entry : EntryParts) : Option Json :=
  entry.1.2.bind fun key ↦ entry.2.2.map fun value ↦ .obj [("key", key), ("value", value)]

theorem isSome_shown_iff {entry : EntryParts} :
    entry.shown.isSome ↔ entry.1.2.isSome ∧ entry.2.2.isSome := by
  unfold shown
  cases entry.1.2 <;> simp

end EntryParts

theorem stepsTo_renderEntries {stepKey stepValue : Bytes → Except WireError (Json × Bytes)}
    {entries : List EntryParts} (hkeys : ∀ entry ∈ entries, StepsTo stepKey entry.1.1 entry.1.2)
    (hvalues : ∀ entry ∈ entries, StepsTo stepValue entry.2.1 entry.2.2) :
    StepsTo (renderEntries stepKey stepValue entries.length) (entries.flatMap EntryParts.bytes)
      (entries.mapM EntryParts.shown) := by
  induction entries with
  | nil => exact .pure []
  | cons entry entries ih =>
    have hkey := hkeys entry List.mem_cons_self
    have hvalue := hvalues entry List.mem_cons_self
    have hothers := ih (fun other hother ↦ hkeys other (List.mem_cons_of_mem entry hother))
      fun other hother ↦ hvalues other (List.mem_cons_of_mem entry hother)
    have hall := hkey.bind fun key _ ↦ hvalue.bind fun value _ ↦
      hothers.map (Json.obj [("key", key), ("value", value)] :: ·)
    have hshown : entry.shown.bind (fun item ↦ (entries.mapM EntryParts.shown).map (item :: ·)) =
        entry.1.2.bind fun key ↦ entry.2.2.bind fun value ↦
          (entries.mapM EntryParts.shown).map (Json.obj [("key", key), ("value", value)] :: ·) := by
      unfold EntryParts.shown
      cases entry.1.2 <;> cases entry.2.2 <;> rfl
    rw [List.flatMap_cons, EntryParts.bytes, List.append_assoc, mapM_cons_eq_bind, hshown]
    exact hall

/-- The walk over elements needs the zero-width rule only above its bound. -/
theorem delimits_skipItems {step : Bytes → Except WireError Bytes} {count : Nat}
    {parts : List (Bytes × Option Json)} (h : ∀ part ∈ parts, Delimits step part.1)
    (hbytes : Limits.maxZeroWidthElements < count → ∀ part ∈ parts, part.1 ≠ []) :
    Delimits (skipItems step count parts.length) (parts.flatMap Prod.fst) := by
  induction parts with
  | nil => exact fun _ ↦ rfl
  | cons part parts ih =>
    have hothers := ih (fun other hother ↦ h other (List.mem_cons_of_mem part hother))
      fun hcount other hother ↦ hbytes hcount other (List.mem_cons_of_mem part hother)
    intro rest
    rw [List.flatMap_cons, List.append_assoc, List.length_cons, skipItems]
    apply bind_of_eq_ok (h part List.mem_cons_self (parts.flatMap Prod.fst ++ rest))
    refine bind_of_eq_ok (Wire.checkZeroWidth_append fun hcount ↦ ?_) (hothers rest)
    exact hbytes hcount part List.mem_cons_self

/-- What a step has used stands in front of what it has left. -/
theorem take_used (front rest : Bytes) :
    (front ++ rest).take ((front ++ rest).length - rest.length) = front := by
  rw [List.length_append, Nat.add_sub_cancel, List.take_left]

/-- The walk over entries needs the keys to differ as bytes. -/
theorem delimits_skipEntries {stepKey stepValue : Bytes → Except WireError Bytes}
    {seen : List Bytes} {entries : List EntryParts}
    (hkeys : ∀ entry ∈ entries, Delimits stepKey entry.1.1)
    (hvalues : ∀ entry ∈ entries, Delimits stepValue entry.2.1)
    (hseen : ∀ entry ∈ entries, entry.1.1 ∉ seen) (hnodup : (entries.map (·.1.1)).Nodup) :
    Delimits (skipEntries stepKey stepValue seen entries.length)
      (entries.flatMap EntryParts.bytes) := by
  induction entries generalizing seen with
  | nil => exact fun _ ↦ rfl
  | cons entry entries ih =>
    rw [List.map_cons, List.nodup_cons] at hnodup
    have hseen' : ∀ other ∈ entries, other.1.1 ∉ entry.1.1 :: seen := by
      intro other hother hmem
      rcases List.mem_cons.1 hmem with heq | hmem
      · exact hnodup.1 (heq ▸ List.mem_map_of_mem hother)
      · exact hseen other (List.mem_cons_of_mem entry hother) hmem
    have hothers := ih (fun other hother ↦ hkeys other (List.mem_cons_of_mem entry hother))
      (fun other hother ↦ hvalues other (List.mem_cons_of_mem entry hother)) hseen' hnodup.2
    intro rest
    rw [List.flatMap_cons, EntryParts.bytes, List.append_assoc, List.append_assoc,
      List.length_cons, skipEntries]
    apply bind_of_eq_ok (hkeys entry List.mem_cons_self _)
    simp only [take_used, if_neg (hseen entry List.mem_cons_self)]
    exact bind_of_eq_ok (hvalues entry List.mem_cons_self _) (hothers rest)

/-! ## What is skipped -/

/-- What the step skips belongs to the language. -/
def SkipsOnly (step : Bytes → Except WireError Bytes) (Q : Bytes → Prop) : Prop :=
  ∀ ⦃bytes rest : Bytes⦄, step bytes = .ok rest → ∃ front, Q front ∧ bytes = front ++ rest

section Skip

variable {step stepKey stepValue : Bytes → Except WireError Bytes} {Q Q' : Bytes → Prop}
  {count n : Nat} {bytes rest : Bytes}

/-- What the walk over elements skipped splits into that many fronts. -/
theorem exists_fronts_of_skipItems (hstep : SkipsOnly step Q)
    (h : skipItems step count n bytes = .ok rest) : ∃ fronts : List Bytes,
      fronts.length = n ∧ (∀ front ∈ fronts, Q front) ∧
      (Limits.maxZeroWidthElements < count → ∀ front ∈ fronts, front ≠ []) ∧
      bytes = fronts.flatten ++ rest := by
  induction n generalizing bytes with
  | zero =>
    obtain rfl := Except.ok.inj h
    exact ⟨[], rfl, by simp, by simp, rfl⟩
  | succ n ih =>
    obtain ⟨middle, hmiddle, hnext⟩ := bind_eq_ok.1 h
    obtain ⟨hcheck, hitems⟩ := Wire.bind_unit_eq_ok.1 hnext
    obtain ⟨front, hfront, rfl⟩ := hstep hmiddle
    obtain ⟨fronts, rfl, hfronts, hbytes, rfl⟩ := ih hitems
    refine ⟨front :: fronts, rfl, List.forall_mem_cons.2 ⟨hfront, hfronts⟩, fun hcount ↦ ?_, ?_⟩
    · refine List.forall_mem_cons.2 ⟨?_, hbytes hcount⟩
      rintro rfl
      exact Wire.checkZeroWidth_eq_ok.1 hcheck hcount rfl
    · rw [List.flatten_cons, List.append_assoc]

/-- What the walk over entries skipped splits into entries whose keys differ as bytes. -/
theorem exists_entries_of_skipEntries {seen : List Bytes} (hkey : SkipsOnly stepKey Q)
    (hvalue : SkipsOnly stepValue Q')
    (h : skipEntries stepKey stepValue seen n bytes = .ok rest) :
    ∃ entries : List (Bytes × Bytes), entries.length = n ∧ (∀ entry ∈ entries, Q entry.1) ∧
      (∀ entry ∈ entries, Q' entry.2) ∧ (∀ entry ∈ entries, entry.1 ∉ seen) ∧
      (entries.map (·.1)).Nodup ∧
      bytes = entries.flatMap (fun entry ↦ entry.1 ++ entry.2) ++ rest := by
  induction n generalizing bytes seen with
  | zero =>
    obtain rfl := Except.ok.inj h
    exact ⟨[], rfl, by simp⟩
  | succ n ih =>
    obtain ⟨middle, hmiddle, hnext⟩ := bind_eq_ok.1 h
    obtain ⟨key, hkey', rfl⟩ := hkey hmiddle
    simp only [take_used] at hnext
    split at hnext
    · cases hnext
    case isFalse hnew =>
      obtain ⟨middle', hmiddle', hothers⟩ := bind_eq_ok.1 hnext
      obtain ⟨value, hvalue', rfl⟩ := hvalue hmiddle'
      obtain ⟨entries, rfl, hkeys, hvalues, hseen, hnodup, rfl⟩ := ih hothers
      have hfresh : key ∉ entries.map (·.1) := by
        intro hmem
        obtain ⟨entry, hentry, heq⟩ := List.mem_map.1 hmem
        exact hseen entry hentry (heq ▸ List.mem_cons_self)
      refine ⟨(key, value) :: entries, rfl, List.forall_mem_cons.2 ⟨hkey', hkeys⟩,
        List.forall_mem_cons.2 ⟨hvalue', hvalues⟩, List.forall_mem_cons.2 ⟨hnew, ?_⟩,
        List.nodup_cons.2 ⟨hfresh, hnodup⟩, ?_⟩
      · exact fun entry hentry hmem ↦ hseen entry hentry (List.mem_cons_of_mem key hmem)
      · simp only [List.flatMap_cons, List.append_assoc]

end Skip

end ChainClient
