/-!
# The order of settings and of failures

A builder takes settings one after the other and then makes its checks one after the other. What
it holds in the end is the last setting of each part, so sequences of settings that end alike for
each part are the same to it. The checks are in stages, and what is reported is the fault with the
earliest stage, whichever others there are.
-/

namespace ChainClient

/-! ## Settings -/

section Settings

variable {β σ κ : Type} [DecidableEq κ]

/-- The last of the settings of a part. -/
def lastOf? (part : σ → κ) (k : κ) (settings : List σ) : Option σ :=
  settings.reverse.find? fun s ↦ part s = k

/-- The sequences end alike for each part. -/
def EndAlike (part : σ → κ) (settings settings' : List σ) : Prop :=
  ∀ k, lastOf? part k settings = lastOf? part k settings'

/-- A setting in front counts only if no later one is about its part. -/
theorem lastOf?_cons (part : σ → κ) (k : κ) (s : σ) (settings : List σ) :
    lastOf? part k (s :: settings) =
      (lastOf? part k settings).or (if part s = k then some s else none) := by
  simp [lastOf?, List.find?_append, List.find?_singleton]

theorem lastOf?_isSome {part : σ → κ} {k : κ} {settings : List σ} :
    (lastOf? part k settings).isSome ↔ ∃ s ∈ settings, part s = k := by
  simp [lastOf?]

/-- What is held of a part after the settings: the last one of it, or else what was held before. -/
def heldAfter (part : σ → κ) (held : κ → Option σ) (settings : List σ) (k : κ) : Option σ :=
  (lastOf? part k settings).or (held k)

/-- What is set is never taken back. -/
theorem isSome_heldAfter {part : σ → κ} {held : κ → Option σ} {settings : List σ} {k : κ} :
    (heldAfter part held settings k).isSome ↔ (∃ s ∈ settings, part s = k) ∨ (held k).isSome := by
  rw [heldAfter, Option.isSome_or, Bool.or_eq_true, lastOf?_isSome]

/-- A field that is held as a setting has a value. -/
theorem exists_eq_some_of_map_ne_none {α : Type} {x : Option α} {f : α → σ} (h : x.map f ≠ none) :
    ∃ a, x = some a :=
  Option.ne_none_iff_exists'.1 (mt Option.map_eq_none_iff.2 h)

/-- If one setting replaces what is held for its part and nothing else, then a sequence of them
leaves the last one of each part. -/
theorem held_foldl {set : β → σ → β} {part : σ → κ} {held : β → κ → Option σ}
    (hset : ∀ b s k, held (set b s) k = if part s = k then some s else held b k) (b : β)
    (settings : List σ) : held (settings.foldl set b) = heldAfter part (held b) settings := by
  funext k
  induction settings generalizing b with
  | nil => rfl
  | cons s settings ih =>
    rw [List.foldl_cons, ih, heldAfter, heldAfter, lastOf?_cons, hset, Option.or_assoc]
    split <;> rfl

end Settings

/-! ## Failures -/

section Failures

variable {ε α β : Type} {fault : ε → Prop} {stage : ε → Nat} {n : Nat}

/-- No other fault has an earlier stage. -/
def IsEarliest (fault : ε → Prop) (stage : ε → Nat) (e : ε) : Prop :=
  fault e ∧ ∀ e', fault e' → stage e ≤ stage e'

/-- Of the faults from a stage on, the one whose stage is before all others is reported, if there
are any. -/
def ReportsFrom (fault : ε → Prop) (stage : ε → Nat) (n : Nat) : Except ε α → Prop
  | .ok _ => ∀ e, fault e → stage e < n
  | .error e => fault e ∧ n ≤ stage e ∧ ∀ e', fault e' → n ≤ stage e' → e' = e ∨ stage e < stage e'

namespace ReportsFrom

/-- If the checks are made stage by stage, the earliest fault is what is reported. -/
theorem eq_error_iff {x : Except ε α} (h : ReportsFrom fault stage 0 x) {e : ε} :
    x = .error e ↔ IsEarliest fault stage e := by
  cases x with
  | ok a =>
    have hnone : ¬fault e := fun he ↦ Nat.not_lt_zero _ (h e he)
    simp [IsEarliest, hnone]
  | error first =>
    obtain ⟨hfault, -, hothers⟩ := h
    constructor
    · intro heq
      obtain rfl := Except.error.inj heq
      refine ⟨hfault, fun e' he' ↦ ?_⟩
      rcases hothers e' he' (Nat.zero_le _) with rfl | hlt
      · exact Nat.le_refl _
      · exact Nat.le_of_lt hlt
    · rintro ⟨he, hearliest⟩
      rcases hothers e he (Nat.zero_le _) with rfl | hlt
      · rfl
      · exact absurd (hearliest first hfault) (Nat.not_le.2 hlt)

/-- A check that fails for the faults of its stage, in front of those for the later stages. -/
theorem bind {x : Except ε α} {f : α → Except ε β}
    (hx : ∀ e, x = .error e ↔ fault e ∧ stage e = n)
    (hnext : ∀ a, x = .ok a → ReportsFrom fault stage (n + 1) (f a)) :
    ReportsFrom fault stage n (x >>= f) := by
  have hlater {e : ε} (he : fault e) (hn : n ≤ stage e) (hne : x ≠ .error e) : n + 1 ≤ stage e :=
    Nat.lt_of_le_of_ne hn fun heq ↦ hne ((hx e).2 ⟨he, heq.symm⟩)
  cases x with
  | error e =>
    obtain ⟨he, hstage⟩ := (hx e).1 rfl
    refine ⟨he, Nat.le_of_eq hstage.symm, fun e' he' hn ↦ ?_⟩
    by_cases heq : e' = e
    · exact .inl heq
    · refine .inr (hstage ▸ hlater he' hn fun h ↦ ?_)
      exact heq (Except.error.inj h).symm
  | ok a =>
    have hrest := hnext a rfl
    change ReportsFrom fault stage n (f a)
    cases hfa : f a with
    | ok b =>
      rw [hfa] at hrest
      intro e he
      refine Nat.lt_of_not_le fun hn ↦ ?_
      exact Nat.not_lt.2 (hlater he hn nofun) (hrest e he)
    | error e =>
      rw [hfa] at hrest
      obtain ⟨he, hstage, hothers⟩ := hrest
      exact ⟨he, Nat.le_of_succ_le hstage, fun e' he' hn ↦ hothers e' he' (hlater he' hn nofun)⟩

/-- A rule in front of others. -/
theorem ite_bind {c : Prop} [Decidable c] {e : ε} {y : Except ε α} {f : α → Except ε β}
    (hc : ∀ e', c ∧ e = e' ↔ fault e' ∧ stage e' = n)
    (hnext : ¬c → ReportsFrom fault stage (n + 1) (y >>= f)) :
    ReportsFrom fault stage n ((if c then .error e else y) >>= f) := by
  have hsplit : ((if c then .error e else y) >>= f) =
      (if c then .error e else .ok ()) >>= fun _ : Unit ↦ y >>= f := by split <;> rfl
  rw [hsplit]
  refine .bind (fun e' ↦ ?_) fun _ hok ↦ hnext fun h ↦ ?_
  · rw [← hc]
    by_cases h : c <;> simp [h]
  · rw [if_pos h] at hok
    cases hok

/-- Faults of a part of the work are faults of the whole, and none of the others is later. -/
theorem mapError {ε' : Type} {fault' : ε' → Prop} {stage' : ε' → Nat} {g : ε → ε'}
    {x : Except ε α} (h : ReportsFrom fault stage 0 x) (hfault : ∀ e, fault' (g e) ↔ fault e)
    (hstage : ∀ e, stage' (g e) = stage e + n)
    (hlater : ∀ e', fault' e' → n ≤ stage' e' → ∃ e, g e = e') :
    ReportsFrom fault' stage' n (x.mapError g) := by
  cases x with
  | ok a =>
    intro e' he'
    refine Nat.lt_of_not_le fun hn ↦ ?_
    obtain ⟨e, rfl⟩ := hlater e' he' hn
    exact Nat.not_lt_zero _ (h e ((hfault e).1 he'))
  | error e =>
    obtain ⟨he, -, hothers⟩ := h
    refine ⟨(hfault e).2 he, hstage e ▸ Nat.le_add_left _ _, fun e' he' hn ↦ ?_⟩
    obtain ⟨other, rfl⟩ := hlater e' he' hn
    rcases hothers other ((hfault other).1 he') (Nat.zero_le _) with rfl | hlt
    · exact .inl rfl
    · refine .inr ?_
      rw [hstage, hstage]
      exact Nat.add_lt_add_right hlt n

end ReportsFrom

end Failures

end ChainClient
