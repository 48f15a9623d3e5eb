import ChainClient.Proofs.Value.Grammar

/-!
# Walks that end alike

Two walks over the same bytes are compared step by step: where the first gets through, the
second gets through to the same rest, and where the first fails, the second fails as well, unless
the failure is of a check that only the first one makes. Steps that end alike do so one after
the other, so the comparison of whole walks follows the type.

The walk that validates and the walk that shows values end alike in this sense. The checks that
only the first one makes are those against long lists without bytes and repeated keys, which
keep the work of a validator within the size of its input; values of unstated structure make no
difference, since both walks give them all bytes.
-/

namespace ChainClient

/-! ## Outcomes -/

/-- The outcomes of a walk that finds the end of a value and of one that reads the value. Only
the first makes the checks whose failures are `own`. -/
inductive EndsLike (own : WireError → Prop) {α : Type} :
    Except WireError Bytes → Except WireError (α × Bytes) → Prop
  | ok (a : α) (rest : Bytes) : EndsLike own (.ok rest) (.ok (a, rest))
  | error (e e' : WireError) : EndsLike own (.error e) (.error e')
  | refused {e : WireError} (he : own e) (y : Except WireError (α × Bytes)) :
    EndsLike own (.error e) y

namespace EndsLike

variable {own : WireError → Prop} {α β γ : Type} {x : Except WireError Bytes}
  {y : Except WireError (α × Bytes)}

theorem exists_eq_ok {rest : Bytes} (h : EndsLike own (.ok rest) y) : ∃ a, y = .ok (a, rest) := by
  cases h with
  | ok a => exact ⟨a, rfl⟩

theorem own_of_eq_ok {e : WireError} {p : α × Bytes} (h : EndsLike own (.error e) y)
    (hy : y = .ok p) : own e := by
  cases h with
  | error => cases hy
  | refused he => exact he

/-- If the first walk makes no checks of its own then both accept the same bytes. -/
theorem eq_ok_iff {rest : Bytes} (h : EndsLike (fun _ ↦ False) x y) :
    x = .ok rest ↔ ∃ a, y = .ok (a, rest) := by
  cases h with
  | ok a rest' => simp
  | error => simp
  | refused he => exact he.elim

theorem bind {f : Bytes → Except WireError Bytes} {g : α × Bytes → Except WireError (β × Bytes)}
    (h : EndsLike own x y)
    (hnext : ∀ a rest, y = .ok (a, rest) → EndsLike own (f rest) (g (a, rest))) :
    EndsLike own (x >>= f) (y >>= g) := by
  cases h with
  | ok a rest => exact hnext a rest rfl
  | error e e' => exact .error e e'
  | refused he => exact .refused he _

/-- What the second walk has read is only converted. -/
theorem map (h : EndsLike own x y) (f : α → β) :
    EndsLike own x (y >>= fun p ↦ .ok (f p.1, p.2)) := by
  cases h with
  | ok a rest => exact .ok (f a) rest
  | error e e' => exact .error e e'
  | refused he => exact .refused he _

/-- A step that both walks make. -/
theorem after {step : Except WireError γ} {f : γ → Except WireError Bytes}
    {g : γ → Except WireError (α × Bytes)} (hnext : ∀ c, EndsLike own (f c) (g c)) :
    EndsLike own (step >>= f) (step >>= g) := by
  cases step with
  | ok c => exact hnext c
  | error e => exact .error e e

/-- A check that only the first walk makes. -/
theorem check {step : Except WireError Unit} (hstep : ∀ e, step = .error e → own e)
    (h : EndsLike own x y) : EndsLike own (step >>= fun _ ↦ x) y := by
  cases step with
  | ok => exact h
  | error e => exact .refused (hstep e rfl) y

theorem skipOne [Wire α] (bytes : Bytes) :
    EndsLike own (ChainClient.skipOne α bytes)
      (Wire.read bytes : Except WireError (α × Bytes)) := by
  unfold ChainClient.skipOne
  cases (Wire.read bytes : Except WireError (α × Bytes)) with
  | ok p => exact .ok p.1 p.2
  | error e => exact .error e e

/-- Both walks look at a tag byte first. -/
theorem tagged {f g : Bytes → Except WireError Bytes}
    {f' g' : Bytes → Except WireError (α × Bytes)} {tag tag' : UInt8} {place : TagPlace}
    (hf : ∀ bytes, EndsLike own (f bytes) (f' bytes))
    (hg : ∀ bytes, EndsLike own (g bytes) (g' bytes)) (p : UInt8 × Bytes) :
    EndsLike own
      (if p.1 = tag then f p.2 else if p.1 = tag' then g p.2 else .error (.unknownTag place p.1))
      (if p.1 = tag then f' p.2 else if p.1 = tag' then g' p.2
        else .error (.unknownTag place p.1)) := by
  by_cases htag : p.1 = tag
  · rw [if_pos htag, if_pos htag]
    exact hf p.2
  rw [if_neg htag, if_neg htag]
  by_cases htag' : p.1 = tag'
  · rw [if_pos htag', if_pos htag']
    exact hg p.2
  · rw [if_neg htag', if_neg htag']
    exact .error _ _

end EndsLike

/-! ## Validating and showing -/

/-- The failures of the checks that the walk which shows values leaves out. -/
inductive IsRepetitionFault : WireError → Prop
  | zeroWidth : IsRepetitionFault (.malformed .tooManyZeroWidthElements)
  | duplicateKey : IsRepetitionFault (.malformed .duplicateMapKey)

theorem isRepetitionFault_of_checkZeroWidth {before after : Bytes} {count : Nat} {e : WireError}
    (h : Wire.checkZeroWidth before after count = .error e) : IsRepetitionFault e := by
  unfold Wire.checkZeroWidth at h
  split at h
  · obtain rfl := Except.error.inj h
    exact .zeroWidth
  · cases h

section Repeated

variable {skip skip' : Bytes → Except WireError Bytes}
  {render render' : Bytes → Except WireError (Json × Bytes)}

theorem EndsLike.renderItems (h : ∀ bytes, EndsLike IsRepetitionFault (skip bytes) (render bytes))
    (count n : Nat) (bytes : Bytes) :
    EndsLike IsRepetitionFault (skipItems skip count n bytes)
      (ChainClient.renderItems render n bytes) := by
  induction n generalizing bytes with
  | zero => exact .ok [] bytes
  | succ n ih =>
    refine (h bytes).bind fun item rest _ ↦ ?_
    exact .check (fun e ↦ isRepetitionFault_of_checkZeroWidth) ((ih rest).map (item :: ·))

/-- A repeated key is found before its value is looked at, so there the walks part. -/
theorem EndsLike.renderEntries
    (hkey : ∀ bytes, EndsLike IsRepetitionFault (skip bytes) (render bytes))
    (hvalue : ∀ bytes, EndsLike IsRepetitionFault (skip' bytes) (render' bytes))
    (seen : List Bytes) (n : Nat) (bytes : Bytes) :
    EndsLike IsRepetitionFault (skipEntries skip skip' seen n bytes)
      (ChainClient.renderEntries render render' n bytes) := by
  induction n generalizing seen bytes with
  | zero => exact .ok [] bytes
  | succ n ih =>
    refine (hkey bytes).bind fun key middle _ ↦ ?_
    dsimp only
    split
    · exact .refused .duplicateKey _
    · exact (hvalue middle).bind fun value rest _ ↦
        (ih _ rest).map (Json.obj [("key", key), ("value", value)] :: ·)

end Repeated

theorem ClLeaf.endsLike (l : ClLeaf) (bytes : Bytes) :
    EndsLike IsRepetitionFault (l.skip bytes) (l.render bytes) := by
  by_cases hl : l = .any
  · subst hl
    exact .ok _ []
  · obtain ⟨α, _, toJson, hwalked, -⟩ := isWalked hl
    rw [hwalked.skip_eq, hwalked.render_eq]
    exact (EndsLike.skipOne bytes).map toJson

namespace ClType

theorem endsLike (t : ClType) (bytes : Bytes) :
    EndsLike IsRepetitionFault (t.skip bytes) (t.render bytes) := by
  induction t generalizing bytes with
  | leaf l => exact l.endsLike bytes
  | option t ih => exact .after <| .tagged (.ok .null) ih
  | list t ih => exact .after fun p ↦ (EndsLike.renderItems ih p.1 p.1 p.2).map Json.arr
  | byteArray size => exact .after fun p ↦ .ok (Json.str (Text.Hex.text p.1)) p.2
  | result a b iha ihb =>
    exact .after <| .tagged (fun bytes ↦ (iha bytes).map fun value ↦ Json.obj [("Ok", value)])
      fun bytes ↦ (ihb bytes).map fun value ↦ Json.obj [("Err", value)]
  | map k v ihk ihv =>
    exact .after fun p ↦ (EndsLike.renderEntries ihk ihv [] p.1 p.2).map Json.arr
  | tuple1 t ih => exact (ih bytes).map fun x ↦ Json.arr [x]
  | tuple2 a b iha ihb =>
    exact (iha bytes).bind fun x rest _ ↦ (ihb rest).map fun y ↦ Json.arr [x, y]
  | tuple3 a b c iha ihb ihc =>
    exact (iha bytes).bind fun x rest _ ↦ (ihb rest).bind fun y rest' _ ↦
      (ihc rest').map fun z ↦ Json.arr [x, y, z]

theorem exists_render_of_skip {t : ClType} {bytes rest : Bytes} (h : t.skip bytes = .ok rest) :
    ∃ value, t.render bytes = .ok (value, rest) := by
  have hends := t.endsLike bytes
  rw [h] at hends
  exact hends.exists_eq_ok

/-- What passes the one walk passes the other up to the same rest. What is shown nevertheless
fails the first walk only for a long list without bytes or for a repeated key. -/
theorem walks_agree (t : ClType) (bytes : Bytes) :
    (∀ rest, t.skip bytes = .ok rest → ∃ value, t.render bytes = .ok (value, rest)) ∧
      (∀ value rest e, t.render bytes = .ok (value, rest) → t.skip bytes = .error e →
        e = .malformed .tooManyZeroWidthElements ∨ e = .malformed .duplicateMapKey) := by
  constructor
  · exact fun rest ↦ exists_render_of_skip
  · intro value rest e hrender hskip
    have hends := t.endsLike bytes
    rw [hskip] at hends
    cases hends.own_of_eq_ok hrender with
    | zeroWidth => exact .inl rfl
    | duplicateKey => exact .inr rfl

/-- A value of unstated structure in a map, and a map that only the first walk refuses. -/
theorem walks_agree_on_maps :
    (∃ value, (map (.leaf .u8) (.leaf .any)).render [1, 0, 0, 0, 5, 9, 9] = .ok (value, [])) ∧
      ∃ e, (map (.leaf .u8) (.leaf .unit)).skip [2, 0, 0, 0, 5, 5, 7] = .error e ∧
        (e = .malformed .tooManyZeroWidthElements ∨ e = .malformed .duplicateMapKey) := by
  have hskip : (map (.leaf .u8) (.leaf .any)).skip [1, 0, 0, 0, 5, 9, 9] = .ok [] := rfl
  have hrefused : (map (.leaf .u8) (.leaf .unit)).skip [2, 0, 0, 0, 5, 5, 7] =
      .error (.malformed .duplicateMapKey) := rfl
  let entry : Json := .obj [("key", .int 5), ("value", .null)]
  have hrender : (map (.leaf .u8) (.leaf .unit)).render [2, 0, 0, 0, 5, 5, 7] =
      .ok (.arr [entry, entry], [7]) := rfl
  exact ⟨(walks_agree _ _).1 [] hskip, _, hrefused, (walks_agree _ _).2 _ _ _ hrender hrefused⟩

end ClType

end ChainClient
