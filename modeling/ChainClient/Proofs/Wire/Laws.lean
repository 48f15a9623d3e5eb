import ChainClient.Wire.Basic

/-!
# Laws of binary forms

What a form promises is stated here once for all types, and the later modules show it type
by type. A value is readable if its written form reads back whatever follows. A form is
lossless if all its values are readable, canonical if its reader accepts written forms only,
and unambiguous if no bytes begin with the written forms of two values; the last law speaks
of the writer alone, so it also covers values that no reader accepts. Each law of a composite
follows from the same law of its parts.
-/

namespace ChainClient.Wire

/-! ## Steps that may fail -/

section Outcome

variable {ε α β : Type}

theorem bind_eq_ok {x : Except ε α} {f : α → Except ε β} {b : β} :
    x >>= f = .ok b ↔ ∃ a, x = .ok a ∧ f a = .ok b := by
  cases x <;> simp [bind, Except.bind]

theorem bind_of_eq_ok {x : Except ε α} {f : α → Except ε β} {a : α} {b : β} (hx : x = .ok a)
    (hf : f a = .ok b) : x >>= f = .ok b := by
  rw [hx]
  exact hf

/-- A step that only checks. -/
theorem bind_unit_eq_ok {x : Except ε Unit} {f : Unit → Except ε β} {b : β} :
    x >>= f = .ok b ↔ x = .ok () ∧ f () = .ok b := by
  rw [bind_eq_ok]
  exact ⟨fun ⟨(), h⟩ ↦ h, fun h ↦ ⟨(), h⟩⟩

theorem pure_eq_ok {a b : α} : (pure a : Except ε α) = .ok b ↔ a = b := by
  simp [pure, Except.pure]

/-- A check in the middle of other steps. -/
theorem guard_eq_ok {c : Prop} [Decidable c] {e : ε} {f : α → Except ε β} {x : Except ε β} {b : β} :
    (if c then throw e >>= f else x) = .ok b ↔ ¬c ∧ x = .ok b := by
  by_cases h : c
  · simp only [h, if_true, not_true_eq_false, false_and, iff_false]
    exact fun hthrow ↦ nomatch hthrow
  · simp only [h, if_false, not_false_eq_true, true_and]

/-- Outcomes are compared by evaluation once they are options. -/
theorem eq_ok_of_toOption {x : Except ε α} {a : α} (h : x.toOption = some a) : x = .ok a := by
  cases x with
  | error e => cases h
  | ok b => rw [Option.some.inj h]

theorem exists_eq_ok_of_isSome {x : Except ε α} (h : x.toOption.isSome = true) :
    ∃ a, x = .ok a := by
  obtain ⟨a, ha⟩ := Option.isSome_iff_exists.1 h
  exact ⟨a, eq_ok_of_toOption ha⟩

/-- A failure that is only told differently. -/
theorem mapError_eq_ok {ε' : Type} {x : Except ε α} {f : ε → ε'} {a : α} :
    x.mapError f = .ok a ↔ x = .ok a := by
  cases x <;> constructor <;> intro h <;> cases h <;> rfl

/-- A renamed error comes from an error before the renaming. -/
theorem mapError_eq_error {ε' : Type} {x : Except ε α} {f : ε → ε'} {e : ε'} :
    x.mapError f = .error e ↔ ∃ cause, x = .error cause ∧ f cause = e := by
  cases x with
  | error cause =>
    change Except.error (f cause) = .error e ↔ _
    simp
  | ok a =>
    change Except.ok a = .error e ↔ _
    simp

theorem toOption_bind {x : Except ε α} {f : α → Except ε β} :
    (x >>= f).toOption = x.toOption.bind fun a ↦ (f a).toOption := by
  cases x <;> rfl

@[simp] theorem ok_bind {a : α} {f : α → Except ε β} : (.ok a : Except ε α) >>= f = f a := rfl

@[simp] theorem error_bind {e : ε} {f : α → Except ε β} :
    (.error e : Except ε α) >>= f = .error e := rfl

@[simp] theorem error_map {e : ε} {f : α → β} : f <$> (.error e : Except ε α) = .error e := by
  simp only [Functor.map, Except.map]

@[simp] theorem ok_map {a : α} {f : α → β} : f <$> (.ok a : Except ε α) = .ok (f a) := by
  simp only [Functor.map, Except.map]

end Outcome

variable {α β : Type} [Wire α] [Wire β]

/-! ## The laws -/

/-- What is written of the value reads back, whatever follows. -/
def Readable (x : α) : Prop :=
  ∀ bytes rest : Bytes, write x = .ok bytes → read (bytes ++ rest) = .ok (x, rest)

/-- The value is what its own written form reads as. -/
def RoundTrips (x : α) : Prop := (do readAll (← write x)) = .ok x

/-- Every value is readable. -/
class Lossless (α : Type) [Wire α] : Prop where
  readable : ∀ x : α, Readable x

/-- Bytes are accepted only if they begin with the written form of the value that is read. -/
class Canonical (α : Type) [Wire α] : Prop where
  write_of_read : ∀ {bytes rest : Bytes} {x : α}, read bytes = .ok (x, rest) →
    ∃ front, write x = .ok front ∧ bytes = front ++ rest

/-- No bytes begin with the written forms of two values. -/
class Unambiguous (α : Type) [Wire α] : Prop where
  eq_of_append_eq : ∀ {x y : α} {front front' rest rest' : Bytes}, write x = .ok front →
    write y = .ok front' → front ++ rest = front' ++ rest' → x = y ∧ rest = rest'

/-- Either every value takes bytes or none does. -/
class UniformlyEmpty (α : Type) [Wire α] : Prop where
  eq_nil : ∀ {x y : α} {bytes : Bytes}, write x = .ok [] → write y = .ok bytes → bytes = []

/-- The reader accepts exactly the written forms. -/
class Exact (α : Type) [Wire α] : Prop extends Lossless α, Canonical α

/-! ## Consequences -/

/-- One equivalence for reading gives both directions of exactness. -/
theorem Exact.of_read_eq_ok
    (h : ∀ {bytes rest : Bytes} {x : α}, read bytes = .ok (x, rest) ↔
      ∃ front, write x = .ok front ∧ bytes = front ++ rest) : Exact α where
  readable _ bytes _ hw := h.2 ⟨bytes, hw, rfl⟩
  write_of_read := h.1

/-- No value is written without bytes. -/
theorem UniformlyEmpty.of_ne_nil (h : ∀ x : α, write x ≠ .ok []) : UniformlyEmpty α where
  eq_nil hx _ := absurd hx (h _)

theorem readAll_eq_ok {bytes : Bytes} {x : α} :
    readAll bytes = .ok x ↔ read bytes = .ok (x, []) := by
  unfold readAll
  rw [bind_eq_ok]
  constructor
  · rintro ⟨⟨y, rest⟩, hread, h⟩
    cases rest with
    | nil =>
      have hy : y = x := by simpa using h
      rw [hread, hy]
    | cons b rest => simp at h
  · intro h
    exact ⟨(x, []), h, by simp⟩

/-- A reader that has to use up its input gets the value back as well. -/
theorem Readable.readAll_eq {x : α} (hx : Readable x) {bytes : Bytes}
    (hw : write x = .ok bytes) : readAll bytes = .ok x := by
  have h := hx bytes [] hw
  rw [List.append_nil] at h
  exact readAll_eq_ok.2 h

/-- A canonical reader that uses up its input has read a written form. -/
theorem write_of_readAll [Canonical α] {x : α} {bytes : Bytes} (h : readAll bytes = .ok x) :
    write x = .ok bytes := by
  obtain ⟨front, hw, rfl⟩ := Canonical.write_of_read (readAll_eq_ok.1 h)
  rw [List.append_nil]
  exact hw

theorem RoundTrips.exists_read {x : α} (h : RoundTrips x) :
    ∃ bytes, write x = .ok bytes ∧ read bytes = .ok (x, []) := by
  obtain ⟨bytes, hw, hr⟩ := bind_eq_ok.1 h
  exact ⟨bytes, hw, readAll_eq_ok.1 hr⟩

/-- One reader cannot return two values for the same bytes. -/
instance (priority := low) [Lossless α] : Unambiguous α where
  eq_of_append_eq {x y front front' rest rest'} hx hy h := by
    have hreadX := Lossless.readable x front rest hx
    have hreadY := Lossless.readable y front' rest' hy
    rw [h, hreadY] at hreadX
    simpa [eq_comm] using hreadX

/-- Unambiguous values share no encoding, the case of an empty rest on both sides. -/
theorem write_injective [Unambiguous α] {x y : α} {bytes : Bytes} (hx : write x = .ok bytes)
    (hy : write y = .ok bytes) : x = y := by
  have happend : bytes ++ [] = bytes ++ [] := rfl
  exact (Unambiguous.eq_of_append_eq hx hy happend).1

/-! ## The form of another type -/

section Via

variable {α β : Type} [Wire β] {toParts : α → β} {ofParts : β → α}

theorem Readable.via {x : α} (h : ofParts (toParts x) = x) (hx : Readable (toParts x)) :
    @Readable α (Wire.via toParts ofParts) x := by
  intro bytes rest hw
  exact bind_of_eq_ok (hx bytes rest hw) (pure_eq_ok.2 (Prod.ext h rfl))

theorem Lossless.via [Lossless β] (h : ∀ x, ofParts (toParts x) = x) :
    @Lossless α (Wire.via toParts ofParts) :=
  @Lossless.mk α (Wire.via toParts ofParts) fun x ↦ Readable.via (h x) (Lossless.readable _)

theorem Canonical.via [Canonical β] (h : ∀ parts, toParts (ofParts parts) = parts) :
    @Canonical α (Wire.via toParts ofParts) :=
  @Canonical.mk α (Wire.via toParts ofParts) fun {bytes rest x} hread ↦ by
    obtain ⟨⟨parts, rest'⟩, hparts, hx⟩ := bind_eq_ok.1 hread
    obtain ⟨rfl, rfl⟩ := Prod.mk.inj (pure_eq_ok.1 hx)
    obtain ⟨front, hw, hbytes⟩ := Canonical.write_of_read hparts
    refine ⟨front, ?_, hbytes⟩
    change write (toParts (ofParts parts)) = .ok front
    rw [h, hw]

/-- Exactness goes through parts that stand for the values one to one. -/
theorem Exact.via [Exact β] (h : ∀ x, ofParts (toParts x) = x)
    (h' : ∀ parts, toParts (ofParts parts) = parts) : @Exact α (Wire.via toParts ofParts) :=
  @Exact.mk α (Wire.via toParts ofParts) (.via h) (.via h')

theorem Unambiguous.via [Unambiguous β] (h : ∀ x, ofParts (toParts x) = x) :
    @Unambiguous α (Wire.via toParts ofParts) :=
  @Unambiguous.mk α (Wire.via toParts ofParts) fun {x y _ _ _ _} hx hy happend ↦ by
    obtain ⟨hparts, hrest⟩ := Unambiguous.eq_of_append_eq (α := β) hx hy happend
    refine ⟨?_, hrest⟩
    calc
      x = ofParts (toParts x) := (h x).symm
      _ = ofParts (toParts y) := by rw [hparts]
      _ = y := h y

theorem UniformlyEmpty.via [UniformlyEmpty β] :
    @UniformlyEmpty α (Wire.via toParts ofParts) :=
  @UniformlyEmpty.mk α (Wire.via toParts ofParts) fun hx hy ↦
    UniformlyEmpty.eq_nil (α := β) hx hy

end Via

/-! ## Tagged alternatives -/

section Tagged

variable {tag : UInt8} {make : β → α} {x y : β}

/-- The alternative is written as its tag and the form of its parts. -/
def IsWrittenTagged (tag : UInt8) (make : β → α) : Prop :=
  ∀ x, write (make x) = (do return tag :: (← write x) : Except WireError Bytes)

/-- Behind the tag, the reader takes the parts of the alternative. -/
def IsReadTagged (tag : UInt8) (make : β → α) : Prop :=
  ∀ bytes, read (tag :: bytes) = (do
    let (x, rest) ← read bytes
    return (make x, rest) : Except WireError (α × Bytes))

theorem IsWrittenTagged.write_eq_ok (hwrite : IsWrittenTagged tag make) {bytes : Bytes} :
    write (make x) = .ok bytes ↔ ∃ body, write x = .ok body ∧ tag :: body = bytes := by
  rw [hwrite, bind_eq_ok]
  simp only [pure_eq_ok]

theorem IsWrittenTagged.ne_nil (hwrite : IsWrittenTagged tag make) : write (make x) ≠ .ok [] := by
  intro h
  obtain ⟨body, -, hcons⟩ := hwrite.write_eq_ok.1 h
  cases hcons

/-- An alternative reads back if its content does and its tag is asked for. -/
theorem Readable.tagged (hwrite : IsWrittenTagged tag make) (hread : IsReadTagged tag make)
    (hx : Readable x) : Readable (make x) := by
  intro bytes rest hw
  obtain ⟨body, hbody, rfl⟩ := hwrite.write_eq_ok.1 hw
  rw [List.cons_append, hread, hx body rest hbody]
  rfl

/-- What is read behind a tag was written behind it. -/
theorem IsWrittenTagged.write_of_read [Canonical β] (hwrite : IsWrittenTagged tag make)
    {bytes rest : Bytes} {a : α} (h : (do
      let (x, rest) ← read bytes
      return (make x, rest)) = .ok (a, rest)) :
    ∃ front, write a = .ok front ∧ tag :: bytes = front ++ rest := by
  obtain ⟨⟨x, rest'⟩, hx, ha⟩ := bind_eq_ok.1 h
  obtain ⟨rfl, rfl⟩ := Prod.mk.inj (pure_eq_ok.1 ha)
  obtain ⟨body, hbody, rfl⟩ := Canonical.write_of_read hx
  exact ⟨tag :: body, hwrite.write_eq_ok.2 ⟨body, hbody, rfl⟩, rfl⟩

/-- Two values of one alternative are told apart by their contents. -/
theorem IsWrittenTagged.eq_of_append_eq [Unambiguous β] (hwrite : IsWrittenTagged tag make)
    {front front' rest rest' : Bytes} (hx : write (make x) = .ok front)
    (hy : write (make y) = .ok front') (h : front ++ rest = front' ++ rest') :
    make x = make y ∧ rest = rest' := by
  obtain ⟨body, hbody, rfl⟩ := hwrite.write_eq_ok.1 hx
  obtain ⟨body', hbody', rfl⟩ := hwrite.write_eq_ok.1 hy
  have hbodies := Unambiguous.eq_of_append_eq hbody hbody' (List.cons.inj h).2
  exact ⟨by rw [hbodies.1], hbodies.2⟩

/-- Alternatives under different tags do not begin alike. -/
theorem IsWrittenTagged.false_of_append_eq {γ : Type} [Wire γ] {tag' : UInt8} {make' : γ → α}
    {z : γ} (hwrite : IsWrittenTagged tag make) (hwrite' : IsWrittenTagged tag' make')
    (htag : tag ≠ tag') {front front' rest rest' : Bytes} (hx : write (make x) = .ok front)
    (hz : write (make' z) = .ok front') (h : front ++ rest = front' ++ rest') : False := by
  obtain ⟨body, -, rfl⟩ := hwrite.write_eq_ok.1 hx
  obtain ⟨body', -, rfl⟩ := hwrite'.write_eq_ok.1 hz
  exact htag (List.cons.inj h).1

end Tagged

end ChainClient.Wire
