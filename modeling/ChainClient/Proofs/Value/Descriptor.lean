import ChainClient.Proofs.Wire.Scalar
import ChainClient.Value.ClType

/-!
# Forms of type descriptors

A reader that may still go down some levels accepts exactly the written forms of the
descriptors that nest no deeper. The reader with the limit of the network therefore does not
take back what is written of a deeper descriptor, but no two descriptors share their bytes
either: a reader with enough levels for both of them would have to return both.
-/

namespace ChainClient

namespace ClLeaf

theorem tag_of_ofTag? {tag : UInt8} {l : ClLeaf} (h : ofTag? tag = some l) : l.tag = tag :=
  eq_of_beq (List.find?_some (p := fun leaf : ClLeaf ↦ leaf.tag == tag) h)

end ClLeaf

namespace ClType

theorem nesting_pos (t : ClType) : 0 < t.nesting := by
  cases t <;> simp [nesting]

theorem exists_levels_eq_succ {t : ClType} {levels : Nat} (h : t.nesting ≤ levels) :
    ∃ below, levels = below + 1 :=
  Nat.exists_eq_succ_of_ne_zero (Nat.ne_of_gt (Nat.lt_of_lt_of_le t.nesting_pos h))

/-! ## Written forms are accepted -/

/-- A type of at most the given levels reads back from the front of any input. -/
theorem readWithin_bytes {levels : Nat} {t : ClType} (hnesting : t.nesting ≤ levels)
    (rest : Bytes) : readWithin levels (t.bytes ++ rest) = .ok (t, rest) := by
  induction t generalizing levels rest with
  | leaf l =>
    obtain ⟨levels, rfl⟩ := exists_levels_eq_succ hnesting
    cases l <;> rfl
  | byteArray size =>
    obtain ⟨levels, rfl⟩ := exists_levels_eq_succ hnesting
    have hsize : Wire.readNat 4 (Wire.leBytes 4 size.toNat ++ rest) = .ok (size.toNat, rest) :=
      Wire.readNat_eq_ok.2 ⟨size.toNat_lt, rfl⟩
    simp [bytes, readWithin, hsize]
  | option a ih | list a ih | tuple1 a ih =>
    obtain ⟨levels, rfl⟩ := exists_levels_eq_succ hnesting
    have ha : a.nesting ≤ levels := Nat.le_of_succ_le_succ hnesting
    simp [bytes, readWithin, ih ha]
  | result a b iha ihb | map a b iha ihb | tuple2 a b iha ihb =>
    obtain ⟨levels, rfl⟩ := exists_levels_eq_succ hnesting
    have hab : max a.nesting b.nesting ≤ levels := Nat.le_of_succ_le_succ hnesting
    obtain ⟨ha, hb⟩ := Nat.max_le.1 hab
    simp [bytes, readWithin, iha ha, ihb hb]
  | tuple3 a b c iha ihb ihc =>
    obtain ⟨levels, rfl⟩ := exists_levels_eq_succ hnesting
    have habc : max a.nesting (max b.nesting c.nesting) ≤ levels :=
      Nat.le_of_succ_le_succ hnesting
    obtain ⟨ha, hbc⟩ := Nat.max_le.1 habc
    obtain ⟨hb, hc⟩ := Nat.max_le.1 hbc
    simp [bytes, readWithin, iha ha, ihb hb, ihc hc]

/-! ## Nothing else is accepted -/

/-- The reader accepts written forms only, of descriptors within its levels. -/
def IsSound (levels : Nat) : Prop :=
  ∀ {bytes rest : Bytes} {t : ClType}, readWithin levels bytes = .ok (t, rest) →
    t.nesting ≤ levels ∧ bytes = t.bytes ++ rest

section Composite

variable {levels : Nat} {tag : UInt8} {bytes rest : Bytes} {t : ClType}

/-- The step of the soundness proof for the constructors with one part. -/
theorem IsSound.one (hsound : IsSound levels) {make : ClType → ClType}
    (hnesting : ∀ a, (make a).nesting = a.nesting + 1)
    (hbytes : ∀ a, (make a).bytes = tag :: a.bytes)
    (h : (do
      let (a, rest) ← readWithin levels bytes
      return (make a, rest)) = .ok (t, rest)) :
    t.nesting ≤ levels + 1 ∧ tag :: bytes = t.bytes ++ rest := by
  obtain ⟨⟨a, rest'⟩, ha, h⟩ := Wire.bind_eq_ok.1 h
  obtain ⟨rfl, rfl⟩ := Prod.mk.inj (Wire.pure_eq_ok.1 h)
  obtain ⟨hlevels, rfl⟩ := hsound ha
  rw [hnesting, hbytes]
  exact ⟨Nat.succ_le_succ hlevels, rfl⟩

/-- The step for the constructors with two parts; the deeper one decides the levels. -/
theorem IsSound.two (hsound : IsSound levels) {make : ClType → ClType → ClType}
    (hnesting : ∀ a b, (make a b).nesting = max a.nesting b.nesting + 1)
    (hbytes : ∀ a b, (make a b).bytes = tag :: (a.bytes ++ b.bytes))
    (h : (do
      let (a, rest) ← readWithin levels bytes
      let (b, rest) ← readWithin levels rest
      return (make a b, rest)) = .ok (t, rest)) :
    t.nesting ≤ levels + 1 ∧ tag :: bytes = t.bytes ++ rest := by
  obtain ⟨⟨a, middle⟩, ha, h⟩ := Wire.bind_eq_ok.1 h
  obtain ⟨⟨b, rest'⟩, hb, h⟩ := Wire.bind_eq_ok.1 h
  obtain ⟨rfl, rfl⟩ := Prod.mk.inj (Wire.pure_eq_ok.1 h)
  obtain ⟨hlevelsA, rfl⟩ := hsound ha
  obtain ⟨hlevelsB, rfl⟩ := hsound hb
  rw [hnesting, hbytes, List.cons_append, List.append_assoc]
  exact ⟨Nat.succ_le_succ (Nat.max_le.2 ⟨hlevelsA, hlevelsB⟩), rfl⟩

/-- The step for the constructor with three parts. -/
theorem IsSound.three (hsound : IsSound levels) {make : ClType → ClType → ClType → ClType}
    (hnesting : ∀ a b c, (make a b c).nesting = max a.nesting (max b.nesting c.nesting) + 1)
    (hbytes : ∀ a b c, (make a b c).bytes = tag :: (a.bytes ++ b.bytes ++ c.bytes))
    (h : (do
      let (a, rest) ← readWithin levels bytes
      let (b, rest) ← readWithin levels rest
      let (c, rest) ← readWithin levels rest
      return (make a b c, rest)) = .ok (t, rest)) :
    t.nesting ≤ levels + 1 ∧ tag :: bytes = t.bytes ++ rest := by
  obtain ⟨⟨a, middle⟩, ha, h⟩ := Wire.bind_eq_ok.1 h
  obtain ⟨⟨b, middle'⟩, hb, h⟩ := Wire.bind_eq_ok.1 h
  obtain ⟨⟨c, rest'⟩, hc, h⟩ := Wire.bind_eq_ok.1 h
  obtain ⟨rfl, rfl⟩ := Prod.mk.inj (Wire.pure_eq_ok.1 h)
  obtain ⟨hlevelsA, rfl⟩ := hsound ha
  obtain ⟨hlevelsB, rfl⟩ := hsound hb
  obtain ⟨hlevelsC, rfl⟩ := hsound hc
  have hlevels := Nat.max_le.2 ⟨hlevelsA, Nat.max_le.2 ⟨hlevelsB, hlevelsC⟩⟩
  rw [hnesting, hbytes, List.cons_append, List.append_assoc, List.append_assoc]
  exact ⟨Nat.succ_le_succ hlevels, rfl⟩

theorem isSound_byteArray (h : (do
      let (size, rest) ← Wire.readNat 4 bytes
      return (byteArray (UInt32.ofNat size), rest)) = .ok (t, rest)) :
    t.nesting ≤ levels + 1 ∧ 15 :: bytes = t.bytes ++ rest := by
  obtain ⟨⟨size, rest'⟩, hsize, h⟩ := Wire.bind_eq_ok.1 h
  obtain ⟨rfl, rfl⟩ := Prod.mk.inj (Wire.pure_eq_ok.1 h)
  obtain ⟨hlt, rfl⟩ := Wire.readNat_eq_ok.1 hsize
  refine ⟨Nat.succ_le_succ (Nat.zero_le levels), ?_⟩
  rw [ClType.bytes, UInt32.toNat_ofNat_of_lt' hlt]
  rfl

end Composite

/-- Each composite spends one of the levels on its tag. -/
theorem isSound (levels : Nat) : IsSound levels := by
  induction levels with
  | zero => exact fun h ↦ absurd h (by simp [readWithin])
  | succ levels ih =>
    intro bytes rest t h
    cases bytes with
    | nil => cases h
    | cons tag bytes =>
      rw [readWithin] at h
      split at h
      case isTrue htag => exact htag ▸ ih.one (fun _ ↦ rfl) (fun _ ↦ rfl) h
      split at h
      case isTrue htag => exact htag ▸ ih.one (fun _ ↦ rfl) (fun _ ↦ rfl) h
      split at h
      case isTrue htag => exact htag ▸ isSound_byteArray h
      split at h
      case isTrue htag => exact htag ▸ ih.two (fun _ _ ↦ rfl) (fun _ _ ↦ rfl) h
      split at h
      case isTrue htag => exact htag ▸ ih.two (fun _ _ ↦ rfl) (fun _ _ ↦ rfl) h
      split at h
      case isTrue htag => exact htag ▸ ih.one (fun _ ↦ rfl) (fun _ ↦ rfl) h
      split at h
      case isTrue htag => exact htag ▸ ih.two (fun _ _ ↦ rfl) (fun _ _ ↦ rfl) h
      split at h
      case isTrue htag => exact htag ▸ ih.three (fun _ _ _ ↦ rfl) (fun _ _ _ ↦ rfl) h
      cases hleaf : ClLeaf.ofTag? tag with
      | none =>
        rw [hleaf] at h
        cases h
      | some l =>
        rw [hleaf] at h
        obtain ⟨rfl, rfl⟩ := Prod.mk.inj (Except.ok.inj h)
        refine ⟨Nat.succ_le_succ (Nat.zero_le levels), ?_⟩
        rw [ClType.bytes, ClLeaf.tag_of_ofTag? hleaf]
        rfl

/-! ## Laws -/

/-- Reading with a budget of levels accepts the written types of at most that nesting, and no other
bytes. -/
theorem readWithin_eq_ok {levels : Nat} {bytes rest : Bytes} {t : ClType} :
    readWithin levels bytes = .ok (t, rest) ↔ t.nesting ≤ levels ∧ bytes = t.bytes ++ rest := by
  constructor
  · intro h
    exact isSound levels h
  · rintro ⟨hlevels, rfl⟩
    exact readWithin_bytes hlevels rest

instance : Wire.Unambiguous ClType where
  eq_of_append_eq {x y front front' rest rest'} hx hy h := by
    obtain rfl := Except.ok.inj hx
    obtain rfl := Except.ok.inj hy
    let levels := max x.nesting y.nesting
    have hreadX : readWithin levels (x.bytes ++ rest) = .ok (x, rest) :=
      readWithin_bytes (Nat.le_max_left _ _) rest
    have hreadY : readWithin levels (y.bytes ++ rest') = .ok (y, rest') :=
      readWithin_bytes (Nat.le_max_right _ _) rest'
    rw [h, hreadY] at hreadX
    simpa [eq_comm] using hreadX

end ClType

end ChainClient
