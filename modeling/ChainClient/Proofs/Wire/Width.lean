import ChainClient.Proofs.Wire.BigUInt
import ChainClient.Proofs.Wire.Container

/-!
# Widths of written forms

The width that a type states is the length of what its writer produces. A writer refuses counts
and lengths of more than 32 bits, so every value whose width is below that bound is written; the
only other refusal is of long lists whose elements take no bytes, and a list of elements that
take some is never refused for that.
-/

namespace ChainClient.Wire

variable {α β : Type} [Wire α] [Wire β]

theorem total_append (ns ms : List Nat) : total (ns ++ ms) = total ns + total ms := by
  induction ns with
  | nil => exact (Nat.zero_add _).symm
  | cons n ns ih => simp only [List.cons_append, total, ih, Nat.add_assoc]

/-! ## The laws -/

/-- The written form has the stated width. -/
class Measured (α : Type) [Wire α] : Prop where
  length_eq : ∀ {x : α} {bytes : Bytes}, write x = .ok bytes → bytes.length = width x

/-- A value is written if its width is a number of 32 bits. -/
class Writable (α : Type) [Wire α] : Prop where
  exists_write : ∀ {x : α}, width x < UInt32.size → ∃ bytes, write x = .ok bytes

/-- A type with a total written form is measured by the length of that form. -/
theorem Measured.of_total {form : α → Bytes} (hwrite : ∀ x, write x = .ok (form x))
    (hlength : ∀ x, (form x).length = width x) : Measured α where
  length_eq {x bytes} hw := by
    rw [hwrite] at hw
    obtain rfl := Except.ok.inj hw
    exact hlength x

theorem Writable.of_total {form : α → Bytes} (hwrite : ∀ x : α, write x = .ok (form x)) :
    Writable α where
  exists_write {x} _ := ⟨form x, hwrite x⟩

theorem Measured.via {γ : Type} {toParts : γ → β} {ofParts : β → γ} [Measured β] :
    @Measured γ (Wire.via toParts ofParts) :=
  @Measured.mk γ (Wire.via toParts ofParts) fun hw ↦ Measured.length_eq (α := β) hw

theorem Writable.via {γ : Type} {toParts : γ → β} {ofParts : β → γ} [Writable β] :
    @Writable γ (Wire.via toParts ofParts) :=
  @Writable.mk γ (Wire.via toParts ofParts) fun hwidth ↦
    Writable.exists_write (α := β) hwidth

/-! ## Numbers, bytes and text -/

instance : Measured UInt8 := .of_total (fun _ ↦ rfl) fun _ ↦ rfl

instance : Writable UInt8 := .of_total fun _ ↦ rfl

instance : Measured UInt16 := .of_total (fun _ ↦ rfl) fun _ ↦ length_leBytes 2 _

instance : Writable UInt16 := .of_total fun _ ↦ rfl

instance : Measured UInt32 := .of_total (fun _ ↦ rfl) fun _ ↦ length_leBytes 4 _

instance : Writable UInt32 := .of_total fun _ ↦ rfl

instance : Measured UInt64 := .of_total (fun _ ↦ rfl) fun _ ↦ length_leBytes 8 _

instance : Writable UInt64 := .of_total fun _ ↦ rfl

instance : Measured Int32 := .via

instance : Measured Int64 := .via

instance {size : Nat} : Measured (BigUInt size) where
  length_eq {x bytes} hw := by
    obtain rfl := BigUInt.write_eq_ok.1 hw
    rw [List.length_cons, BigUInt.length_magnitude, Nat.add_comm]
    rfl

instance : Measured Unit := .of_total (fun _ ↦ rfl) fun _ ↦ rfl

instance : Measured Bool := .of_total (fun _ ↦ rfl) fun _ ↦ rfl

instance : Writable Bool := .of_total fun _ ↦ rfl

instance {n : Nat} : Measured (Octets n) := .of_total (fun _ ↦ rfl) Octets.length_toList

instance {n : Nat} : Writable (Octets n) := .of_total fun _ ↦ rfl

theorem length_of_writeCount {n : Nat} {bytes : Bytes} (h : writeCount n = .ok bytes) :
    bytes.length = 4 := by
  obtain ⟨-, rfl⟩ := writeCount_eq_ok.1 h
  exact length_leBytes 4 n

theorem exists_writeCount {n : Nat} (h : n < UInt32.size) : ∃ bytes, writeCount n = .ok bytes :=
  ⟨_, writeCount_eq_ok.2 ⟨h, rfl⟩⟩

theorem length_of_writeBlock {raw bytes : Bytes} (h : writeBlock raw = .ok bytes) :
    bytes.length = 4 + raw.length := by
  obtain ⟨front, hfront, rfl⟩ := writeBlock_eq_ok.1 h
  rw [List.length_append, length_of_writeCount hfront]

theorem exists_writeBlock {raw : Bytes} (h : raw.length < UInt32.size) :
    ∃ bytes, writeBlock raw = .ok bytes := by
  obtain ⟨front, hfront⟩ := exists_writeCount h
  exact ⟨front ++ raw, writeBlock_eq_ok.2 ⟨front, hfront, rfl⟩⟩

instance : Measured Blob where
  length_eq hw := length_of_writeBlock hw

instance : Writable Blob where
  exists_write hwidth := exists_writeBlock (Nat.lt_of_le_of_lt (Nat.le_add_left _ 4) hwidth)

theorem length_utf8 (s : String) : (utf8 s).length = s.utf8ByteSize := by
  simp [utf8]

instance : Measured String where
  length_eq {s bytes} hw := by
    rw [length_of_writeBlock hw, length_utf8]
    rfl

instance : Writable String where
  exists_write {s} hwidth := by
    have hlength : (utf8 s).length < UInt32.size := by
      rw [length_utf8]
      exact Nat.lt_of_le_of_lt (Nat.le_add_left _ 4) hwidth
    exact exists_writeBlock hlength

/-! ## Containers -/

theorem IsWrittenTagged.length_eq [Measured β] {tag : UInt8} {make : β → α} {x : β}
    (hwrite : IsWrittenTagged tag make) {bytes : Bytes} (hw : write (make x) = .ok bytes) :
    bytes.length = 1 + width x := by
  obtain ⟨body, hbody, rfl⟩ := hwrite.write_eq_ok.1 hw
  rw [List.length_cons, Measured.length_eq hbody, Nat.add_comm]

instance [Measured α] : Measured (Option α) where
  length_eq {x bytes} hw := by
    cases x with
    | none =>
      obtain rfl := Except.ok.inj hw
      rfl
    | some x => exact isWrittenTagged_some.length_eq hw

instance [Measured α] [Measured β] : Measured (Except α β) where
  length_eq {x bytes} hw := by
    cases x with
    | ok x => exact isWrittenTagged_ok.length_eq hw
    | error e => exact isWrittenTagged_error.length_eq hw

instance [Measured α] [Measured β] : Measured (α × β) where
  length_eq {p bytes} hw := by
    obtain ⟨front, back, hfront, hback, rfl⟩ := writePair_eq_ok.1 hw
    rw [List.length_append, Measured.length_eq hfront, Measured.length_eq hback]
    rfl

instance [Writable α] [Writable β] : Writable (α × β) where
  exists_write {p} hwidth := by
    have hsum : width p.1 + width p.2 < UInt32.size := hwidth
    obtain ⟨front, hfront⟩ := Writable.exists_write (x := p.1) (by omega)
    obtain ⟨back, hback⟩ := Writable.exists_write (x := p.2) (by omega)
    exact ⟨front ++ back, writePair_eq_ok.2 ⟨front, back, hfront, hback, rfl⟩⟩

theorem length_of_writeItems [Measured α] {xs : List α} {body : Bytes}
    (h : writeItems xs = .ok body) : body.length = total (xs.map width) := by
  induction xs generalizing body with
  | nil =>
    obtain rfl := Except.ok.inj h
    rfl
  | cons x xs ih =>
    obtain ⟨front, back, hfront, hback, rfl⟩ := writeItems_cons.1 h
    rw [List.length_append, Measured.length_eq hfront, ih hback]
    rfl

theorem exists_writeItems [Writable α] {xs : List α} (h : total (xs.map width) < UInt32.size) :
    ∃ body, writeItems xs = .ok body := by
  induction xs with
  | nil => exact ⟨[], rfl⟩
  | cons x xs ih =>
    have hsum : width x + total (xs.map width) < UInt32.size := h
    obtain ⟨front, hfront⟩ := Writable.exists_write (x := x) (by omega)
    obtain ⟨back, hback⟩ := ih (by omega)
    exact ⟨front ++ back, writeItems_cons.2 ⟨front, back, hfront, hback, rfl⟩⟩

instance [Measured α] : Measured (List α) where
  length_eq {xs bytes} hw := by
    obtain ⟨front, body, hfront, hbody, -, rfl⟩ := writeList_eq_ok.1 hw
    rw [List.length_append, length_of_writeCount hfront, length_of_writeItems hbody]
    rfl

instance {key : α → List Int} [Measured α] [Measured β] : Measured (SortedMap α key β) where
  length_eq {map bytes} hw := by
    obtain ⟨front, body, hfront, hbody, rfl⟩ := writeMap_eq_ok.1 hw
    rw [List.length_append, length_of_writeCount hfront, length_of_writeItems hbody]
    rfl

/-- If no item is empty, there are no more items than bytes. -/
theorem length_le_total (hpos : ∀ x : α, 0 < width x) (xs : List α) :
    xs.length ≤ total (xs.map width) := by
  induction xs with
  | nil => exact Nat.le_refl 0
  | cons x xs ih =>
    have hx := hpos x
    have htotal : total ((x :: xs).map width) = width x + total (xs.map width) := rfl
    rw [htotal, List.length_cons]
    omega

/-- A list whose elements all take bytes has no more elements than bytes. -/
theorem Writable.list [Measured α] [Writable α] (hpos : ∀ x : α, 0 < width x) :
    Writable (List α) where
  exists_write {xs} hwidth := by
    have hsum : 4 + total (xs.map width) < UInt32.size := hwidth
    have htotal : total (xs.map width) < UInt32.size := by omega
    have hle := length_le_total hpos xs
    obtain ⟨front, hfront⟩ := exists_writeCount (Nat.lt_of_le_of_lt hle htotal)
    obtain ⟨body, hbody⟩ := exists_writeItems htotal
    refine ⟨front ++ body, writeList_eq_ok.2 ⟨front, body, hfront, hbody, ?_, rfl⟩⟩
    rintro hlong rfl
    have hzero : 0 = total (xs.map width) := length_of_writeItems hbody
    omega

/-- Entries with bytes bound their number, so a map of a bounded width can be counted. -/
theorem Writable.map {key : α → List Int} [Writable α] [Writable β]
    (hpos : ∀ entry : α × β, 0 < width entry) : Writable (SortedMap α key β) where
  exists_write {map} hwidth := by
    have hsum : 4 + total (map.entries.map width) < UInt32.size := hwidth
    have htotal : total (map.entries.map width) < UInt32.size := by omega
    obtain ⟨front, hfront⟩ :=
      exists_writeCount (Nat.lt_of_le_of_lt (length_le_total hpos map.entries) htotal)
    obtain ⟨body, hbody⟩ := exists_writeItems htotal
    exact ⟨front ++ body, writeMap_eq_ok.2 ⟨front, body, hfront, hbody, rfl⟩⟩

end ChainClient.Wire
