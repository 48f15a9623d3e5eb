import ChainClient.Proofs.Wire.Scalar
import ChainClient.Wire.Envelope

/-!
# Laws of envelopes

An envelope whose indices ascend reads back from its written form: the table gives back the
index and the start of each field, and the starts cut the body into the fields again. The
laws of a type that is written as an envelope then reduce to what its fields are. Such types
build their envelopes field by field from an empty one, so their fields are explicit lists.
-/

namespace ChainClient.Envelope

/-! ## Tables -/

/-- The rows of the table of fields that start at the offset. -/
def rows : Nat → List (UInt16 × Bytes) → List (UInt16 × Nat)
  | _, [] => []
  | offset, (index, slice) :: fields => (index, offset) :: rows (offset + slice.length) fields

/-- Each index is above those before it. -/
def Ascending (fields : List (UInt16 × Bytes)) : Prop :=
  fields.Pairwise fun field other ↦ field.1 < other.1

/-- The fields stand in ascending order of their indices, as reading requires. -/
def Ordered (e : Envelope) : Prop := Ascending e.fields

variable {offset : Nat} {fields : List (UInt16 × Bytes)}

theorem offset_le_of_mem_rows {row : UInt16 × Nat} (h : row ∈ rows offset fields) :
    row.2 ≤ offset + (fields.flatMap (·.2)).length := by
  induction fields generalizing offset with
  | nil => cases h
  | cons field fields ih =>
    rw [List.flatMap_cons, List.length_append]
    rcases List.mem_cons.1 h with rfl | h
    · exact Nat.le_add_right _ _
    · have hrow := ih h
      omega

theorem rows_eq_nil (h : rows offset fields = []) : fields = [] := by
  cases fields with
  | nil => rfl
  | cons field fields => cases h

/-- The row before the fields allows their table. -/
def Precedes (last : Option (UInt16 × Nat)) (offset : Nat) (fields : List (UInt16 × Bytes)) :
    Prop :=
  match last with
  | none => offset = 0
  | some (index, start) => start ≤ offset ∧ ∀ field ∈ fields, index < field.1

/-- A row that follows the one before it is taken, whatever comes after. -/
theorem readTable_cons {last : Option (UInt16 × Nat)} {index : UInt16} {slice : Bytes} (n : Nat)
    (hlast : Precedes last offset ((index, slice) :: fields)) (hoffset : offset < Wire.capacity 4)
    (bytes : Bytes) :
    readTable (n + 1) last (Wire.leBytes 2 index.toNat ++ Wire.leBytes 4 offset ++ bytes) =
      readTable n (some (index, offset)) bytes >>= fun p ↦ .ok ((index, offset) :: p.1, p.2) := by
  have hreadIndex (rest : Bytes) : Wire.read (Wire.leBytes 2 index.toNat ++ rest) =
      .ok (index, rest) := Wire.Lossless.readable index _ rest rfl
  have hreadOffset (rest : Bytes) : Wire.readNat 4 (Wire.leBytes 4 offset ++ rest) =
      .ok (offset, rest) := Wire.readNat_eq_ok.2 ⟨hoffset, rfl⟩
  rw [List.append_assoc, readTable, hreadIndex, Wire.ok_bind]
  simp only [hreadOffset, Wire.ok_bind]
  -- The check of the row is the only step that depends on the row before it.
  cases last with
  | none =>
    have hzero : offset = 0 := hlast
    dsimp only
    rw [if_neg (not_not_intro hzero)]
    rfl
  | some row =>
    have hrow : row.1 < index := hlast.2 (index, slice) List.mem_cons_self
    have hcheck : ¬(index ≤ row.1 ∨ offset < row.2) :=
      not_or.2 ⟨UInt16.not_le.2 hrow, Nat.not_lt.2 hlast.1⟩
    dsimp only
    rw [if_neg hcheck]
    rfl

theorem readTable_table {last : Option (UInt16 × Nat)} (hascending : Ascending fields)
    (hlast : Precedes last offset fields)
    (hbody : offset + (fields.flatMap (·.2)).length < Wire.capacity 4) (rest : Bytes) :
    readTable fields.length last (table offset fields ++ rest) =
      .ok (rows offset fields, rest) := by
  induction fields generalizing offset last with
  | nil => rfl
  | cons field fields ih =>
    obtain ⟨index, slice⟩ := field
    obtain ⟨hindex, hfields⟩ := List.pairwise_cons.1 hascending
    simp only [List.flatMap_cons, List.length_append] at hbody
    have hprecedes : Precedes (some (index, offset)) (offset + slice.length) fields :=
      ⟨Nat.le_add_right _ _, hindex⟩
    have hothers := ih hfields hprecedes (by omega)
    rw [table, List.append_assoc, List.length_cons, readTable_cons _ hlast (by omega), hothers]
    rfl

/-! ## Bodies -/

/-- Cutting the body at the offsets of the table gives the fields back. -/
theorem cut_rows (offset : Nat) (fields : List (UInt16 × Bytes)) :
    cut offset (fields.flatMap (·.2)) (rows offset fields) = fields := by
  induction fields generalizing offset with
  | nil => rfl
  | cons field fields ih =>
    obtain ⟨index, slice⟩ := field
    cases fields with
    | nil => simp [rows, cut]
    | cons next fields =>
      have hothers := ih (offset + slice.length)
      simp only [rows] at hothers ⊢
      simp only [cut, List.flatMap_cons, Nat.add_sub_cancel_left, List.take_left', List.drop_left']
      rw [List.flatMap_cons] at hothers
      rw [hothers]

/-- An ordered envelope reads back from the front of any input. -/
theorem read_write {e : Envelope} (hordered : e.Ordered) {bytes : Bytes} (hw : e.write = .ok bytes)
    (rest : Bytes) : read (bytes ++ rest) = .ok (e, rest) := by
  obtain ⟨count, hcount, hw⟩ := Wire.bind_eq_ok.1 hw
  obtain ⟨block, hblock, hw⟩ := Wire.bind_eq_ok.1 hw
  obtain rfl := Wire.pure_eq_ok.1 hw
  have hlt : e.body.length < Wire.capacity 4 := by
    obtain ⟨front, hfront, -⟩ := Wire.writeBlock_eq_ok.1 hblock
    exact (Wire.writeCount_eq_ok.1 hfront).1
  have hreadCount : Wire.readCount (count ++ (table 0 e.fields ++ (block ++ rest))) =
      .ok (e.fields.length, table 0 e.fields ++ (block ++ rest)) :=
    Wire.readCount_eq_ok.2 ⟨count, hcount, rfl⟩
  have hfirst : Precedes none 0 e.fields := (rfl : (0 : Nat) = 0)
  have hreadTable : readTable e.fields.length none (table 0 e.fields ++ (block ++ rest)) =
      .ok (rows 0 e.fields, block ++ rest) :=
    readTable_table hordered hfirst (by rw [Nat.zero_add]; exact hlt) (block ++ rest)
  have hreadBlock : Wire.readBlock (block ++ rest) = .ok (e.body, rest) :=
    Wire.readBlock_eq_ok.2 ⟨block, hblock, rfl⟩
  have hcut : cut 0 e.body (rows 0 e.fields) = e.fields := cut_rows 0 e.fields
  rw [read, List.append_assoc, List.append_assoc, hreadCount, Wire.ok_bind]
  simp only [hreadTable, hreadBlock, Wire.ok_bind, hcut]
  cases hrows : (rows 0 e.fields).getLast? with
  | none =>
    have hnil : e.fields = [] := rows_eq_nil (List.getLast?_eq_none_iff.1 hrows)
    have hbody : e.body = [] := by rw [body, hnil, List.flatMap_nil]
    rw [hbody]
    rfl
  | some row =>
    have hrow := offset_le_of_mem_rows (List.mem_of_getLast? hrows)
    rw [Nat.zero_add] at hrow
    exact if_neg (Nat.not_lt.2 hrow)

/-! ## Building -/

theorem exists_slice_of_add {α : Type} [Wire α] {index : UInt16} {x : α} {e : Envelope}
    (h : (⟨fields⟩ : Envelope).add index x = .ok e) :
    ∃ slice, Wire.write x = .ok slice ∧ e = ⟨fields ++ [(index, slice)]⟩ := by
  unfold add at h
  split at h
  · cases h
  split at h
  · cases h
  obtain ⟨slice, hslice, he⟩ := Wire.bind_eq_ok.1 h
  exact ⟨slice, hslice, (Wire.pure_eq_ok.1 he).symm⟩

/-- An index above all others is not refused. -/
theorem add_eq_ok {α : Type} [Wire α] {index : UInt16} {x : α} {slice : Bytes}
    (hindex : ∀ field ∈ fields, field.1 < index)
    (hbody : (fields.flatMap (·.2)).length < UInt32.size) (hw : Wire.write x = .ok slice) :
    (⟨fields⟩ : Envelope).add index x = .ok ⟨fields ++ [(index, slice)]⟩ := by
  have hlast : ¬(fields.getLast?.any fun field ↦ index ≤ field.1) = true := by
    intro hany
    obtain ⟨field, hfield, hle⟩ := (Option.any_eq_true _ _).1 hany
    exact UInt16.not_le.2 (hindex field (List.mem_of_getLast? hfield)) (of_decide_eq_true hle)
  rw [add, if_neg hlast, body, if_neg (Nat.not_le.2 hbody)]
  exact Wire.bind_of_eq_ok hw rfl

/-- A field that is added before others. -/
theorem exists_slice_of_add_bind {α β : Type} [Wire α] {index : UInt16} {x : α}
    {next : Envelope → Except WireError β} {b : β}
    (h : (⟨fields⟩ : Envelope).add index x >>= next = .ok b) :
    ∃ slice, Wire.write x = .ok slice ∧ next ⟨fields ++ [(index, slice)]⟩ = .ok b := by
  obtain ⟨e, he, hnext⟩ := Wire.bind_eq_ok.1 h
  obtain ⟨slice, hslice, rfl⟩ := exists_slice_of_add he
  exact ⟨slice, hslice, hnext⟩

theorem eq_of_ofTag {tag : UInt8} {e : Envelope} (h : ofTag tag = .ok e) : e = ⟨[(0, [tag])]⟩ := by
  obtain ⟨slice, hslice, rfl⟩ := exists_slice_of_add h
  obtain rfl := Except.ok.inj hslice
  rfl

/-! ## Fields -/

section Field

variable {α : Type} [Wire α] {e : Envelope} {index : UInt16} {slice : Bytes} {x : α}

theorem optionalField_eq_some (hw : Wire.write x = .ok slice) (hx : Wire.Readable x)
    (hslice : e.slice? index = some slice) : e.optionalField index = .ok (some x) := by
  rw [optionalField, hslice]
  exact Wire.bind_of_eq_ok (hx.readAll_eq hw) rfl

theorem field_eq_ok (hw : Wire.write x = .ok slice) (hx : Wire.Readable x)
    (hslice : e.slice? index = some slice) : e.field index = .ok x := by
  rw [field, optionalField_eq_some hw hx hslice]
  rfl

/-- A field that is taken before others. -/
theorem field_bind_eq_ok {β : Type} {next : α → Except WireError β} {b : β}
    (hw : Wire.write x = .ok slice) (hx : Wire.Readable x) (hslice : e.slice? index = some slice)
    (hnext : next x = .ok b) : e.field index >>= next = .ok b := by
  rw [field_eq_ok hw hx hslice]
  exact hnext

end Field

theorem fields_of_ofTag {tag : UInt8} {e : Envelope} (h : ofTag tag = .ok e) :
    e.Ordered ∧ e.ensureMaxIndex 0 = .ok () ∧ e.field 0 = .ok tag := by
  obtain rfl := eq_of_ofTag h
  have hfield : field ⟨[(0, [tag])]⟩ 0 = .ok tag :=
    field_eq_ok rfl (Wire.Lossless.readable tag) rfl
  exact ⟨by simp [Ordered, Ascending], rfl, hfield⟩

/-! ## A tag and one field -/

/-- The envelope consists of the tag and the value. -/
def HoldsTagged {α : Type} [Wire α] (e : Envelope) (tag : UInt8) (x : α) : Prop :=
  ∃ slice, Wire.write x = .ok slice ∧ e = ⟨[(0, [tag]), (1, slice)]⟩

section HoldsTagged

variable {α β : Type} [Wire α] [Wire β] {e : Envelope} {tag tag' : UInt8} {x y : α} {z : β}

theorem holdsTagged_of_ofTag_add (h : (do (← ofTag tag).add 1 x) = .ok e) :
    e.HoldsTagged tag x := by
  obtain ⟨tagged, htag, h⟩ := Wire.bind_eq_ok.1 h
  obtain rfl := eq_of_ofTag htag
  exact exists_slice_of_add h

theorem HoldsTagged.ordered (h : e.HoldsTagged tag x) : e.Ordered := by
  obtain ⟨slice, -, rfl⟩ := h
  simp [Ordered, Ascending]

/-- The tag is read off the envelope, so two alternatives with different tags share none. -/
theorem HoldsTagged.tag_eq (hx : e.HoldsTagged tag x) (hz : e.HoldsTagged tag' z) :
    tag = tag' := by
  obtain ⟨slice, -, rfl⟩ := hx
  obtain ⟨slice', -, he⟩ := hz
  simp only [mk.injEq, List.cons.injEq, Prod.mk.injEq, true_and, and_true] at he
  exact he.1

/-- Of one alternative, the envelope decides the value. -/
theorem HoldsTagged.value_eq [Wire.Unambiguous α] (hx : e.HoldsTagged tag x)
    (hy : e.HoldsTagged tag' y) : x = y := by
  obtain ⟨slice, hslice, rfl⟩ := hx
  obtain ⟨slice', hslice', he⟩ := hy
  simp only [mk.injEq, List.cons.injEq, Prod.mk.injEq, true_and, and_true] at he
  exact Wire.write_injective hslice (he.2 ▸ hslice')

theorem HoldsTagged.fields_eq_ok (h : e.HoldsTagged tag x) (hx : Wire.Readable x) :
    e.ensureMaxIndex 1 = .ok () ∧ e.field 0 = .ok tag ∧ e.field 1 = .ok x := by
  obtain ⟨slice, hslice, rfl⟩ := h
  exact ⟨rfl, field_eq_ok rfl (Wire.Lossless.readable tag) rfl, field_eq_ok hslice hx rfl⟩

end HoldsTagged

end ChainClient.Envelope

namespace ChainClient.Wire

/-! ## The laws of types written as envelopes -/

variable {α : Type} {build : α → Except WireError Envelope}
  {parse : Envelope → Except WireError α} {lengths : α → List Nat}

/-- A value with an envelope reads back if its envelope is ordered and its parts parse. -/
theorem Readable.ofEnvelope {x : α}
    (h : ∀ e, build x = .ok e → e.Ordered ∧ parse e = .ok x) :
    @Readable α (Wire.ofEnvelope build parse lengths) x := by
  intro bytes rest hw
  obtain ⟨e, he, hbytes⟩ := bind_eq_ok.1 hw
  obtain ⟨hordered, hx⟩ := h e he
  have hread := Envelope.read_write hordered hbytes rest
  apply bind_of_eq_ok hread
  exact bind_of_eq_ok hx rfl

/-- Equal bytes hold equal envelopes, so only the values of one envelope have to agree. -/
theorem Unambiguous.ofEnvelope (hordered : ∀ {x e}, build x = .ok e → e.Ordered)
    (h : ∀ {x y e}, build x = .ok e → build y = .ok e → x = y) :
    @Unambiguous α (Wire.ofEnvelope build parse lengths) :=
  @Unambiguous.mk α (Wire.ofEnvelope build parse lengths)
    fun {x y front front' rest rest'} hx hy happend ↦ by
      obtain ⟨e, he, hfront⟩ := bind_eq_ok.1 hx
      obtain ⟨e', he', hfront'⟩ := bind_eq_ok.1 hy
      have hread := Envelope.read_write (hordered he) hfront rest
      have hread' := Envelope.read_write (hordered he') hfront' rest'
      rw [happend, hread'] at hread
      obtain ⟨rfl, rfl⟩ := Prod.mk.inj (Except.ok.inj hread)
      exact ⟨h he he', rfl⟩

end ChainClient.Wire
