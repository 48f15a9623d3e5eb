import ChainClient.Proofs.Wire.Envelope
import ChainClient.Proofs.Wire.Width

/-!
# Widths of envelopes

The length of an envelope follows from the lengths of its fields. A builder adds its fields one
after the other, and as long as the indices go on nothing is refused but what is too long: an
envelope is written just if its body fits a length of 32 bits.
-/

namespace ChainClient

open Wire (Measured Writable bind_eq_ok bind_of_eq_ok total)

namespace Envelope

/-! ## Sizes of fields -/

/-- The indices of the fields and their lengths. -/
def sizes (e : Envelope) : List (UInt16 × Nat) :=
  e.fields.map fun field ↦ (field.1, field.2.length)

theorem total_sizes (e : Envelope) : total (e.sizes.map (·.2)) = e.body.length := by
  obtain ⟨fields⟩ := e
  induction fields with
  | nil => rfl
  | cons field fields ih =>
    simp only [sizes, body, List.map_cons, List.flatMap_cons, List.length_append, total] at ih ⊢
    rw [ih]

theorem ordered_iff_sizes {e : Envelope} :
    e.Ordered ↔ e.sizes.Pairwise fun size size' ↦ size.1 < size'.1 := by
  rw [sizes, List.pairwise_map]
  rfl

/-- A row of the table takes six bytes, two for the index and four for the offset. -/
theorem length_table (offset : Nat) (fields : List (UInt16 × Bytes)) :
    (table offset fields).length = 6 * fields.length := by
  induction fields generalizing offset with
  | nil => rfl
  | cons field fields ih =>
    rw [table, List.length_append, List.length_append, Wire.length_leBytes, Wire.length_leBytes,
      ih, List.length_cons]
    omega

theorem write_eq_ok {e : Envelope} {bytes : Bytes} : e.write = .ok bytes ↔
    ∃ count block, Wire.writeCount e.fields.length = .ok count ∧
      Wire.writeBlock e.body = .ok block ∧ count ++ table 0 e.fields ++ block = bytes := by
  simp only [write, bind_eq_ok, Wire.pure_eq_ok, exists_and_left]

/-- The width counts the table and the fields, and the two lengths around them. -/
theorem length_of_write {e : Envelope} {bytes : Bytes} (h : e.write = .ok bytes) :
    bytes.length = width (e.sizes.map (·.2)) := by
  obtain ⟨count, block, hcount, hblock, rfl⟩ := write_eq_ok.1 h
  have hfields : (e.sizes.map (·.2)).length = e.fields.length := by simp [sizes]
  simp only [width, List.length_append, Wire.length_of_writeCount hcount, length_table,
    Wire.length_of_writeBlock hblock, total_sizes, hfields]
  omega

/-- There are not more ascending indices than numbers of 16 bits. -/
theorem length_add_toNat_lt {index : UInt16} {indices : List UInt16}
    (h : (index :: indices).Pairwise (· < ·)) : indices.length + index.toNat < UInt16.size := by
  induction indices generalizing index with
  | nil => simpa using index.toNat_lt
  | cons next indices ih =>
    obtain ⟨hnext, hothers⟩ := List.pairwise_cons.1 h
    have hlt : index.toNat < next.toNat := UInt16.lt_iff_toNat_lt.1 (hnext next List.mem_cons_self)
    have hle := ih hothers
    rw [List.length_cons]
    omega

theorem Ordered.length_fields_lt {e : Envelope} (he : e.Ordered) :
    e.fields.length < UInt32.size := by
  obtain ⟨fields⟩ := e
  cases fields with
  | nil => decide
  | cons field fields =>
    have hlt := length_add_toNat_lt (List.pairwise_map.2 he : (_ :: _).Pairwise _)
    rw [List.length_map] at hlt
    have hsize : UInt16.size < UInt32.size := by decide
    rw [List.length_cons]
    omega

theorem Ordered.exists_write_iff {e : Envelope} (he : e.Ordered) :
    (∃ bytes, e.write = .ok bytes) ↔ total (e.sizes.map (·.2)) < UInt32.size := by
  rw [total_sizes]
  constructor
  · rintro ⟨bytes, h⟩
    obtain ⟨count, block, -, hblock, -⟩ := write_eq_ok.1 h
    obtain ⟨front, hfront, -⟩ := Wire.writeBlock_eq_ok.1 hblock
    exact (Wire.writeCount_eq_ok.1 hfront).1
  · intro hbody
    obtain ⟨count, hcount⟩ := Wire.exists_writeCount he.length_fields_lt
    obtain ⟨block, hblock⟩ := Wire.exists_writeBlock hbody
    exact ⟨_, write_eq_ok.2 ⟨count, block, hcount, hblock, rfl⟩⟩

/-! ## Builders -/

/-- What is built has fields of the given sizes, and it is built if they fit. -/
structure Builds (built : Except WireError Envelope) (sizes : List (UInt16 × Nat)) : Prop where
  ascending : sizes.Pairwise fun size size' ↦ size.1 < size'.1
  sizes_eq : ∀ {e}, built = .ok e → e.sizes = sizes
  exists_ok : total (sizes.map (·.2)) < UInt32.size → ∃ e, built = .ok e

namespace Builds

variable {α : Type} [Wire α] [Measured α] [Writable α] {built : Except WireError Envelope}
  {sizes : List (UInt16 × Nat)}

theorem add (h : Builds built sizes) (index : UInt16) (x : α)
    (hindex : ∀ size ∈ sizes, size.1 < index) :
    Builds (built >>= fun e ↦ e.add index x) (sizes ++ [(index, Wire.width x)]) where
  ascending := by
    refine List.pairwise_append.2 ⟨h.ascending, List.pairwise_singleton _ _, ?_⟩
    simpa using hindex
  sizes_eq {e} he := by
    obtain ⟨e', he', hadd⟩ := bind_eq_ok.1 he
    obtain ⟨slice, hslice, rfl⟩ := exists_slice_of_add hadd
    rw [← h.sizes_eq he', Envelope.sizes, List.map_append, ← Measured.length_eq hslice]
    rfl
  exists_ok hfit := by
    rw [List.map_append, Wire.total_append] at hfit
    have hwidth : Wire.width x < UInt32.size := by
      simp only [List.map_cons, List.map_nil, total] at hfit
      omega
    obtain ⟨e, he⟩ := h.exists_ok (by omega)
    obtain ⟨slice, hslice⟩ := Writable.exists_write hwidth
    have hbelow : ∀ field ∈ e.fields, field.1 < index := by
      intro field hfield
      have hsize : (field.1, field.2.length) ∈ e.sizes := List.mem_map_of_mem hfield
      rw [h.sizes_eq he] at hsize
      exact hindex _ hsize
    have hbody : e.body.length < UInt32.size := by
      rw [← total_sizes, h.sizes_eq he]
      omega
    exact ⟨_, bind_of_eq_ok he (add_eq_ok hbelow hbody hslice)⟩

theorem addOptional (h : Builds built sizes) (index : UInt16) (x? : Option α)
    (hindex : ∀ size ∈ sizes, size.1 < index) :
    Builds (built >>= fun e ↦ e.addOptional index x?)
      (sizes ++ (x?.map fun x ↦ (index, Wire.width x)).toList) := by
  cases x? with
  | none =>
    have hsame : (built >>= fun e ↦ e.addOptional index (none : Option α)) = built := by
      cases built <;> rfl
    rwa [hsame, Option.map_none, Option.toList_none, List.append_nil]
  | some x => exact h.add index x hindex

theorem empty : Builds (.ok .empty) [] where
  ascending := .nil
  sizes_eq he := by
    obtain rfl := Except.ok.inj he
    rfl
  exists_ok _ := ⟨_, rfl⟩

theorem ofTag (tag : UInt8) : Builds (ofTag tag) [(0, 1)] := empty.add 0 tag (by simp)

theorem ordered (h : Builds built sizes) {e : Envelope} (he : built = .ok e) : e.Ordered := by
  rw [ordered_iff_sizes, h.sizes_eq he]
  exact h.ascending

end Builds

/-- The fields that are built have the given lengths. -/
def BuildsLengths (built : Except WireError Envelope) (lengths : List Nat) : Prop :=
  ∃ sizes, Builds built sizes ∧ sizes.map (·.2) = lengths

end Envelope

namespace Wire

variable {α : Type} {build : α → Except WireError Envelope}
  {parse : Envelope → Except WireError α} {lengths : α → List Nat}

theorem Measured.ofEnvelope (h : ∀ x, Envelope.BuildsLengths (build x) (lengths x)) :
    @Measured α (Wire.ofEnvelope build parse lengths) :=
  @Measured.mk α (Wire.ofEnvelope build parse lengths) fun {x bytes} hw ↦ by
    obtain ⟨e, he, hbytes⟩ := bind_eq_ok.1 hw
    obtain ⟨sizes, hbuilds, hlengths⟩ := h x
    rw [Envelope.length_of_write hbytes, hbuilds.sizes_eq he, hlengths]
    rfl

/-- A value is written just if its fields fit together. -/
theorem exists_write_ofEnvelope {x : α} (h : Envelope.BuildsLengths (build x) (lengths x)) :
    (∃ bytes, (Wire.ofEnvelope build parse lengths).write x = .ok bytes) ↔
      total (lengths x) < UInt32.size := by
  obtain ⟨sizes, hbuilds, hsizes⟩ := h
  rw [← hsizes]
  constructor
  · rintro ⟨bytes, hw⟩
    obtain ⟨e, he, hbytes⟩ := bind_eq_ok.1 hw
    rw [← hbuilds.sizes_eq he]
    exact (hbuilds.ordered he).exists_write_iff.1 ⟨bytes, hbytes⟩
  · intro hfit
    obtain ⟨e, he⟩ := hbuilds.exists_ok hfit
    rw [← hbuilds.sizes_eq he] at hfit
    obtain ⟨bytes, hbytes⟩ := (hbuilds.ordered he).exists_write_iff.2 hfit
    exact ⟨bytes, bind_of_eq_ok he hbytes⟩

theorem Writable.ofEnvelope (h : ∀ x, Envelope.BuildsLengths (build x) (lengths x)) :
    @Writable α (Wire.ofEnvelope build parse lengths) :=
  @Writable.mk α (Wire.ofEnvelope build parse lengths) fun {x} hwidth ↦ by
    have htotal : 8 + 6 * (lengths x).length + total (lengths x) < UInt32.size := hwidth
    exact (exists_write_ofEnvelope (h x)).2 (by omega)

end Wire

end ChainClient
