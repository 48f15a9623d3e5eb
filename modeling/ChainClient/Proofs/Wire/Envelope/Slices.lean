import ChainClient.Proofs.Wire.Envelope.Canonical
import ChainClient.Proofs.Wire.Items

/-!
# Slices of envelopes

An envelope is built by adding values of any types under ascending indices, and a reader finds
under each index the bytes that were written of its value. In the bytes that a reader accepts a
field stands from its own offset to the next one, or to the end of the body. The offsets were
checked while the table was read, so no slice reaches beyond the body, the slices fill the body
without a gap, and adding them again under their indices gives the same bytes.
-/

namespace ChainClient.Envelope

open Wire (bind_eq_ok bind_of_eq_ok exists_mem_of_forall₂)

/-! ## Spans in the body -/

/-- Where a field stands in the body. -/
structure Span where
  index : UInt16
  start : Nat
  stop : Nat
  deriving DecidableEq, Repr

def Span.slice (body : Bytes) (s : Span) : Bytes := body.extract s.start s.stop

/-- A field stops where the next one starts, and the last one at the given end. -/
def spansTo (stop : Nat) : List (UInt16 × Nat) → List Span
  | [] => []
  | [(index, start)] => [⟨index, start, stop⟩]
  | (index, start) :: (next, offset) :: rows =>
    ⟨index, start, offset⟩ :: spansTo stop ((next, offset) :: rows)

theorem start_le_stop_of_mem_spansTo {stop : Nat} {rows : List (UInt16 × Nat)}
    (hrows : rows.Pairwise Before) (hstop : ∀ row ∈ rows, row.2 ≤ stop) :
    ∀ s ∈ spansTo stop rows, s.start ≤ s.stop ∧ s.stop ≤ stop := by
  fun_induction spansTo stop rows with
  | case1 => simp
  | case2 index start => simpa using hstop
  | case3 index start next offset rows ih =>
    simp only [List.pairwise_cons, List.forall_mem_cons] at hrows hstop ih ⊢
    exact ⟨⟨hrows.1.1.2, hstop.2.1⟩, ih hrows.2 hstop.2⟩

theorem cut_eq_map_spansTo {body : Bytes} {index : UInt16} {start : Nat}
    {rows : List (UInt16 × Nat)} (hrows : ((index, start) :: rows).Pairwise Before) :
    cut start (body.drop start) ((index, start) :: rows) =
      (spansTo body.length ((index, start) :: rows)).map fun s ↦ (s.index, s.slice body) := by
  induction rows generalizing index start with
  | nil =>
    have htake : (body.drop start).take (body.length - start) = body.drop start :=
      List.take_of_length_le (by simp)
    simp [cut, spansTo, Span.slice, htake]
  | cons row rows ih =>
    obtain ⟨next, offset⟩ := row
    obtain ⟨hbefore, hothers⟩ := List.pairwise_cons.1 hrows
    have hle : start ≤ offset := (hbefore (next, offset) List.mem_cons_self).2
    have hdrop : (body.drop start).drop (offset - start) = body.drop offset := by
      rw [List.drop_drop, Nat.add_sub_cancel' hle]
    rw [cut, hdrop, ih hothers, spansTo, List.map_cons]
    rfl

namespace Layout

variable {l : Layout}

def spans (l : Layout) : List Span := spansTo l.body.length l.rows

def slice? (l : Layout) (index : UInt16) : Option Bytes :=
  (l.spans.find? fun s ↦ s.index == index).map (·.slice l.body)

theorem IsSound.start_le_stop (h : l.IsSound) :
    ∀ s ∈ l.spans, s.start ≤ s.stop ∧ s.stop ≤ l.body.length :=
  start_le_stop_of_mem_spansTo h.pairwise h.within

theorem IsSound.fields_envelope (h : l.IsSound) :
    l.envelope.fields = l.spans.map fun s ↦ (s.index, s.slice l.body) := by
  obtain ⟨rows, body⟩ := l
  cases rows with
  | nil => rfl
  | cons row rows =>
    obtain ⟨index, offset⟩ := row
    obtain rfl : offset = 0 := h.starts (index, offset) rfl
    exact cut_eq_map_spansTo h.pairwise

theorem IsSound.slice?_envelope (h : l.IsSound) (index : UInt16) :
    l.envelope.slice? index = l.slice? index := by
  simp only [Envelope.slice?, Layout.slice?, h.fields_envelope, List.find?_map, Option.map_map,
    Function.comp_def]

theorem IsSound.flatMap_slice (h : l.IsSound) : l.spans.flatMap (·.slice l.body) = l.body := by
  calc
    l.spans.flatMap (·.slice l.body) = l.envelope.body := by
      rw [Envelope.body, h.fields_envelope, List.flatMap_map]
    _ = l.body := h.rows_envelope.2

end Layout

/-! ## Building field by field -/

/-- A value of any type and the index under which it is added. -/
structure Entry where
  index : UInt16
  {α : Type}
  [wire : Wire α]
  value : α

attribute [instance] Entry.wire

/-- The bytes as they stand. -/
def Entry.ofSlice (index : UInt16) (slice : Bytes) : Entry where
  index := index
  value := (⟨slice, rfl⟩ : Octets slice.length)

def addEntry (e : Envelope) (entry : Entry) : Except WireError Envelope :=
  e.add entry.index entry.value

/-- Fields are added in the order in which they are given. -/
def ofEntries (entries : List Entry) : Except WireError Envelope := entries.foldlM addEntry empty

/-- The field holds what is written of the value. -/
def Entry.IsWrittenAs (entry : Entry) (field : UInt16 × Bytes) : Prop :=
  field.1 = entry.index ∧ Wire.write entry.value = .ok field.2

section Building

variable {α : Type} [Wire α] {fields : List (UInt16 × Bytes)} {e : Envelope} {index : UInt16}

/-- An index that is not above the last one is refused. -/
theorem lt_of_add {x : α} (h : (⟨fields⟩ : Envelope).add index x = .ok e)
    {last : UInt16 × Bytes} (hlast : fields.getLast? = some last) : last.1 < index := by
  unfold add at h
  split at h
  · cases h
  case isFalse hany =>
    simpa [hlast] using hany

/-- A field that is added keeps the order, since its index has to be above the last one. -/
theorem ascending_of_add {x : α} {slice : Bytes} (hfields : Ascending fields)
    (h : (⟨fields⟩ : Envelope).add index x = .ok e) : Ascending (fields ++ [(index, slice)]) := by
  refine List.pairwise_append.2 ⟨hfields, List.pairwise_singleton _ _, ?_⟩
  intro field hfield other hother
  obtain rfl := List.mem_singleton.1 hother
  obtain ⟨last, hlast⟩ : ∃ last, fields.getLast? = some last :=
    Option.isSome_iff_exists.1 (by simpa using List.ne_nil_of_mem hfield)
  have hlt : last.1 < index := lt_of_add h hlast
  obtain ⟨init, rfl⟩ := List.getLast?_eq_some_iff.1 hlast
  rcases List.mem_append.1 hfield with hfield | hfield
  · have hbefore := (List.pairwise_append.1 hfields).2.2 field hfield last List.mem_cons_self
    exact UInt16.lt_trans hbefore hlt
  · exact List.mem_singleton.1 hfield ▸ hlt

/-- Each field that is added comes after those that are there already. -/
theorem exists_fields_of_foldlM {entries : List Entry} (hfields : Ascending fields)
    (h : entries.foldlM addEntry ⟨fields⟩ = .ok e) :
    e.Ordered ∧ ∃ added, List.Forall₂ Entry.IsWrittenAs entries added ∧
      e.fields = fields ++ added := by
  induction entries generalizing fields with
  | nil =>
    obtain rfl := Wire.pure_eq_ok.1 h
    exact ⟨hfields, [], .nil, by simp⟩
  | cons entry entries ih =>
    rw [List.foldlM_cons] at h
    obtain ⟨e', hadd, h⟩ := bind_eq_ok.1 h
    obtain ⟨slice, hslice, rfl⟩ := exists_slice_of_add hadd
    obtain ⟨hordered, added, hadded, hfields'⟩ := ih (ascending_of_add hfields hadd) h
    exact ⟨hordered, (entry.index, slice) :: added, .cons ⟨rfl, hslice⟩ hadded, by simp [hfields']⟩

/-- What is built has the written forms of the given values, in ascending order. -/
theorem of_ofEntries {entries : List Entry} (h : ofEntries entries = .ok e) :
    e.Ordered ∧ List.Forall₂ Entry.IsWrittenAs entries e.fields := by
  obtain ⟨hordered, added, hadded, hfields⟩ := exists_fields_of_foldlM .nil h
  rw [List.nil_append] at hfields
  exact ⟨hordered, hfields ▸ hadded⟩

/-- The fields of an envelope that was read are added again without a refusal. -/
theorem IsReadable.foldlM_ofSlice {front back : List (UInt16 × Bytes)} (he : e.IsReadable)
    (hfields : e.fields = front ++ back) :
    (back.map fun field ↦ Entry.ofSlice field.1 field.2).foldlM addEntry ⟨front⟩ = .ok e := by
  induction back generalizing front with
  | nil =>
    rw [List.append_nil] at hfields
    exact congrArg Except.ok (congrArg Envelope.mk hfields.symm)
  | cons field back ih =>
    obtain ⟨index, slice⟩ := field
    rw [List.map_cons, List.foldlM_cons]
    have hadd : addEntry ⟨front⟩ (.ofSlice index slice) = .ok ⟨front ++ [(index, slice)]⟩ :=
      he.add rfl hfields
    exact bind_of_eq_ok hadd (ih (by simp [hfields]))

theorem IsReadable.ofEntries_fields (he : e.IsReadable) :
    ofEntries (e.fields.map fun field ↦ .ofSlice field.1 field.2) = .ok e :=
  he.foldlM_ofSlice rfl

end Building

/-! ## Looking up -/

section Lookup

variable {e : Envelope} {index : UInt16}

theorem slice?_of_mem {slice : Bytes} (he : e.Ordered) (h : (index, slice) ∈ e.fields) :
    e.slice? index = some slice := by
  obtain ⟨fields⟩ := e
  induction fields with
  | nil => cases h
  | cons field fields ih =>
    obtain ⟨hfield, hfields⟩ := List.pairwise_cons.1 he
    rw [slice?, List.find?_cons]
    rcases List.mem_cons.1 h with rfl | h
    · simp
    · have hne : field.1 ≠ index := UInt16.ne_of_lt (hfield _ h)
      rw [beq_eq_false_iff_ne.2 hne]
      exact ih hfields h

theorem slice?_eq_none (h : ∀ field ∈ e.fields, field.1 ≠ index) : e.slice? index = none := by
  rw [slice?, List.find?_eq_none.2 (by simpa using h), Option.map_none]

end Lookup

/-! ## Exactness -/

/-- The envelope holds what is written of each entry, and no other field. -/
structure HoldsEntries (e : Envelope) (entries : List Entry) : Prop where
  present : ∀ entry ∈ entries, ∃ slice,
    Wire.write entry.value = .ok slice ∧ e.slice? entry.index = some slice
  absent : ∀ index, (∀ entry ∈ entries, entry.index ≠ index) → e.slice? index = none

theorem holdsEntries_of_ofEntries {e : Envelope} {entries : List Entry}
    (h : ofEntries entries = .ok e) : e.HoldsEntries entries := by
  obtain ⟨hordered, hwritten⟩ := of_ofEntries h
  constructor
  · intro entry hentry
    obtain ⟨⟨index, slice⟩, hfield, rfl, hslice⟩ := exists_mem_of_forall₂ hwritten entry hentry
    exact ⟨slice, hslice, slice?_of_mem hordered hfield⟩
  · intro index hindex
    apply slice?_eq_none
    intro field hfield
    obtain ⟨entry, hentry, hwrite⟩ := exists_mem_of_forall₂ hwritten.flip field hfield
    exact hwrite.1 ▸ hindex entry hentry

/-- The slices as they stand under their indices. -/
def Layout.entries (l : Layout) : List Entry :=
  l.spans.map fun s ↦ .ofSlice s.index (s.slice l.body)

/-- The slices lie in the body, stand in the order of their indices and fill the body, and the
envelope that is built of them is written as the given bytes. -/
structure Layout.IsExact (l : Layout) (bytes : Bytes) : Prop where
  ascending : (l.spans.map (·.index)).Pairwise (· < ·)
  inBounds : ∀ s ∈ l.spans, s.start ≤ s.stop ∧ s.stop ≤ l.body.length
  filled : l.spans.flatMap (·.slice l.body) = l.body
  rebuilt : (do (← ofEntries l.entries).write) = .ok bytes

theorem exists_isExact_of_read {bytes rest : Bytes} {e : Envelope}
    (h : read bytes = .ok (e, rest)) : ∃ l front, readLayout bytes = .ok (l, rest) ∧
      bytes = front ++ rest ∧ l.IsExact front ∧ ∀ index, e.slice? index = l.slice? index := by
  obtain ⟨hreadable, front, hfront, hbytes⟩ := read_eq_ok h
  obtain ⟨l, hl, rfl⟩ := exists_layout_of_read h
  have hsound : l.IsSound := (isSound_of_readLayout hl).1
  have hindices : l.spans.map (·.index) = l.envelope.fields.map (·.1) := by
    simp [hsound.fields_envelope]
  have hentries : ofEntries l.entries = .ok l.envelope := by
    simpa [Layout.entries, hsound.fields_envelope, Function.comp_def]
      using hreadable.ofEntries_fields
  exact ⟨l, front, hl, hbytes,
    { ascending := hindices ▸ List.pairwise_map.2 hreadable.ordered
      inBounds := hsound.start_le_stop
      filled := hsound.flatMap_slice
      rebuilt := bind_of_eq_ok hentries hfront },
    hsound.slice?_envelope⟩

/-- What is built of entries is read back with a slice for each of them; and where bytes are
accepted, the slices that a reader cuts are those of an envelope that was built of them. -/
theorem slices_exact :
    (∀ entries bytes rest, (do (← ofEntries entries).write) = .ok bytes →
      ∃ e, read (bytes ++ rest) = .ok (e, rest) ∧ e.HoldsEntries entries) ∧
    ∀ bytes rest e, read bytes = .ok (e, rest) →
      ∃ l front, readLayout bytes = .ok (l, rest) ∧ bytes = front ++ rest ∧ l.IsExact front ∧
        ∀ index, e.slice? index = l.slice? index := by
  constructor
  · intro entries bytes rest h
    obtain ⟨e, he, hwrite⟩ := bind_eq_ok.1 h
    exact ⟨e, read_write (of_ofEntries he).1 hwrite rest, holdsEntries_of_ofEntries he⟩
  · intro bytes rest e h
    exact exists_isExact_of_read h

/-- The index 1 is left out, and the field under the index 2 is empty. -/
def gapEntries : List Entry :=
  [{ index := 0, value := (7 : UInt8) }, { index := 2, value := () },
    { index := 3, value := (258 : UInt32) }]

def gapBytes : Bytes :=
  [3, 0, 0, 0, 0, 0, 0, 0, 0, 0, 2, 0, 1, 0, 0, 0, 3, 0, 1, 0, 0, 0, 5, 0, 0, 0, 7, 2, 1, 0, 0]

/-- Three fields with a gap between them are written, and read in front of a byte that is left
over. -/
theorem slices_exact_gap :
    (do (← ofEntries gapEntries).write) = .ok gapBytes ∧
      ∃ e, read (gapBytes ++ [9]) = .ok (e, [9]) ∧ e.HoldsEntries gapEntries ∧
        ∃ l front, readLayout (gapBytes ++ [9]) = .ok (l, [9]) ∧
          gapBytes ++ [9] = front ++ [9] ∧ l.IsExact front ∧
          ∀ index, e.slice? index = l.slice? index := by
  have hwrite : (do (← ofEntries gapEntries).write) = .ok gapBytes := by rfl
  obtain ⟨e, hread, hholds⟩ := slices_exact.1 gapEntries gapBytes [9] hwrite
  exact ⟨hwrite, e, hread, hholds, slices_exact.2 _ _ e hread⟩

end ChainClient.Envelope
