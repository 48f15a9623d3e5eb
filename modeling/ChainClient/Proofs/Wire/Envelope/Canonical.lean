import ChainClient.Proofs.Wire.Envelope

/-!
# Envelopes that are read

A reader of envelopes accepts written forms only. The rows that it takes have ascending indices
and offsets that start at zero and never go back, so the fields that they cut out of the body
follow each other without a gap, and their table is the one that was read. A type that is
written as an envelope then has a canonical form if the fields its parser asks for are the
fields its writer adds, which is settled by the slices under the indices up to the greatest one.
-/

namespace ChainClient.Envelope

open Wire (Canonical bind_eq_ok bind_of_eq_ok guard_eq_ok pure_eq_ok)

/-! ## Tables that are read -/

def rowBytes (row : UInt16 × Nat) : Bytes := Wire.leBytes 2 row.1.toNat ++ Wire.leBytes 4 row.2

theorem table_eq_flatMap_rows (offset : Nat) (fields : List (UInt16 × Bytes)) :
    table offset fields = (rows offset fields).flatMap rowBytes := by
  induction fields generalizing offset with
  | nil => rfl
  | cons field fields ih => rw [table, rows, List.flatMap_cons, ih, rowBytes]

/-- The second row may follow the first one, next to it or later. -/
def Before (row other : UInt16 × Nat) : Prop := row.1 < other.1 ∧ row.2 ≤ other.2

theorem Before.trans {row other last : UInt16 × Nat} (h : Before row other)
    (h' : Before other last) : Before row last :=
  ⟨UInt16.lt_trans h.1 h'.1, Nat.le_trans h.2 h'.2⟩

/-- The rows that may follow the given one, or begin a table. -/
def Follow (last : Option (UInt16 × Nat)) (rest : List (UInt16 × Nat)) : Prop :=
  match last with
  | none => ∀ row ∈ rest.head?, row.2 = 0
  | some last => ∀ row ∈ rest, Before last row

/-- A row is read if the check against the row before it is passed. -/
theorem exists_row_of_readTable {n : Nat} {last : Option (UInt16 × Nat)} {bytes rest : Bytes}
    {found : List (UInt16 × Nat)} (h : readTable (n + 1) last bytes = .ok (found, rest)) :
    ∃ row others middle, Follow last [row] ∧ bytes = rowBytes row ++ middle ∧
      readTable n (some row) middle = .ok (others, rest) ∧ found = row :: others := by
  have hparts (index : UInt16) (offset : Nat) (middle middle' : Bytes)
      (hindex : Wire.read bytes = .ok (index, middle))
      (hoffset : Wire.readNat 4 middle = .ok (offset, middle')) :
      bytes = rowBytes (index, offset) ++ middle' := by
    obtain ⟨front, hfront, rfl⟩ := Wire.Canonical.write_of_read hindex
    obtain rfl := Except.ok.inj hfront
    obtain ⟨-, rfl⟩ := Wire.readNat_eq_ok.1 hoffset
    rw [rowBytes, List.append_assoc]
  cases last with
  | none =>
    obtain ⟨⟨index, middle⟩, hindex, h⟩ := bind_eq_ok.1 h
    obtain ⟨⟨offset, middle'⟩, hoffset, h⟩ := bind_eq_ok.1 h
    obtain ⟨hzero, h⟩ := guard_eq_ok.1 h
    obtain ⟨⟨others, rest'⟩, hothers, h⟩ := bind_eq_ok.1 h
    obtain ⟨rfl, rfl⟩ := Prod.mk.inj (pure_eq_ok.1 h)
    refine ⟨(index, offset), others, middle', ?_, hparts _ _ _ _ hindex hoffset, hothers, rfl⟩
    simpa [Follow] using hzero
  | some last =>
    obtain ⟨⟨index, middle⟩, hindex, h⟩ := bind_eq_ok.1 h
    obtain ⟨⟨offset, middle'⟩, hoffset, h⟩ := bind_eq_ok.1 h
    obtain ⟨hbefore, h⟩ := guard_eq_ok.1 h
    obtain ⟨⟨others, rest'⟩, hothers, h⟩ := bind_eq_ok.1 h
    obtain ⟨rfl, rfl⟩ := Prod.mk.inj (pure_eq_ok.1 h)
    refine ⟨(index, offset), others, middle', ?_, hparts _ _ _ _ hindex hoffset, hothers, rfl⟩
    simpa [Follow, Before] using hbefore

theorem readTable_eq_ok {n : Nat} {last : Option (UInt16 × Nat)} {bytes rest : Bytes}
    {found : List (UInt16 × Nat)} (h : readTable n last bytes = .ok (found, rest)) :
    found.length = n ∧ found.Pairwise Before ∧ Follow last found ∧
      bytes = found.flatMap rowBytes ++ rest := by
  induction n generalizing last bytes found with
  | zero =>
    obtain ⟨rfl, rfl⟩ := Prod.mk.inj (Except.ok.inj h)
    refine ⟨rfl, .nil, ?_, rfl⟩
    cases last <;> simp [Follow]
  | succ n ih =>
    obtain ⟨row, others, middle, hrow, rfl, hothers, rfl⟩ := exists_row_of_readTable h
    obtain ⟨hlength, hpairwise, hfollow, rfl⟩ := ih hothers
    refine ⟨by rw [List.length_cons, hlength], List.pairwise_cons.2 ⟨hfollow, hpairwise⟩, ?_, ?_⟩
    · cases last with
      | none => simpa [Follow] using hrow
      | some last =>
        have hlast : Before last row := hrow row List.mem_cons_self
        intro other hother
        rcases List.mem_cons.1 hother with rfl | hother
        · exact hlast
        · exact hlast.trans (hfollow other hother)
    · rw [List.flatMap_cons, List.append_assoc]

/-! ## Bodies that are read -/

/-- The fields that are cut out have the rows that cut them out, and they are the whole body. -/
theorem rows_cut {start : Nat} {body : Bytes} {index : UInt16} {others : List (UInt16 × Nat)}
    (hpairwise : ((index, start) :: others).Pairwise Before)
    (hend : ∀ row ∈ (index, start) :: others, row.2 ≤ start + body.length) :
    rows start (cut start body ((index, start) :: others)) = (index, start) :: others ∧
      (cut start body ((index, start) :: others)).flatMap (·.2) = body := by
  induction others generalizing start body index with
  | nil => simp [cut, rows]
  | cons next others ih =>
    obtain ⟨next, offset⟩ := next
    obtain ⟨hbefore, hothers⟩ := List.pairwise_cons.1 hpairwise
    have hstart : start ≤ offset := (hbefore (next, offset) List.mem_cons_self).2
    have hoffset : offset ≤ start + body.length :=
      hend (next, offset) (List.mem_cons_of_mem _ List.mem_cons_self)
    have htake : start + (body.take (offset - start)).length = offset := by
      rw [List.length_take]
      omega
    have hdrop : offset + (body.drop (offset - start)).length = start + body.length := by
      rw [List.length_drop]
      omega
    have hrest := ih hothers fun row hrow ↦ hdrop ▸ hend row (List.mem_cons_of_mem _ hrow)
    rw [cut, rows, List.flatMap_cons, htake, hrest.1, hrest.2]
    exact ⟨rfl, List.take_append_drop _ _⟩

/-- What a reader of envelopes can return. -/
structure IsReadable (e : Envelope) : Prop where
  ordered : e.Ordered
  length_body_lt : e.body.length < UInt32.size

theorem map_fst_rows (offset : Nat) (fields : List (UInt16 × Bytes)) :
    (rows offset fields).map (·.1) = fields.map (·.1) := by
  induction fields generalizing offset with
  | nil => rfl
  | cons field fields ih => rw [rows, List.map_cons, List.map_cons, ih]

theorem length_rows (offset : Nat) (fields : List (UInt16 × Bytes)) :
    (rows offset fields).length = fields.length := by
  have hlength := congrArg List.length (map_fst_rows offset fields)
  simpa using hlength

theorem ascending_of_rows {offset : Nat} {fields : List (UInt16 × Bytes)}
    (h : (rows offset fields).Pairwise Before) : Ascending fields := by
  have hindices : ((rows offset fields).map (·.1)).Pairwise (· < ·) :=
    List.pairwise_map.2 (h.imp And.left)
  rw [map_fst_rows] at hindices
  exact List.pairwise_map.1 hindices

theorem offset_le_getLast {found : List (UInt16 × Nat)} {last : UInt16 × Nat}
    (hpairwise : found.Pairwise Before) (hlast : found.getLast? = some last) :
    ∀ row ∈ found, row.2 ≤ last.2 := by
  obtain ⟨init, rfl⟩ := List.getLast?_eq_some_iff.1 hlast
  have hbefore := (List.pairwise_append.1 hpairwise).2.2
  intro row hrow
  rcases List.mem_append.1 hrow with hrow | hrow
  · exact (hbefore row hrow last (List.mem_singleton.2 rfl)).2
  · exact Nat.le_of_eq (congrArg Prod.snd (List.mem_singleton.1 hrow))

/-- A table and the body that its rows cut. -/
structure Layout where
  rows : List (UInt16 × Nat)
  body : Bytes
  deriving DecidableEq, Repr

namespace Layout

def envelope (l : Layout) : Envelope := ⟨cut 0 l.body l.rows⟩

/-- What the reader has checked: the rows start at zero, they go on, none of them lies beyond the
body, and a body has rows. -/
structure IsSound (l : Layout) : Prop where
  pairwise : l.rows.Pairwise Before
  starts : Follow none l.rows
  within : ∀ row ∈ l.rows, row.2 ≤ l.body.length
  covered : l.rows = [] → l.body = []

end Layout

/-- The reader up to the point where it cuts the body. -/
def readLayout (bytes : Bytes) : Except WireError (Layout × Bytes) := do
  let (count, rest) ← Wire.readCount bytes
  let (rows, rest) ← readTable count none rest
  let (body, rest) ← Wire.readBlock rest
  match rows.getLast? with
  | some (_, offset) =>
    if body.length < offset then
      throw (.malformed .offsetPastEnd)
  | none =>
    if !body.isEmpty then
      throw (.malformed .bodyWithoutFields)
  return (⟨rows, body⟩, rest)

theorem read_eq_readLayout (bytes : Bytes) :
    read bytes = readLayout bytes >>= fun p ↦ .ok (p.1.envelope, p.2) := by
  unfold read readLayout
  cases Wire.readCount bytes with
  | error e => rfl
  | ok p =>
    simp only [Wire.ok_bind]
    cases readTable p.1 none p.2 with
    | error e => rfl
    | ok p =>
      simp only [Wire.ok_bind]
      cases Wire.readBlock p.2 with
      | error e => rfl
      | ok q =>
        simp only [Wire.ok_bind]
        cases p.1.getLast? with
        | none => cases q.1 <;> rfl
        | some last =>
          by_cases hend : q.1.length < last.2
          · simp only [if_pos hend]
            rfl
          · simp only [if_neg hend]
            rfl

/-- What a reader of envelopes has seen when it accepts. -/
theorem isSound_of_readLayout {bytes rest : Bytes} {l : Layout}
    (h : readLayout bytes = .ok (l, rest)) : l.IsSound ∧ ∃ count block,
      Wire.writeCount l.rows.length = .ok count ∧ Wire.writeBlock l.body = .ok block ∧
      bytes = count ++ l.rows.flatMap rowBytes ++ block ++ rest := by
  obtain ⟨⟨n, middle⟩, hreadCount, hafterCount⟩ := bind_eq_ok.1 h
  obtain ⟨⟨found, middle'⟩, hreadTable, hafterTable⟩ := bind_eq_ok.1 hafterCount
  obtain ⟨⟨body, rest'⟩, hreadBody, hcheck⟩ := bind_eq_ok.1 hafterTable
  obtain ⟨count, hcount, rfl⟩ := Wire.readCount_eq_ok.1 hreadCount
  obtain ⟨rfl, hpairwise, hfollow, rfl⟩ := readTable_eq_ok hreadTable
  obtain ⟨block, hblock, rfl⟩ := Wire.readBlock_eq_ok.1 hreadBody
  have hend : (∀ row ∈ found, row.2 ≤ body.length) ∧ (found = [] → body = []) ∧
      ((⟨found, body⟩ : Layout), rest') = (l, rest) := by
    cases hlast : found.getLast? with
    | none =>
      simp only [hlast] at hcheck
      obtain ⟨hempty, hreturn⟩ := guard_eq_ok.1 hcheck
      obtain rfl := List.getLast?_eq_none_iff.1 hlast
      exact ⟨by simp, fun _ ↦ by simpa using hempty, pure_eq_ok.1 hreturn⟩
    | some last =>
      simp only [hlast] at hcheck
      obtain ⟨hlt, hreturn⟩ := guard_eq_ok.1 hcheck
      have hle : ∀ row ∈ found, row.2 ≤ body.length := fun row hrow ↦
        Nat.le_trans (offset_le_getLast hpairwise hlast row hrow) (Nat.not_lt.1 hlt)
      exact ⟨hle, fun hnil ↦ by simp [hnil] at hlast, pure_eq_ok.1 hreturn⟩
  obtain ⟨hle, hempty, hlayout⟩ := hend
  obtain ⟨rfl, rfl⟩ := Prod.mk.inj hlayout
  refine ⟨⟨hpairwise, hfollow, hle, hempty⟩, count, block, hcount, hblock, ?_⟩
  simp only [List.append_assoc]

/-- The fields of a sound layout have its rows and fill its body. -/
theorem Layout.IsSound.rows_envelope {l : Layout} (h : l.IsSound) :
    Envelope.rows 0 l.envelope.fields = l.rows ∧ l.envelope.body = l.body := by
  obtain ⟨found, body⟩ := l
  cases found with
  | nil => exact ⟨rfl, (h.covered rfl).symm⟩
  | cons row others =>
    obtain ⟨index, offset⟩ := row
    obtain rfl : offset = 0 := h.starts (index, offset) rfl
    exact rows_cut h.pairwise fun row hrow ↦ (Nat.zero_add _).symm ▸ h.within row hrow

theorem exists_layout_of_read {bytes rest : Bytes} {e : Envelope}
    (h : read bytes = .ok (e, rest)) :
    ∃ l, readLayout bytes = .ok (l, rest) ∧ l.envelope = e := by
  rw [read_eq_readLayout] at h
  obtain ⟨⟨l, rest'⟩, hl, he⟩ := bind_eq_ok.1 h
  obtain ⟨rfl, rfl⟩ := Prod.mk.inj (Except.ok.inj he)
  exact ⟨l, hl, rfl⟩

theorem read_eq_ok {bytes rest : Bytes} {e : Envelope} (h : read bytes = .ok (e, rest)) :
    e.IsReadable ∧ ∃ front, e.write = .ok front ∧ bytes = front ++ rest := by
  obtain ⟨l, hl, rfl⟩ := exists_layout_of_read h
  obtain ⟨hsound, count, block, hcount, hblock, rfl⟩ := isSound_of_readLayout hl
  obtain ⟨hrows, hbody⟩ := hsound.rows_envelope
  have hlength : l.envelope.fields.length = l.rows.length := by
    rw [← length_rows 0, hrows]
  have hlt : l.body.length < UInt32.size := by
    obtain ⟨front, hfront, -⟩ := Wire.writeBlock_eq_ok.1 hblock
    exact (Wire.writeCount_eq_ok.1 hfront).1
  refine ⟨⟨ascending_of_rows (hrows.symm ▸ hsound.pairwise), hbody.symm ▸ hlt⟩, _, ?_, rfl⟩
  rw [write, hlength, hbody, hcount, hblock, table_eq_flatMap_rows, hrows]
  rfl

/-! ## Fields under consecutive indices -/

section Consecutive

variable {β : Type}

/-- What stands under the indices from `start` on; nothing is listed for an index that is left
out. -/
def consecutive : Nat → List (Option β) → List (UInt16 × β)
  | _, [] => []
  | start, none :: slices => consecutive (start + 1) slices
  | start, some slice :: slices => (UInt16.ofNat start, slice) :: consecutive (start + 1) slices

/-- A look-up under the indices from `start` on gives the slices one after the other. -/
inductive Holds (fields : List (UInt16 × β)) : Nat → List (Option β) → Prop
  | nil {start : Nat} : Holds fields start []
  | cons {start : Nat} {slice : Option β} {slices : List (Option β)}
    (hslice : (fields.find? fun field ↦ field.1 == UInt16.ofNat start).map (·.2) = slice)
    (hslices : Holds fields (start + 1) slices) : Holds fields start (slice :: slices)

theorem fst_beq_ofNat {field : UInt16 × β} {start : Nat} (hstart : start < UInt16.size)
    (hne : field.1.toNat ≠ start) : (field.1 == UInt16.ofNat start) = false := by
  rw [beq_eq_false_iff_ne]
  intro heq
  have htoNat : (UInt16.ofNat start).toNat = start := UInt16.toNat_ofNat_of_lt' hstart
  rw [heq] at hne
  exact hne htoNat

/-- A field below the indices that are looked up does not count. -/
theorem Holds.tail {field : UInt16 × β} {fields : List (UInt16 × β)} {start : Nat}
    {slices : List (Option β)} (hsize : start + slices.length ≤ UInt16.size)
    (hfield : field.1.toNat < start) (h : Holds (field :: fields) start slices) :
    Holds fields start slices := by
  induction h with
  | nil => exact .nil
  | cons hslice _ ih =>
    rw [List.length_cons] at hsize
    rw [List.find?_cons, fst_beq_ofNat (by omega) (Nat.ne_of_lt hfield)] at hslice
    exact .cons hslice (ih (by omega) (by omega))

/-- Ascending fields are determined by what is found under their indices. -/
theorem eq_consecutive {fields : List (UInt16 × β)} {start : Nat} {slices : List (Option β)}
    (hsize : start + slices.length ≤ UInt16.size)
    (hascending : fields.Pairwise fun field other ↦ field.1 < other.1)
    (hbound : ∀ field ∈ fields, start ≤ field.1.toNat ∧ field.1.toNat < start + slices.length)
    (h : Holds fields start slices) : fields = consecutive start slices := by
  induction slices generalizing start fields with
  | nil =>
    cases fields with
    | nil => rfl
    | cons field fields =>
      have hfield := hbound field List.mem_cons_self
      rw [List.length_nil] at hfield
      omega
  | cons slice slices ih =>
    rw [List.length_cons] at hsize hbound
    obtain _ | ⟨hslice, hslices⟩ := h
    -- Either the first field stands under the index in question, or nothing does.
    by_cases hhead : ∀ field ∈ fields, field.1.toNat ≠ start
    · have hnone : fields.find? (fun field ↦ field.1 == UInt16.ofNat start) = none := by
        rw [List.find?_eq_none]
        intro field hfield
        simpa using fst_beq_ofNat (by omega) (hhead field hfield)
      rw [hnone] at hslice
      obtain rfl : none = slice := hslice
      refine ih (by omega) hascending (fun field hfield ↦ ?_) hslices
      have hne := hhead field hfield
      have hlt := hbound field hfield
      omega
    · cases fields with
      | nil => simp at hhead
      | cons field fields =>
        obtain ⟨hfirst, hothers⟩ := List.pairwise_cons.1 hascending
        have hgt : ∀ other ∈ fields, field.1.toNat < other.1.toNat := fun other hother ↦
          UInt16.lt_iff_toNat_lt.1 (hfirst other hother)
        have hstart : field.1.toNat = start := by
          refine Decidable.not_not.1 fun hne ↦ hhead fun other hother ↦ ?_
          have hle := (hbound field List.mem_cons_self).1
          rcases List.mem_cons.1 hother with rfl | hother
          · exact hne
          · have hlt := hgt other hother
            omega
        have hindex : field.1 = UInt16.ofNat start := by rw [← hstart, UInt16.ofNat_toNat]
        rw [List.find?_cons, hindex, beq_self_eq_true] at hslice
        obtain rfl : some field.2 = slice := hslice
        have hrest := ih (by omega) hothers (fun other hother ↦ ?_)
          (hslices.tail (by omega) (by omega))
        · rw [consecutive, ← hrest, ← hindex]
        · have hlt := hgt other hother
          have hle := hbound other (List.mem_cons_of_mem field hother)
          omega

end Consecutive

theorem eq_of_holds {e : Envelope} {slices : List (Option Bytes)} {n : UInt16}
    (hordered : e.Ordered) (hmax : e.ensureMaxIndex n = .ok ()) (h : Holds e.fields 0 slices)
    (hn : slices.length = n.toNat + 1) : e = ⟨consecutive 0 slices⟩ := by
  have hlt := n.toNat_lt
  have hbound : ∀ field ∈ e.fields, 0 ≤ field.1.toNat ∧ field.1.toNat < 0 + slices.length := by
    intro field hfield
    have hle : field.1 ≤ n := by
      unfold ensureMaxIndex at hmax
      split at hmax
      · cases hmax
      case isFalse hany =>
        refine UInt16.not_lt.1 fun hgt ↦ hany ?_
        exact List.any_eq_true.2 ⟨field, hfield, decide_eq_true hgt⟩
    have hle' := UInt16.le_iff_toNat_le.1 hle
    omega
  have hsize : 0 + slices.length ≤ UInt16.size := by
    rw [hn, Nat.zero_add]
    exact hlt
  exact congrArg mk (eq_consecutive hsize hordered hbound h)

/-! ## Fields that are read -/

section Field

variable {α β : Type} [Wire α] {e : Envelope} {index : UInt16}

/-- A field is chosen or left out as its slice is. -/
theorem optionalField_eq_ok {x : Option α} (h : e.optionalField index = .ok x) :
    Option.Rel (fun x slice ↦ Wire.readAll slice = .ok x) x (e.slice? index) := by
  unfold optionalField at h
  cases hslice : e.slice? index with
  | none =>
    rw [hslice] at h
    obtain rfl := Except.ok.inj h
    exact .none
  | some slice =>
    rw [hslice] at h
    obtain ⟨y, hread, hx⟩ := bind_eq_ok.1 h
    obtain rfl := pure_eq_ok.1 hx
    exact .some hread

theorem readAll_of_field {x : α} (h : e.field index = .ok x) :
    ∃ slice, Wire.readAll slice = .ok x ∧ e.slice? index = some slice := by
  obtain ⟨found, hfound, hx⟩ := bind_eq_ok.1 h
  have hrel := optionalField_eq_ok hfound
  cases found with
  | none => cases hx
  | some y =>
    obtain rfl := Except.ok.inj hx
    generalize e.slice? index = found at hrel
    obtain ⟨hread⟩ := hrel
    exact ⟨_, hread, rfl⟩

theorem exists_slice_of_field [Canonical α] {x : α} (h : e.field index = .ok x) :
    ∃ slice, Wire.write x = .ok slice ∧ e.slice? index = some slice := by
  obtain ⟨slice, hread, hslice⟩ := readAll_of_field h
  exact ⟨slice, Wire.write_of_readAll hread, hslice⟩

/-- A field that is taken before others. -/
theorem exists_slice_of_field_bind [Canonical α] {next : α → Except WireError β} {b : β}
    (h : e.field index >>= next = .ok b) : ∃ x slice,
      Wire.write x = .ok slice ∧ e.slice? index = some slice ∧ next x = .ok b := by
  obtain ⟨x, hx, hnext⟩ := bind_eq_ok.1 h
  obtain ⟨slice, hw, hslice⟩ := exists_slice_of_field hx
  exact ⟨x, slice, hw, hslice, hnext⟩

/-- An optional field that is taken before others. -/
theorem exists_slice_of_optionalField_bind [Canonical α]
    {next : Option α → Except WireError β} {b : β} (h : e.optionalField index >>= next = .ok b) :
    ∃ x slice, Option.Rel (fun x slice ↦ Wire.write x = .ok slice) x slice ∧
      e.slice? index = slice ∧ next x = .ok b := by
  obtain ⟨x, hx, hnext⟩ := bind_eq_ok.1 h
  have hrel := optionalField_eq_ok hx
  generalize hslice : e.slice? index = slice at hrel
  refine ⟨x, slice, ?_, rfl, hnext⟩
  cases hrel with
  | none => exact .none
  | some hread => exact .some (Wire.write_of_readAll hread)

/-! ## Fields that are added again -/

variable {front back : List (UInt16 × Bytes)} {x : α} {slice : Bytes}

/-- What a reader returns is built without a refusal. -/
theorem IsReadable.add (he : e.IsReadable) (hw : Wire.write x = .ok slice)
    (hfields : e.fields = front ++ (index, slice) :: back) :
    (⟨front⟩ : Envelope).add index x = .ok ⟨front ++ [(index, slice)]⟩ := by
  have hordered : Ascending (front ++ (index, slice) :: back) := hfields ▸ he.ordered
  refine add_eq_ok (fun field hfield ↦ ?_) ?_ hw
  · exact (List.pairwise_append.1 hordered).2.2 field hfield (index, slice) List.mem_cons_self
  · have hlt := he.length_body_lt
    rw [body, hfields, List.flatMap_append, List.length_append] at hlt
    exact Nat.lt_of_le_of_lt (Nat.le_add_right _ _) hlt

theorem IsReadable.add_bind {next : Envelope → Except WireError β} {b : β} (he : e.IsReadable)
    (hw : Wire.write x = .ok slice) (hfields : e.fields = front ++ (index, slice) :: back)
    (hnext : next ⟨front ++ [(index, slice)]⟩ = .ok b) :
    (⟨front⟩ : Envelope).add index x >>= next = .ok b :=
  bind_of_eq_ok (he.add hw hfields) hnext

end Field

theorem IsReadable.ofTag_bind {β : Type} {e : Envelope} {tag : UInt8}
    {back : List (UInt16 × Bytes)} {next : Envelope → Except WireError β} {b : β}
    (he : e.IsReadable) (hfields : e.fields = (0, [tag]) :: back)
    (hnext : next ⟨[(0, [tag])]⟩ = .ok b) : ofTag tag >>= next = .ok b :=
  he.add_bind rfl hfields hnext

/-! ## A tag alone and a tag with one field -/

section Tagged

variable {α : Type} [Wire α] [Canonical α] {e : Envelope} {tag : UInt8} {x : α}

theorem IsReadable.ofTag_eq (he : e.IsReadable) (hmax : e.ensureMaxIndex 0 = .ok ())
    (htag : e.slice? 0 = some [tag]) : ofTag tag = .ok e := by
  obtain rfl := eq_of_holds he.ordered hmax (.cons htag .nil) rfl
  rfl

theorem IsReadable.ofTag_add (he : e.IsReadable) (hmax : e.ensureMaxIndex 1 = .ok ())
    (htag : e.slice? 0 = some [tag]) (hx : e.field 1 = .ok x) :
    (do (← ofTag tag).add 1 x) = .ok e := by
  obtain ⟨slice, hw, hslice⟩ := exists_slice_of_field hx
  obtain rfl := eq_of_holds he.ordered hmax (.cons htag (.cons hslice .nil)) rfl
  apply he.ofTag_bind rfl
  exact he.add hw rfl

end Tagged

end ChainClient.Envelope

namespace ChainClient.Wire

/-- A reader of envelopes accepts written forms only, if a parser accepts only what the writer
builds. -/
theorem Canonical.ofEnvelope {α : Type} {build : α → Except WireError Envelope}
    {parse : Envelope → Except WireError α} {lengths : α → List Nat}
    (h : ∀ {x e}, e.IsReadable → parse e = .ok x → build x = .ok e) :
    @Canonical α (Wire.ofEnvelope build parse lengths) :=
  @Canonical.mk α (Wire.ofEnvelope build parse lengths) fun {bytes rest x} hread ↦ by
    obtain ⟨⟨e, rest'⟩, he, hparse⟩ := bind_eq_ok.1 hread
    obtain ⟨y, hy, hx⟩ := bind_eq_ok.1 hparse
    obtain ⟨rfl, rfl⟩ := Prod.mk.inj (pure_eq_ok.1 hx)
    obtain ⟨hreadable, front, hfront, hbytes⟩ := Envelope.read_eq_ok he
    exact ⟨front, bind_of_eq_ok (h hreadable hy) hfront, hbytes⟩

end ChainClient.Wire
