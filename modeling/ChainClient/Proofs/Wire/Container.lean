import ChainClient.Proofs.Wire.Scalar
import ChainClient.Wire.Container

/-!
# Laws of containers

Options, pairs, lists and maps have the laws that their parts have. For lists the bound on
elements without bytes has to agree on both sides: the writer looks at all elements together,
the reader at one after the other, and the two come to the same because a type either needs
bytes for each of its values or for none. For maps the entries are written in key order, but
a reader takes them in any order: it inserts entries with different keys, and only one list of
given entries ascends.
-/

namespace ChainClient

namespace SortedMap

variable {α β : Type} {key : α → List Int}

/-- The order of the entries is a proof, so the entries decide the map. -/
theorem eq_of_entries_eq {map map' : SortedMap α key β} (h : map.entries = map'.entries) :
    map = map' := by
  cases map
  cases map'
  cases h
  rfl

/-- The entries of a map stand in the only order that ascends. -/
theorem eq_of_perm {map map' : SortedMap α key β} (h : map.entries.Perm map'.entries) :
    map = map' :=
  eq_of_entries_eq <| h.eq_of_pairwise
    (fun _ _ _ _ hlt hgt ↦ absurd hgt (List.lt_asymm hlt)) map.ascending map'.ascending

/-- The keys of a map differ, in whatever order its entries are listed. -/
theorem pairwise_ne_of_perm {map : SortedMap α key β} {entries : List (α × β)}
    (h : map.entries.Perm entries) : entries.Pairwise fun p q ↦ key p.1 ≠ key q.1 := by
  have hne : map.entries.Pairwise fun p q ↦ key p.1 ≠ key q.1 := by
    refine map.ascending.imp fun {p q} hlt heq ↦ ?_
    rw [heq] at hlt
    exact List.lt_irrefl _ hlt
  exact (h.pairwise_iff Ne.symm).1 hne

/-- Inserting a new key only adds its entry. -/
theorem insertEntry_perm {k : α} {v : β} {entries : List (α × β)}
    (h : ∀ entry ∈ entries, key entry.1 ≠ key k) :
    (insertEntry key k v entries).Perm ((k, v) :: entries) := by
  induction entries with
  | nil => exact .refl _
  | cons entry rest ih =>
    have hne : key k ≠ key entry.1 := Ne.symm (h entry List.mem_cons_self)
    have hrest := ih fun other hother ↦ h other (List.mem_cons_of_mem entry hother)
    rw [insertEntry, if_neg hne]
    split
    · exact .refl _
    · exact (hrest.cons entry).trans (.swap (k, v) entry rest)

/-- A key is absent if no entry has its sort key; the lookup compares sort keys, not values. -/
theorem contains_eq_false_iff {map : SortedMap α key β} {k : α} :
    map.contains k = false ↔ ∀ entry ∈ map.entries, key entry.1 ≠ key k := by
  simp [contains]

end SortedMap

namespace Wire

variable {α β : Type} [Wire α] [Wire β]

/-! ## Options -/

theorem readable_none : Readable (none : Option α) := by
  intro bytes rest hw
  obtain rfl := Except.ok.inj hw
  rfl

theorem Readable.some {x : α} (hx : Readable x) : Readable (some x) := by
  intro bytes rest hw
  obtain ⟨front, hfront, h⟩ := bind_eq_ok.1 hw
  obtain rfl := pure_eq_ok.1 h
  have hread := hx front rest hfront
  simp only [List.cons_append, read, hread]
  rfl

instance [Lossless α] : Lossless (Option α) where
  readable
    | none => readable_none
    | some x => (Lossless.readable x).some

instance [Canonical α] : Canonical (Option α) where
  write_of_read {bytes rest x} h := by
    cases bytes with
    | nil => simp [read] at h
    | cons tag bytes =>
      simp only [read] at h
      by_cases h0 : tag = 0
      · rw [if_pos h0] at h
        obtain ⟨rfl, rfl⟩ := Prod.mk.inj (Except.ok.inj h)
        exact ⟨[0], rfl, by rw [h0]; rfl⟩
      · rw [if_neg h0] at h
        by_cases h1 : tag = 1
        · rw [if_pos h1] at h
          obtain ⟨⟨y, rest'⟩, hy, hx⟩ := bind_eq_ok.1 h
          obtain ⟨rfl, rfl⟩ := Prod.mk.inj (pure_eq_ok.1 hx)
          obtain ⟨front, hw, rfl⟩ := Canonical.write_of_read hy
          refine ⟨1 :: front, ?_, by rw [h1]; rfl⟩
          exact bind_of_eq_ok hw rfl
        · rw [if_neg h1] at h
          simp at h

theorem isWrittenTagged_none : IsWrittenTagged 0 (fun _ : Unit ↦ (none : Option α)) :=
  fun _ ↦ rfl

theorem isWrittenTagged_some : IsWrittenTagged 1 (some : α → Option α) := fun _ ↦ rfl

instance [Unambiguous α] : Unambiguous (Option α) where
  eq_of_append_eq {x y _ _ _ _} hx hy h := by
    cases x with
    | none =>
      cases y with
      | none =>
        obtain rfl := Except.ok.inj (hx.symm.trans hy)
        exact ⟨rfl, List.append_cancel_left h⟩
      | some y =>
        exact (isWrittenTagged_none.false_of_append_eq (x := ()) isWrittenTagged_some
          (by decide) hx hy h).elim
    | some x =>
      cases y with
      | none =>
        exact (isWrittenTagged_some.false_of_append_eq (z := ()) isWrittenTagged_none
          (by decide) hx hy h).elim
      | some y => exact isWrittenTagged_some.eq_of_append_eq hx hy h

instance : UniformlyEmpty (Option α) := .of_ne_nil fun
  | none => fun h ↦ nomatch h
  | some _ => isWrittenTagged_some.ne_nil

/-! ## Results -/

theorem isWrittenTagged_ok : IsWrittenTagged 1 (Except.ok : β → Except α β) := fun _ ↦ rfl

theorem isWrittenTagged_error : IsWrittenTagged 0 (Except.error : α → Except α β) := fun _ ↦ rfl

theorem isReadTagged_ok : IsReadTagged 1 (Except.ok : β → Except α β) := fun _ ↦ rfl

theorem isReadTagged_error : IsReadTagged 0 (Except.error : α → Except α β) := fun _ ↦ rfl

theorem Readable.ok {x : β} (hx : Readable x) : Readable (.ok x : Except α β) :=
  hx.tagged isWrittenTagged_ok isReadTagged_ok

theorem Readable.error {x : α} (hx : Readable x) : Readable (.error x : Except α β) :=
  hx.tagged isWrittenTagged_error isReadTagged_error

instance [Canonical α] [Canonical β] : Canonical (Except α β) where
  write_of_read {bytes rest x} h := by
    cases bytes with
    | nil => cases h
    | cons tag bytes =>
      by_cases h1 : tag = 1
      · subst h1
        rw [isReadTagged_ok] at h
        exact isWrittenTagged_ok.write_of_read h
      by_cases h0 : tag = 0
      · subst h0
        rw [isReadTagged_error] at h
        exact isWrittenTagged_error.write_of_read h
      · simp only [read, if_neg h1, if_neg h0] at h
        cases h

instance [Unambiguous α] [Unambiguous β] : Unambiguous (Except α β) where
  eq_of_append_eq {x y _ _ _ _} hx hy h := by
    cases x with
    | ok x =>
      cases y with
      | ok y => exact isWrittenTagged_ok.eq_of_append_eq hx hy h
      | error y =>
        exact (isWrittenTagged_ok.false_of_append_eq isWrittenTagged_error (by decide) hx hy h).elim
    | error x =>
      cases y with
      | ok y =>
        exact (isWrittenTagged_error.false_of_append_eq isWrittenTagged_ok (by decide) hx hy h).elim
      | error y => exact isWrittenTagged_error.eq_of_append_eq hx hy h

instance : UniformlyEmpty (Except α β) := .of_ne_nil fun
  | .ok _ => isWrittenTagged_ok.ne_nil
  | .error _ => isWrittenTagged_error.ne_nil

/-! ## Pairs -/

theorem writePair_eq_ok {p : α × β} {bytes : Bytes} :
    write p = .ok bytes ↔ ∃ front back, write p.1 = .ok front ∧ write p.2 = .ok back ∧
      front ++ back = bytes := by
  have hdef : write p = (do
      let front ← write p.1
      return front ++ (← write p.2) : Except WireError Bytes) := rfl
  simp only [hdef, bind_eq_ok, pure_eq_ok, exists_and_left]

theorem readPair_eq_ok {p : α × β} {bytes rest : Bytes} :
    read bytes = .ok (p, rest) ↔
      ∃ middle, read bytes = .ok (p.1, middle) ∧ read middle = .ok (p.2, rest) := by
  constructor
  · intro h
    obtain ⟨⟨x, middle⟩, hx, h⟩ := bind_eq_ok.1 h
    obtain ⟨⟨y, rest'⟩, hy, h⟩ := bind_eq_ok.1 h
    obtain ⟨rfl, rfl⟩ := Prod.mk.inj (pure_eq_ok.1 h)
    exact ⟨middle, hx, hy⟩
  · rintro ⟨middle, hx, hy⟩
    apply bind_of_eq_ok hx
    exact bind_of_eq_ok hy rfl

theorem Readable.pair {p : α × β} (hx : Readable p.1) (hy : Readable p.2) : Readable p := by
  intro bytes rest hw
  obtain ⟨front, back, hfront, hback, rfl⟩ := writePair_eq_ok.1 hw
  refine readPair_eq_ok.2 ⟨back ++ rest, ?_, hy back rest hback⟩
  rw [List.append_assoc]
  exact hx front (back ++ rest) hfront

instance [Lossless α] [Lossless β] : Lossless (α × β) where
  readable _ := .pair (Lossless.readable _) (Lossless.readable _)

instance [Canonical α] [Canonical β] : Canonical (α × β) where
  write_of_read h := by
    obtain ⟨middle, hx, hy⟩ := readPair_eq_ok.1 h
    obtain ⟨front, hfront, rfl⟩ := Canonical.write_of_read hx
    obtain ⟨back, hback, rfl⟩ := Canonical.write_of_read hy
    refine ⟨front ++ back, writePair_eq_ok.2 ⟨front, back, hfront, hback, rfl⟩, ?_⟩
    rw [List.append_assoc]

instance [Exact α] [Exact β] : Exact (α × β) where

instance [Unambiguous α] [Unambiguous β] : Unambiguous (α × β) where
  eq_of_append_eq {p q front front' rest rest'} hp hq h := by
    obtain ⟨front₁, back₁, hfront₁, hback₁, rfl⟩ := writePair_eq_ok.1 hp
    obtain ⟨front₂, back₂, hfront₂, hback₂, rfl⟩ := writePair_eq_ok.1 hq
    rw [List.append_assoc, List.append_assoc] at h
    have hfirst := Unambiguous.eq_of_append_eq hfront₁ hfront₂ h
    have hsecond := Unambiguous.eq_of_append_eq hback₁ hback₂ hfirst.2
    exact ⟨Prod.ext hfirst.1 hsecond.1, hsecond.2⟩

instance [UniformlyEmpty α] [UniformlyEmpty β] : UniformlyEmpty (α × β) where
  eq_nil {p q bytes} hp hq := by
    obtain ⟨front, back, hfront, hback, hnil⟩ := writePair_eq_ok.1 hp
    obtain ⟨rfl, rfl⟩ := List.append_eq_nil_iff.1 hnil
    obtain ⟨front', back', hfront', hback', rfl⟩ := writePair_eq_ok.1 hq
    rw [UniformlyEmpty.eq_nil hfront hfront', UniformlyEmpty.eq_nil hback hback']
    rfl

/-! ## Items -/

/-- Above the bound on the count, an element has to move the input on. -/
theorem checkZeroWidth_eq_ok {before after : Bytes} {count : Nat} :
    checkZeroWidth before after count = .ok () ↔
      (Limits.maxZeroWidthElements < count → after.length ≠ before.length) := by
  unfold checkZeroWidth
  by_cases hcount : Limits.maxZeroWidthElements < count <;>
    by_cases hlen : after.length = before.length <;> simp [hcount, hlen]

/-- An item with bytes is never refused. -/
theorem checkZeroWidth_append {front rest : Bytes} {count : Nat}
    (h : Limits.maxZeroWidthElements < count → front ≠ []) :
    checkZeroWidth (front ++ rest) rest count = .ok () := by
  refine checkZeroWidth_eq_ok.2 fun hcount hlen ↦ h hcount ?_
  rw [List.length_append] at hlen
  rw [← List.length_eq_zero_iff]
  omega

theorem writeItems_cons {x : α} {xs : List α} {bytes : Bytes} :
    writeItems (x :: xs) = .ok bytes ↔ ∃ front back, write x = .ok front ∧
      writeItems xs = .ok back ∧ front ++ back = bytes := by
  simp only [writeItems, bind_eq_ok, pure_eq_ok, exists_and_left]

theorem readItems_succ {count n : Nat} {bytes rest : Bytes} {x : α} {xs : List α} :
    readItems count (n + 1) bytes = .ok (x :: xs, rest) ↔ ∃ middle,
      read bytes = .ok (x, middle) ∧ checkZeroWidth bytes middle count = .ok () ∧
        readItems count n middle = .ok (xs, rest) := by
  rw [readItems]
  constructor
  · intro h
    obtain ⟨⟨y, middle⟩, hy, h⟩ := bind_eq_ok.1 h
    obtain ⟨hcheck, h⟩ := bind_unit_eq_ok.1 h
    obtain ⟨⟨ys, rest'⟩, hys, h⟩ := bind_eq_ok.1 h
    obtain ⟨hcons, rfl⟩ := Prod.mk.inj (pure_eq_ok.1 h)
    obtain ⟨rfl, rfl⟩ := List.cons.inj hcons
    exact ⟨middle, hy, hcheck, hys⟩
  · rintro ⟨middle, hx, hcheck, hxs⟩
    apply bind_of_eq_ok hx
    apply bind_of_eq_ok hcheck
    exact bind_of_eq_ok hxs rfl

/-- The reader checks each item, so each has to have bytes if there are many. -/
theorem readItems_writeItems {count : Nat} {xs : List α} {body : Bytes}
    (hxs : ∀ x ∈ xs, Readable x)
    (hbytes : Limits.maxZeroWidthElements < count → ∀ x ∈ xs, write x ≠ .ok [])
    (hw : writeItems xs = .ok body) (rest : Bytes) :
    readItems count xs.length (body ++ rest) = .ok (xs, rest) := by
  induction xs generalizing body with
  | nil =>
    obtain rfl := Except.ok.inj hw
    rfl
  | cons x xs ih =>
    obtain ⟨front, back, hfront, hback, rfl⟩ := writeItems_cons.1 hw
    refine readItems_succ.2 ⟨back ++ rest, ?_, ?_, ?_⟩
    · rw [List.append_assoc]
      exact hxs x List.mem_cons_self front (back ++ rest) hfront
    · rw [List.append_assoc]
      exact checkZeroWidth_append fun hcount hnil ↦
        hbytes hcount x List.mem_cons_self (hnil ▸ hfront)
    · exact ih (fun y hy ↦ hxs y (List.mem_cons_of_mem x hy))
        (fun hcount y hy ↦ hbytes hcount y (List.mem_cons_of_mem x hy)) hback

/-- Each item has been read on its own. -/
theorem forall_of_readItems {P : α → Prop}
    (hread : ∀ {bytes rest : Bytes} {x : α}, read bytes = .ok (x, rest) → P x) {count n : Nat}
    {xs : List α} {bytes rest : Bytes} (h : readItems count n bytes = .ok (xs, rest)) :
    ∀ x ∈ xs, P x := by
  induction n generalizing xs bytes with
  | zero =>
    obtain ⟨rfl, -⟩ := Prod.mk.inj (Except.ok.inj h)
    simp
  | succ n ih =>
    obtain ⟨⟨x, middle⟩, hx, h⟩ := bind_eq_ok.1 h
    obtain ⟨-, h⟩ := bind_unit_eq_ok.1 h
    obtain ⟨⟨xs', rest'⟩, hxs, h⟩ := bind_eq_ok.1 h
    obtain ⟨rfl, rfl⟩ := Prod.mk.inj (pure_eq_ok.1 h)
    exact List.forall_mem_cons.2 ⟨hread hx, ih hxs⟩

/-- Items that pass the check one by one pass it together. -/
theorem writeItems_of_readItems [Canonical α] {count n : Nat} {xs : List α}
    {bytes rest : Bytes} (h : readItems count n bytes = .ok (xs, rest)) :
    xs.length = n ∧ ∃ body, writeItems xs = .ok body ∧ bytes = body ++ rest ∧
      (Limits.maxZeroWidthElements < count → 0 < n → body ≠ []) := by
  induction n generalizing xs bytes with
  | zero =>
    obtain ⟨rfl, rfl⟩ := Prod.mk.inj (Except.ok.inj h)
    exact ⟨rfl, [], rfl, rfl, fun _ hn ↦ absurd hn (Nat.lt_irrefl 0)⟩
  | succ n ih =>
    cases xs with
    | nil =>
      rw [readItems] at h
      obtain ⟨⟨y, middle⟩, _, h⟩ := bind_eq_ok.1 h
      obtain ⟨_, h⟩ := bind_unit_eq_ok.1 h
      obtain ⟨⟨ys, rest'⟩, _, h⟩ := bind_eq_ok.1 h
      exact absurd (Prod.mk.inj (pure_eq_ok.1 h)).1 (List.cons_ne_nil y ys)
    | cons x xs =>
      obtain ⟨middle, hx, hcheck, hxs⟩ := readItems_succ.1 h
      obtain ⟨front, hfront, rfl⟩ := Canonical.write_of_read hx
      obtain ⟨hlen, back, hback, rfl, -⟩ := ih hxs
      refine ⟨by rw [List.length_cons, hlen], front ++ back,
        writeItems_cons.2 ⟨front, back, hfront, hback, rfl⟩, by rw [List.append_assoc], ?_⟩
      intro hcount _ hnil
      have hne := checkZeroWidth_eq_ok.1 hcheck hcount
      rw [(List.append_eq_nil_iff.1 hnil).1] at hne
      exact hne rfl

/-- As many elements of an unambiguous form share no encoding, whatever follows them. -/
theorem eq_of_writeItems_append_eq [Unambiguous α] {xs ys : List α}
    {front front' rest rest' : Bytes} (hlen : xs.length = ys.length)
    (hxs : writeItems xs = .ok front) (hys : writeItems ys = .ok front')
    (h : front ++ rest = front' ++ rest') : xs = ys ∧ rest = rest' := by
  induction xs generalizing ys front front' with
  | nil =>
    obtain rfl := List.length_eq_zero_iff.1 hlen.symm
    obtain rfl := Except.ok.inj hxs
    obtain rfl := Except.ok.inj hys
    exact ⟨rfl, h⟩
  | cons x xs ih =>
    cases ys with
    | nil => simp at hlen
    | cons y ys =>
      obtain ⟨front₁, back₁, hfront₁, hback₁, rfl⟩ := writeItems_cons.1 hxs
      obtain ⟨front₂, back₂, hfront₂, hback₂, rfl⟩ := writeItems_cons.1 hys
      rw [List.append_assoc, List.append_assoc] at h
      have hfirst := Unambiguous.eq_of_append_eq hfront₁ hfront₂ h
      have hothers := ih (Nat.succ.inj hlen) hback₁ hback₂ hfirst.2
      exact ⟨by rw [hfirst.1, hothers.1], hothers.2⟩

/-- If one element is empty, all are, so the whole run is empty too. -/
theorem eq_nil_of_writeItems [UniformlyEmpty α] {x : α} {xs : List α} {body : Bytes}
    (hx : write x = .ok []) (hw : writeItems xs = .ok body) : body = [] := by
  induction xs generalizing body with
  | nil => exact (Except.ok.inj hw).symm
  | cons y ys ih =>
    obtain ⟨front, back, hfront, hback, rfl⟩ := writeItems_cons.1 hw
    rw [UniformlyEmpty.eq_nil hx hfront, ih hback]
    rfl

/-! ## Lists -/

/-- A list of more than the bound needs a body that is not empty. -/
theorem writeList_eq_ok {xs : List α} {bytes : Bytes} :
    write xs = .ok bytes ↔ ∃ front body, writeCount xs.length = .ok front ∧
      writeItems xs = .ok body ∧ (Limits.maxZeroWidthElements < xs.length → body ≠ []) ∧
        front ++ body = bytes := by
  have hcheck (body : Bytes) : checkZeroWidth body [] xs.length = .ok () ↔
      (Limits.maxZeroWidthElements < xs.length → body ≠ []) := by
    rw [checkZeroWidth_eq_ok]
    simp only [List.length_nil, ne_eq, eq_comm, List.length_eq_zero_iff]
  constructor
  · intro h
    obtain ⟨front, hfront, h⟩ := bind_eq_ok.1 h
    obtain ⟨body, hbody, h⟩ := bind_eq_ok.1 h
    obtain ⟨hne, h⟩ := bind_unit_eq_ok.1 h
    exact ⟨front, body, hfront, hbody, (hcheck body).1 hne, pure_eq_ok.1 h⟩
  · rintro ⟨front, body, hfront, hbody, hne, rfl⟩
    apply bind_of_eq_ok hfront
    apply bind_of_eq_ok hbody
    exact bind_of_eq_ok ((hcheck body).2 hne) rfl

/-- The count serves twice: as the number of elements and for the zero-width rule. -/
theorem readList_eq_ok {xs : List α} {bytes rest : Bytes} :
    read bytes = .ok (xs, rest) ↔ ∃ count middle, readCount bytes = .ok (count, middle) ∧
      readItems count count middle = .ok (xs, rest) := by
  constructor
  · intro h
    obtain ⟨⟨count, middle⟩, hcount, hitems⟩ := bind_eq_ok.1 h
    exact ⟨count, middle, hcount, hitems⟩
  · rintro ⟨count, middle, hcount, hitems⟩
    exact bind_of_eq_ok hcount hitems

/-- A list reads back if its elements do and are all empty or all not. -/
theorem Readable.list [UniformlyEmpty α] {xs : List α} (hxs : ∀ x ∈ xs, Readable x) :
    Readable xs := by
  intro bytes rest hw
  obtain ⟨front, body, hcount, hitems, hbody, rfl⟩ := writeList_eq_ok.1 hw
  refine readList_eq_ok.2 ⟨xs.length, body ++ rest, ?_, ?_⟩
  · exact readCount_eq_ok.2 ⟨front, hcount, List.append_assoc front body rest⟩
  · refine readItems_writeItems hxs (fun hlong x _ hx ↦ ?_) hitems rest
    exact hbody hlong (eq_nil_of_writeItems hx hitems)

instance [Lossless α] [UniformlyEmpty α] : Lossless (List α) where
  readable _ := .list fun _ _ ↦ Lossless.readable _

instance [Canonical α] : Canonical (List α) where
  write_of_read {bytes rest xs} h := by
    obtain ⟨count, middle, hcount, hitems⟩ := readList_eq_ok.1 h
    obtain ⟨front, hfront, rfl⟩ := readCount_eq_ok.1 hcount
    obtain ⟨rfl, body, hbody, rfl, hne⟩ := writeItems_of_readItems hitems
    have hlong : Limits.maxZeroWidthElements < xs.length → body ≠ [] := fun h ↦
      hne h (Nat.lt_of_le_of_lt (Nat.zero_le _) h)
    refine ⟨front ++ body, writeList_eq_ok.2 ⟨front, body, hfront, hbody, hlong, rfl⟩, ?_⟩
    rw [List.append_assoc]

instance [Unambiguous α] : Unambiguous (List α) where
  eq_of_append_eq {xs ys front front' rest rest'} hx hy h := by
    obtain ⟨count₁, body₁, hcount₁, hitems₁, -, rfl⟩ := writeList_eq_ok.1 hx
    obtain ⟨count₂, body₂, hcount₂, hitems₂, -, rfl⟩ := writeList_eq_ok.1 hy
    rw [List.append_assoc, List.append_assoc] at h
    obtain ⟨hlen, hbody⟩ := eq_of_writeCount_append_eq hcount₁ hcount₂ h
    exact eq_of_writeItems_append_eq hlen hitems₁ hitems₂ hbody

instance : UniformlyEmpty (List α) := .of_ne_nil fun xs h ↦ by
  obtain ⟨front, body, hcount, -, -, happend⟩ := writeList_eq_ok.1 h
  rw [(List.append_eq_nil_iff.1 happend).1] at hcount
  exact writeCount_ne_nil hcount

/-! ## Maps -/

theorem writeEntries_eq_writeItems (entries : List (α × β)) :
    writeEntries entries = writeItems entries := by
  induction entries with
  | nil => rfl
  | cons entry entries ih => rw [writeEntries, writeItems, ih]

variable {key : α → List Int}

/-- A map has no zero-width rule of its own: a second entry would need a second key. -/
theorem writeMap_eq_ok {map : SortedMap α key β} {bytes : Bytes} :
    write map = .ok bytes ↔ ∃ front body, writeCount map.entries.length = .ok front ∧
      writeItems map.entries = .ok body ∧ front ++ body = bytes := by
  have hdef : write map = (do
      let front ← writeCount map.entries.length
      return front ++ (← writeEntries map.entries) : Except WireError Bytes) := rfl
  simp only [hdef, bind_eq_ok, pure_eq_ok, exists_and_left, writeEntries_eq_writeItems]

/-- A key that is there already is an error before its entry is inserted. -/
theorem readEntries_succ (n : Nat) (acc : SortedMap α key β) (bytes : Bytes) :
    readEntries (n + 1) acc bytes = read bytes >>= fun p ↦ read p.2 >>= fun q ↦
      if acc.contains p.1 then .error (.malformed .duplicateMapKey)
      else readEntries n (acc.insert p.1 q.1) q.2 := by
  rw [readEntries]
  change (read bytes >>= fun p ↦ read p.2 >>= fun q ↦ .ok ((p.1, q.1), q.2)) >>= _ = _
  cases (read bytes : Except WireError (α × Bytes)) with
  | error e => rfl
  | ok p =>
    rw [ok_bind, ok_bind]
    cases (read p.2 : Except WireError (β × Bytes)) <;> rfl

/-- Entries in any order complete the map, if those that were read already are the others. -/
theorem readEntries_writeItems {map acc : SortedMap α key β} {entries : List (α × β)}
    {body : Bytes} (hreadable : ∀ entry ∈ entries, Readable entry)
    (hentries : map.entries.Perm (acc.entries ++ entries)) (hw : writeItems entries = .ok body)
    (rest : Bytes) : readEntries entries.length acc (body ++ rest) = .ok (map, rest) := by
  induction entries generalizing acc body with
  | nil =>
    obtain rfl := Except.ok.inj hw
    rw [List.append_nil] at hentries
    rw [SortedMap.eq_of_perm hentries]
    rfl
  | cons entry entries ih =>
    obtain ⟨front, back, hfront, hback, rfl⟩ := writeItems_cons.1 hw
    have hnew : ∀ other ∈ acc.entries, key other.1 ≠ key entry.1 := fun other hother ↦
      (List.pairwise_append.1 (SortedMap.pairwise_ne_of_perm hentries)).2.2 other hother entry
        List.mem_cons_self
    have hinsert : (acc.insert entry.1 entry.2).entries.Perm (entry :: acc.entries) :=
      SortedMap.insertEntry_perm hnew
    have hread := hreadable entry List.mem_cons_self front (back ++ rest) hfront
    rw [List.length_cons, readEntries, List.append_assoc, hread, ok_bind]
    simp only [SortedMap.contains_eq_false_iff.2 hnew, Bool.false_eq_true, if_false]
    refine ih (fun other hother ↦ hreadable other (List.mem_cons_of_mem entry hother)) ?_ hback
    calc
      map.entries.Perm (acc.entries ++ entry :: entries) := hentries
      List.Perm _ (entry :: acc.entries ++ entries) := List.perm_middle
      List.Perm _ ((acc.insert entry.1 entry.2).entries ++ entries) :=
        (hinsert.append_right entries).symm

/-- A reader of maps takes the entries in any order. -/
theorem readMap_of_perm {map : SortedMap α key β} {entries : List (α × β)} {front body : Bytes}
    (hreadable : ∀ entry ∈ entries, Readable entry) (hentries : map.entries.Perm entries)
    (hcount : writeCount entries.length = .ok front) (hw : writeItems entries = .ok body)
    (rest : Bytes) : read (front ++ body ++ rest) = .ok (map, rest) := by
  refine bind_eq_ok.2 ⟨(entries.length, body ++ rest), ?_, ?_⟩
  · exact readCount_eq_ok.2 ⟨front, hcount, List.append_assoc front body rest⟩
  · exact readEntries_writeItems hreadable hentries hw rest

/-- A map reads back if its entries do; its ascending keys are pairwise different. -/
theorem Readable.map {map : SortedMap α key β}
    (hreadable : ∀ entry ∈ map.entries, Readable entry) : Readable map := by
  intro bytes rest hw
  obtain ⟨front, body, hcount, hitems, rfl⟩ := writeMap_eq_ok.1 hw
  exact readMap_of_perm hreadable (.refl _) hcount hitems rest

instance [Lossless α] [Lossless β] : Lossless (SortedMap α key β) where
  readable _ := .map fun _ _ ↦ Lossless.readable _

instance [Unambiguous α] [Unambiguous β] : Unambiguous (SortedMap α key β) where
  eq_of_append_eq {map map' front front' rest rest'} hmap hmap' h := by
    obtain ⟨count₁, body₁, hcount₁, hitems₁, rfl⟩ := writeMap_eq_ok.1 hmap
    obtain ⟨count₂, body₂, hcount₂, hitems₂, rfl⟩ := writeMap_eq_ok.1 hmap'
    rw [List.append_assoc, List.append_assoc] at h
    obtain ⟨hlength, hbody⟩ := eq_of_writeCount_append_eq hcount₁ hcount₂ h
    obtain ⟨hentries, hrest⟩ := eq_of_writeItems_append_eq hlength hitems₁ hitems₂ hbody
    exact ⟨SortedMap.eq_of_entries_eq hentries, hrest⟩

instance : UniformlyEmpty (SortedMap α key β) := .of_ne_nil fun map h ↦ by
  obtain ⟨front, body, hcount, -, happend⟩ := writeMap_eq_ok.1 h
  rw [(List.append_eq_nil_iff.1 happend).1] at hcount
  exact writeCount_ne_nil hcount

/-! ## Maps whose entries are out of order -/

/-- Entries that are read in any order are those that the map gains. -/
theorem exists_entries_of_readEntries [Canonical α] [Canonical β] {n : Nat}
    {acc map : SortedMap α key β} {bytes rest : Bytes}
    (h : readEntries n acc bytes = .ok (map, rest)) : ∃ entries body,
      entries.length = n ∧ writeItems entries = .ok body ∧ bytes = body ++ rest ∧
      map.entries.Perm (acc.entries ++ entries) := by
  induction n generalizing acc bytes with
  | zero =>
    obtain ⟨rfl, rfl⟩ := Prod.mk.inj (Except.ok.inj h)
    exact ⟨[], [], rfl, rfl, rfl, .of_eq (List.append_nil _).symm⟩
  | succ n ih =>
    obtain ⟨⟨⟨k, v⟩, middle⟩, hentry, h⟩ := bind_eq_ok.1 h
    dsimp only at h
    split at h
    · cases h
    case isFalse hcontains =>
      obtain ⟨entries, back, hlength, hback, rfl, hperm⟩ := ih h
      obtain ⟨front, hfront, rfl⟩ := Canonical.write_of_read hentry
      have hnew := SortedMap.contains_eq_false_iff.1 (Bool.eq_false_iff.2 hcontains)
      have hinsert : (acc.insert k v).entries.Perm ((k, v) :: acc.entries) :=
        SortedMap.insertEntry_perm hnew
      refine ⟨(k, v) :: entries, front ++ back, by rw [List.length_cons, hlength],
        writeItems_cons.2 ⟨front, back, hfront, hback, rfl⟩, by rw [List.append_assoc], ?_⟩
      calc
        map.entries.Perm ((acc.insert k v).entries ++ entries) := hperm
        List.Perm _ ((k, v) :: acc.entries ++ entries) := hinsert.append_right entries
        List.Perm _ (acc.entries ++ (k, v) :: entries) := List.perm_middle.symm

/-- The entries of a map are accepted in any order, so what is read is a permutation of the
input. -/
theorem exists_entries_of_readMap [Canonical α] [Canonical β] {map : SortedMap α key β}
    {bytes rest : Bytes} (h : read bytes = .ok (map, rest)) : ∃ entries front body,
      writeCount entries.length = .ok front ∧ writeItems entries = .ok body ∧
      bytes = front ++ body ++ rest ∧ map.entries.Perm entries := by
  obtain ⟨⟨count, middle⟩, hcount, hentries⟩ := bind_eq_ok.1 h
  obtain ⟨front, hfront, rfl⟩ := readCount_eq_ok.1 hcount
  obtain ⟨entries, body, rfl, hbody, rfl, hperm⟩ := exists_entries_of_readEntries hentries
  exact ⟨entries, front, body, hfront, hbody, by rw [List.append_assoc], hperm⟩

/-- Items are written in one order if they are in another, and take as many bytes. -/
theorem exists_writeItems_of_perm {xs ys : List α} (hperm : xs.Perm ys) {body : Bytes}
    (h : writeItems xs = .ok body) :
    ∃ body', writeItems ys = .ok body' ∧ body'.length = body.length := by
  induction hperm generalizing body with
  | nil => exact ⟨body, h, rfl⟩
  | cons x _ ih =>
    obtain ⟨front, back, hfront, hback, rfl⟩ := writeItems_cons.1 h
    obtain ⟨back', hback', hlength⟩ := ih hback
    refine ⟨front ++ back', writeItems_cons.2 ⟨front, back', hfront, hback', rfl⟩, ?_⟩
    rw [List.length_append, List.length_append, hlength]
  | swap x y xs =>
    obtain ⟨front, middle, hfront, hmiddle, rfl⟩ := writeItems_cons.1 h
    obtain ⟨front', back, hfront', hback, rfl⟩ := writeItems_cons.1 hmiddle
    have hback' : writeItems (y :: xs) = .ok (front ++ back) :=
      writeItems_cons.2 ⟨front, back, hfront, hback, rfl⟩
    refine ⟨front' ++ (front ++ back),
      writeItems_cons.2 ⟨front', front ++ back, hfront', hback', rfl⟩, ?_⟩
    simp only [List.length_append]
    omega
  | trans _ _ ih ih' =>
    obtain ⟨body', hbody', hlength⟩ := ih h
    obtain ⟨body'', hbody'', hlength'⟩ := ih' hbody'
    exact ⟨body'', hbody'', hlength'.trans hlength⟩

end Wire

end ChainClient
