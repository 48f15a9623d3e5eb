import ChainClient.Proofs.Wire.Container
import ChainClient.Proofs.Wire.Envelope

/-!
# Truncated forms

A reader that gets only the front of a written form reports an early end, and nothing else: it
checks a part no sooner than it has all bytes of that part. For two steps after each other the
bytes end in the first one, or the first one finds all of its own and they end in the second.
The checks between steps see parts that are whole, so they pass as they do on the entire form.
-/

namespace ChainClient.Wire

/-! ## Steps -/

section Step

variable {α β : Type} {front back : Bytes}

/-- If some of the bytes are missing at the end, the step reports an early end. -/
def EndsEarly (step : Bytes → Except WireError β) (bytes : Bytes) : Prop :=
  ∀ part missing : Bytes, missing ≠ [] → bytes = part ++ missing → step part = .error .earlyEnd

/-- A cut falls into the front, or behind it into the back. -/
theorem cut_of_append_eq_append {part missing : Bytes} (h : front ++ back = part ++ missing) :
    (∃ middle, middle ≠ [] ∧ front = part ++ middle) ∨
      ∃ middle, part = front ++ middle ∧ back = middle ++ missing := by
  rcases List.append_eq_append_iff.1 h with ⟨middle, hpart, hback⟩ | ⟨middle, hfront, hmissing⟩
  · exact .inr ⟨middle, hpart, hback⟩
  · cases middle with
    | nil => exact .inr ⟨[], by simpa using hfront.symm, by simpa using hmissing.symm⟩
    | cons b middle => exact .inl ⟨b :: middle, List.cons_ne_nil _ _, hfront⟩

namespace EndsEarly

variable {step : Bytes → Except WireError α} {next : Bytes → α → Except WireError β}

theorem nil : EndsEarly step [] := by
  intro part missing hmissing h
  exact absurd (List.append_eq_nil_iff.1 h.symm).2 hmissing

/-- A form in two parts ends early if both parts do, the second one behind the first. -/
theorem append (hfront : EndsEarly step front)
    (hback : EndsEarly (fun bytes ↦ step (front ++ bytes)) back) :
    EndsEarly step (front ++ back) := by
  intro part missing hmissing happend
  rcases cut_of_append_eq_append happend with ⟨middle, hmiddle, hpart⟩ | ⟨middle, rfl, hmiddle⟩
  · exact hfront part middle hmiddle hpart
  · exact hback middle missing hmissing hmiddle

/-- A byte that decides how the others are read. -/
theorem cons {b : UInt8} {bytes : Bytes} (hnil : step [] = .error .earlyEnd)
    (hcons : EndsEarly (fun bytes ↦ step (b :: bytes)) bytes) : EndsEarly step (b :: bytes) := by
  intro part missing hmissing happend
  cases part with
  | nil => exact hnil
  | cons b' part =>
    obtain ⟨rfl, hbytes⟩ := List.cons.inj happend
    exact hcons part missing hmissing hbytes

/-- What comes after the step does not run. -/
theorem andThen (h : EndsEarly step front) :
    EndsEarly (fun bytes ↦ step bytes >>= next bytes) front := by
  intro part missing hmissing hfront
  dsimp only
  rw [h part missing hmissing hfront, error_bind]

/-- A step that ends early, and behind it another one that does. -/
theorem bind {step : Bytes → Except WireError (α × Bytes)}
    {next : α × Bytes → Except WireError β} {x : α} (h : EndsEarly step front)
    (hstep : ∀ rest, step (front ++ rest) = .ok (x, rest))
    (hnext : EndsEarly (fun bytes ↦ next (x, bytes)) back) :
    EndsEarly (fun bytes ↦ step bytes >>= next) (front ++ back) := by
  refine h.andThen.append ?_
  simpa only [hstep, ok_bind] using hnext

theorem singleton {b : UInt8} (hnil : step [] = .error .earlyEnd) : EndsEarly step [b] :=
  cons hnil nil

end EndsEarly

end Step

/-! ## Numbers, bytes and text -/

theorem endsEarly_split {n : Nat} {front : Bytes} (h : front.length = n) :
    EndsEarly (split n) front := by
  rintro part missing hmissing rfl
  have hpos := List.length_pos_iff.2 hmissing
  rw [List.length_append] at h
  have hshort : (part.take n).length ≠ n := by
    rw [List.length_take]
    omega
  rw [split, List.splitAt_eq]
  exact if_neg hshort

theorem endsEarly_readNat (width n : Nat) : EndsEarly (readNat width) (leBytes width n) :=
  (endsEarly_split (length_leBytes width n)).andThen

theorem endsEarly_readCount {n : Nat} {front : Bytes} (h : writeCount n = .ok front) :
    EndsEarly readCount front := by
  obtain ⟨-, rfl⟩ := writeCount_eq_ok.1 h
  exact endsEarly_readNat 4 n

theorem endsEarly_readBlock {raw block : Bytes} (h : writeBlock raw = .ok block) :
    EndsEarly readBlock block := by
  obtain ⟨front, hfront, rfl⟩ := writeBlock_eq_ok.1 h
  refine (endsEarly_readCount hfront).bind (fun rest ↦ ?_) (endsEarly_split rfl)
  exact readCount_eq_ok.2 ⟨front, hfront, rfl⟩

/-! ## The law -/

variable {α β : Type} [Wire α] [Wire β]

/-- Whatever is missing at the end of what is written of the value, the reader finds that it is
missing. -/
def NoticesCuts (x : α) : Prop :=
  ∀ bytes, write x = .ok bytes → EndsEarly (read : Bytes → Except WireError (α × Bytes)) bytes

/-- Every value notices cuts. -/
class Watchful (α : Type) [Wire α] : Prop where
  noticesCuts : ∀ x : α, NoticesCuts x

theorem Watchful.of_total {form : α → Bytes} (hwrite : ∀ x, write x = .ok (form x))
    (hread : ∀ x, EndsEarly (read : Bytes → Except WireError (α × Bytes)) (form x)) :
    Watchful α where
  noticesCuts x bytes hw := by
    rw [hwrite] at hw
    obtain rfl := Except.ok.inj hw
    exact hread x

instance : Watchful UInt16 := .of_total (fun _ ↦ rfl) fun _ ↦ (endsEarly_readNat 2 _).andThen

instance : Watchful UInt32 := .of_total (fun _ ↦ rfl) fun _ ↦ (endsEarly_readNat 4 _).andThen

instance : Watchful UInt64 := .of_total (fun _ ↦ rfl) fun _ ↦ (endsEarly_readNat 8 _).andThen

instance : Watchful Blob where
  noticesCuts _ _ hw := (endsEarly_readBlock hw).andThen

instance : Watchful String where
  noticesCuts _ _ hw := (endsEarly_readBlock hw).andThen

instance {n : Nat} : Watchful (Octets n) := .of_total (fun _ ↦ rfl) fun x ↦ by
  rintro part missing hmissing happend
  have hpos := List.length_pos_iff.2 hmissing
  have hlength : part.length + missing.length = n := by
    rw [← List.length_append, ← happend, x.length_toList]
  have hshort : (part.take n).length ≠ n := by
    rw [List.length_take]
    omega
  simp only [read, List.splitAt_eq]
  exact dif_neg hshort

/-! ## Other forms -/

theorem NoticesCuts.via {γ : Type} {toParts : γ → β} {ofParts : β → γ} {x : γ}
    (h : NoticesCuts (toParts x)) : @NoticesCuts γ (.via toParts ofParts) x :=
  fun bytes hw ↦ (h bytes hw).andThen

theorem Watchful.via {γ : Type} {toParts : γ → β} {ofParts : β → γ} [Watchful β] :
    @Watchful γ (Wire.via toParts ofParts) :=
  @Watchful.mk γ (Wire.via toParts ofParts) fun _ ↦ .via (Watchful.noticesCuts _)

/-- A cut in front of the tag leaves nothing to read, and one behind it is in the content. -/
theorem NoticesCuts.tagged {tag : UInt8} {make : β → α} {x : β}
    (hwrite : IsWrittenTagged tag make) (hread : IsReadTagged tag make)
    (hnil : (read [] : Except WireError (α × Bytes)) = .error .earlyEnd) (hx : NoticesCuts x) :
    NoticesCuts (make x) := by
  intro bytes hw
  obtain ⟨body, hbody, rfl⟩ := hwrite.write_eq_ok.1 hw
  have hbehind :
      EndsEarly (fun bytes ↦ (read (tag :: bytes) : Except WireError (α × Bytes))) body := by
    simp only [hread _]
    exact (hx body hbody).andThen
  exact .cons hnil hbehind

/-! ## Containers -/

instance [Watchful α] : Watchful (Option α) where
  noticesCuts x bytes hw := by
    cases x with
    | none =>
      obtain rfl := Except.ok.inj hw
      exact .singleton rfl
    | some x =>
      exact NoticesCuts.tagged isWrittenTagged_some (fun _ ↦ rfl) rfl (Watchful.noticesCuts x)
        bytes hw

/-- The first part has to be readable, since a cut in the second one leaves it whole. -/
theorem NoticesCuts.pair {p : α × β} (hread : Readable p.1) (hx : NoticesCuts p.1)
    (hy : NoticesCuts p.2) : NoticesCuts p := by
  intro bytes hw
  obtain ⟨front, back, hfront, hback, rfl⟩ := writePair_eq_ok.1 hw
  refine (hx front hfront).bind (fun rest ↦ hread front rest hfront) ?_
  exact (hy back hback).andThen

/-- The value stands behind one that is always read back. -/
theorem NoticesCuts.behind [Lossless α] [Watchful α] {y : β} (hy : NoticesCuts y) (x : α) :
    NoticesCuts (x, y) :=
  .pair (Lossless.readable x) (Watchful.noticesCuts x) hy

instance [Lossless α] [Watchful α] [Watchful β] : Watchful (α × β) where
  noticesCuts p := (Watchful.noticesCuts p.2).behind p.1

/-- The items before the cut are whole, so none of them is refused for having no bytes. -/
theorem endsEarly_readItems {count : Nat} {xs : List α} (hreadable : ∀ x ∈ xs, Readable x)
    (hcuts : ∀ x ∈ xs, NoticesCuts x)
    (hbytes : Limits.maxZeroWidthElements < count → ∀ x ∈ xs, write x ≠ .ok []) {body : Bytes}
    (hw : writeItems xs = .ok body) :
    EndsEarly (readItems count xs.length : Bytes → Except WireError (List α × Bytes)) body := by
  induction xs generalizing body with
  | nil =>
    obtain rfl := Except.ok.inj hw
    exact .nil
  | cons x xs ih =>
    obtain ⟨front, back, hfront, hback, rfl⟩ := writeItems_cons.1 hw
    have hothers := ih (fun y hy ↦ hreadable y (List.mem_cons_of_mem x hy))
      (fun y hy ↦ hcuts y (List.mem_cons_of_mem x hy))
      (fun hcount y hy ↦ hbytes hcount y (List.mem_cons_of_mem x hy)) hback
    have hcheck (rest : Bytes) : checkZeroWidth (front ++ rest) rest count = .ok () :=
      checkZeroWidth_append fun hcount hnil ↦
        hbytes hcount x List.mem_cons_self (hnil ▸ hfront)
    have hread (rest : Bytes) : read (front ++ rest) = .ok (x, rest) :=
      hreadable x List.mem_cons_self front rest hfront
    rw [List.length_cons]
    refine .append ?_ ?_
    · exact (hcuts x List.mem_cons_self front hfront).andThen
    · simp only [readItems, hread, hcheck, ok_bind]
      exact hothers.andThen

/-- The count is never cut unnoticed, and behind it no item is. -/
theorem NoticesCuts.list [UniformlyEmpty α] {xs : List α} (hreadable : ∀ x ∈ xs, Readable x)
    (hcuts : ∀ x ∈ xs, NoticesCuts x) : NoticesCuts xs := by
  intro bytes hw
  obtain ⟨front, body, hcount, hitems, hbody, rfl⟩ := writeList_eq_ok.1 hw
  have hbytes : Limits.maxZeroWidthElements < xs.length → ∀ x ∈ xs, write x ≠ .ok [] :=
    fun hlong x _ hx ↦ hbody hlong (eq_nil_of_writeItems hx hitems)
  refine (endsEarly_readCount hcount).bind (fun rest ↦ ?_)
    (endsEarly_readItems hreadable hcuts hbytes hitems)
  exact readCount_eq_ok.2 ⟨front, hcount, rfl⟩

instance [Lossless α] [UniformlyEmpty α] [Watchful α] : Watchful (List α) where
  noticesCuts _ := .list (fun _ _ ↦ Lossless.readable _) fun _ _ ↦ Watchful.noticesCuts _

end ChainClient.Wire

/-! ## Envelopes -/

namespace ChainClient.Envelope

open Wire (EndsEarly bind_eq_ok)

variable {offset : Nat} {fields : List (UInt16 × Bytes)}

/-- The rows before the cut are whole, and they are checked against each other only. -/
theorem endsEarly_readTable {last : Option (UInt16 × Nat)} (hascending : Ascending fields)
    (hlast : Precedes last offset fields)
    (hbody : offset + (fields.flatMap (·.2)).length < Wire.capacity 4) :
    EndsEarly (readTable fields.length last) (table offset fields) := by
  induction fields generalizing offset last with
  | nil => exact .nil
  | cons field fields ih =>
    obtain ⟨index, slice⟩ := field
    obtain ⟨hindex, hfields⟩ := List.pairwise_cons.1 hascending
    simp only [List.flatMap_cons, List.length_append] at hbody
    have hprecedes : Precedes (some (index, offset)) (offset + slice.length) fields :=
      ⟨Nat.le_add_right _ _, hindex⟩
    have hothers := ih hfields hprecedes (by omega)
    have hreadIndex (rest : Bytes) : Wire.read (Wire.leBytes 2 index.toNat ++ rest) =
        .ok (index, rest) := Wire.Lossless.readable index _ rest rfl
    have hrow : EndsEarly (readTable (fields.length + 1) last)
        (Wire.leBytes 2 index.toNat ++ Wire.leBytes 4 offset) :=
      (Wire.Watchful.noticesCuts index _ rfl).bind hreadIndex
        (Wire.endsEarly_readNat 4 offset).andThen
    rw [table, List.length_cons]
    refine hrow.append ?_
    simp only [readTable_cons _ hlast (by omega : offset < Wire.capacity 4)]
    exact hothers.andThen

/-- A cut in the table or in the body of an ordered envelope is noticed. -/
theorem endsEarly_read {e : Envelope} (hordered : e.Ordered) {bytes : Bytes}
    (hw : e.write = .ok bytes) : EndsEarly read bytes := by
  obtain ⟨count, hcount, hw⟩ := bind_eq_ok.1 hw
  obtain ⟨block, hblock, hw⟩ := bind_eq_ok.1 hw
  obtain rfl := Wire.pure_eq_ok.1 hw
  have hlt : 0 + (e.fields.flatMap (·.2)).length < Wire.capacity 4 := by
    obtain ⟨front, hfront, -⟩ := Wire.writeBlock_eq_ok.1 hblock
    rw [Nat.zero_add]
    exact (Wire.writeCount_eq_ok.1 hfront).1
  have hfirst : Precedes none 0 e.fields := (rfl : (0 : Nat) = 0)
  rw [List.append_assoc]
  refine (Wire.endsEarly_readCount hcount).bind
    (fun rest ↦ Wire.readCount_eq_ok.2 ⟨count, hcount, rfl⟩) ?_
  refine (endsEarly_readTable hordered hfirst hlt).bind
    (readTable_table hordered hfirst hlt) ?_
  exact (Wire.endsEarly_readBlock hblock).andThen

end ChainClient.Envelope

namespace ChainClient.Wire

theorem NoticesCuts.ofEnvelope {α : Type} {build : α → Except WireError Envelope}
    {parse : Envelope → Except WireError α} {lengths : α → List Nat} {x : α}
    (h : ∀ e, build x = .ok e → e.Ordered) :
    @NoticesCuts α (.ofEnvelope build parse lengths) x := by
  intro bytes hw
  obtain ⟨e, he, hbytes⟩ := bind_eq_ok.1 hw
  exact (Envelope.endsEarly_read (h e he) hbytes).andThen

/-! ## Readers that use up their input -/

variable {α : Type} [Wire α] {x : α}

/-- Bytes that are missing at the end of what is written of the value are reported as an early
end, and bytes that follow it are counted. -/
structure IsDelimited (x : α) : Prop where
  earlyEnd : ∀ bytes part : Bytes, write x = .ok bytes → part <+: bytes → part ≠ bytes →
    (readAll part : Except WireError α) = .error .earlyEnd
  leftOver : ∀ bytes rest : Bytes, write x = .ok bytes → rest ≠ [] →
    (readAll (bytes ++ rest) : Except WireError α) = .error (.leftOver rest.length)

theorem IsDelimited.of_readable (hread : Readable x) (hcuts : NoticesCuts x) : IsDelimited x where
  earlyEnd bytes part hw hpart hne := by
    obtain ⟨missing, rfl⟩ := hpart
    have hmissing : missing ≠ [] := by
      rintro rfl
      exact hne (List.append_nil part).symm
    rw [readAll, hcuts _ hw part missing hmissing rfl, error_bind]
  leftOver bytes rest hw hrest := by
    rw [readAll, hread bytes rest hw, ok_bind]
    exact if_neg (by simpa using hrest)

end ChainClient.Wire
