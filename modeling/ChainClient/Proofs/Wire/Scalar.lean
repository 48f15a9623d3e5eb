import ChainClient.Proofs.Wire.Laws

/-!
# Numbers, bytes and text

Little-endian numbers of a fixed width, blocks of bytes behind their length, texts and byte
strings of a fixed length are exact: their readers accept what their writers produce and
nothing else. For numbers this is the statement that `leBytes` and `leValue` undo each other
on as many bytes as the number is wide.
-/

namespace ChainClient.Wire

/-! ## Splitting -/

theorem split_eq_ok {n : Nat} {bytes front rest : Bytes} :
    split n bytes = .ok (front, rest) ↔ front.length = n ∧ bytes = front ++ rest := by
  unfold split
  rw [List.splitAt_eq]
  constructor
  · intro h
    by_cases hlen : (bytes.take n).length = n
    · obtain ⟨rfl, rfl⟩ := Prod.mk.inj (Except.ok.inj ((if_pos hlen).symm.trans h))
      exact ⟨hlen, (List.take_append_drop n bytes).symm⟩
    · exact absurd ((if_neg hlen).symm.trans h) (by simp)
  · rintro ⟨rfl, rfl⟩
    simp

theorem split_zero (bytes : Bytes) : split 0 bytes = .ok ([], bytes) := by simp [split]

theorem split_succ (n : Nat) (b : UInt8) (bytes : Bytes) :
    split (n + 1) (b :: bytes) = split n bytes >>= fun p ↦ .ok (b :: p.1, p.2) := by
  simp only [split, List.splitAt_eq, List.take_succ_cons, List.drop_succ_cons, List.length_cons,
    Nat.add_right_cancel_iff]
  split <;> rfl

/-! ## Little-endian numbers -/

/-- Within the capacity of the width, little-endian bytes give the number back. -/
theorem leValue_leBytes {width n : Nat} (h : n < capacity width) :
    leValue (leBytes width n) = n := by
  induction width generalizing n with
  | zero =>
    have hzero : n < 1 := h
    simp only [leBytes, leValue]
    omega
  | succ width ih =>
    have hrest : n / 256 < capacity width := by
      simp only [capacity] at h
      omega
    simp only [leBytes, leValue, ih hrest, UInt8.toNat_ofNat']
    omega

/-- Every byte string is the little-endian form of its value at its own length. -/
theorem leBytes_leValue (bytes : Bytes) : leBytes bytes.length (leValue bytes) = bytes := by
  induction bytes with
  | nil => rfl
  | cons b rest ih =>
    have hb := b.toNat_lt
    have hdiv : (b.toNat + 256 * leValue rest) / 256 = leValue rest := by omega
    have hmod : UInt8.ofNat (b.toNat + 256 * leValue rest) = b := by
      rw [UInt8.ofNat_eq_iff_mod_eq_toNat]
      omega
    simp only [List.length_cons, leValue, leBytes, hdiv, hmod, ih]

theorem readNat_eq_ok {width n : Nat} {bytes rest : Bytes} :
    readNat width bytes = .ok (n, rest) ↔
      n < capacity width ∧ bytes = leBytes width n ++ rest := by
  unfold readNat
  rw [bind_eq_ok]
  constructor
  · rintro ⟨⟨front, rest'⟩, hsplit, h⟩
    obtain ⟨rfl, rfl⟩ := Prod.mk.inj (pure_eq_ok.1 h)
    obtain ⟨rfl, rfl⟩ := split_eq_ok.1 hsplit
    exact ⟨leValue_lt front, by rw [leBytes_leValue]⟩
  · rintro ⟨hn, rfl⟩
    refine ⟨(leBytes width n, rest), split_eq_ok.2 ⟨length_leBytes width n, rfl⟩, ?_⟩
    rw [pure_eq_ok, leValue_leBytes hn]

/-- A type of numbers that fill `width` bytes. -/
theorem Exact.ofNat {α : Type} [Wire α] {width : Nat} {toNat : α → Nat} {ofNat : Nat → α}
    (hwrite : ∀ x, write x = .ok (leBytes width (toNat x)))
    (hread : ∀ bytes, read bytes = (do
      let (n, rest) ← readNat width bytes
      return (ofNat n, rest) : Except WireError (α × Bytes)))
    (hlt : ∀ x, toNat x < capacity width) (hofNat : ∀ x, ofNat (toNat x) = x)
    (htoNat : ∀ n, n < capacity width → toNat (ofNat n) = n) : Exact α := by
  apply Exact.of_read_eq_ok
  intro bytes rest x
  rw [hread, bind_eq_ok]
  constructor
  · rintro ⟨⟨n, rest'⟩, hn, h⟩
    obtain ⟨rfl, rfl⟩ := Prod.mk.inj (pure_eq_ok.1 h)
    obtain ⟨hlt, rfl⟩ := readNat_eq_ok.1 hn
    exact ⟨leBytes width n, by rw [hwrite, htoNat n hlt], rfl⟩
  · rintro ⟨front, hw, rfl⟩
    rw [hwrite] at hw
    obtain rfl := Except.ok.inj hw
    refine ⟨(toNat x, rest), readNat_eq_ok.2 ⟨hlt x, rfl⟩, ?_⟩
    rw [pure_eq_ok, hofNat]

instance : Exact UInt16 :=
  .ofNat (fun _ ↦ rfl) (fun _ ↦ rfl) UInt16.toNat_lt (fun _ ↦ UInt16.ofNat_toNat)
    fun _ h ↦ UInt16.toNat_ofNat_of_lt' h

instance : Exact UInt32 :=
  .ofNat (fun _ ↦ rfl) (fun _ ↦ rfl) UInt32.toNat_lt (fun _ ↦ UInt32.ofNat_toNat)
    fun _ h ↦ UInt32.toNat_ofNat_of_lt' h

instance : Exact UInt64 :=
  .ofNat (fun _ ↦ rfl) (fun _ ↦ rfl) UInt64.toNat_lt (fun _ ↦ UInt64.ofNat_toNat)
    fun _ h ↦ UInt64.toNat_ofNat_of_lt' h

/-- Numbers of one width are all written in as many bytes. -/
theorem UniformlyEmpty.ofNat {α : Type} [Wire α] {width : Nat} {toNat : α → Nat}
    (hwrite : ∀ x, write x = .ok (leBytes width (toNat x))) : UniformlyEmpty α where
  eq_nil {x y bytes} hx hy := by
    rw [hwrite] at hx hy
    obtain rfl := Except.ok.inj hy
    apply List.eq_nil_of_length_eq_zero
    calc
      (leBytes width (toNat y)).length = width := length_leBytes _ _
      _ = (leBytes width (toNat x)).length := (length_leBytes _ _).symm
      _ = 0 := by rw [Except.ok.inj hx, List.length_nil]

instance : UniformlyEmpty UInt16 := .ofNat fun _ ↦ rfl

instance : UniformlyEmpty UInt32 := .ofNat fun _ ↦ rfl

instance : UniformlyEmpty UInt64 := .ofNat fun _ ↦ rfl

instance : Exact Int32 := .via Int32.toInt32_toUInt32 UInt32.toUInt32_toInt32

instance : UniformlyEmpty Int32 := .via

instance : Exact Int64 := .via Int64.toInt64_toUInt64 UInt64.toUInt64_toInt64

instance : UniformlyEmpty Int64 := .via

/-! ## One byte or none -/

instance : Exact UInt8 := .of_read_eq_ok fun {bytes rest x} ↦ by
  cases bytes with
  | nil => simp [read, write]
  | cons b bytes =>
    simp only [read, write, Except.ok.injEq, Prod.mk.injEq]
    constructor
    · rintro ⟨rfl, rfl⟩
      exact ⟨[b], rfl, rfl⟩
    · rintro ⟨front, rfl, h⟩
      simpa using h

instance : UniformlyEmpty UInt8 := .of_ne_nil fun _ h ↦ nomatch h

instance : Exact Bool := .of_read_eq_ok fun {bytes rest x} ↦ by
  cases bytes with
  | nil => cases x <;> simp [read, write]
  | cons b bytes =>
    by_cases h0 : b = 0
    · cases x <;> simp [read, write, h0]
    · by_cases h1 : b = 1
      · cases x <;> simp [read, write, h1]
      · cases x <;> simp [read, write, h0, h1]

instance : UniformlyEmpty Bool := .of_ne_nil fun _ h ↦ nomatch h

instance : Exact Unit := .of_read_eq_ok fun {bytes rest x} ↦ by
  simp [read, write]

instance : UniformlyEmpty Unit where
  eq_nil _ h := (Except.ok.inj h).symm

/-! ## Counts and blocks -/

theorem capacity_four : capacity 4 = UInt32.size := rfl

/-- A count fits 32 bits or cannot be written. -/
theorem writeCount_eq_ok {n : Nat} {bytes : Bytes} :
    writeCount n = .ok bytes ↔ n < UInt32.size ∧ leBytes 4 n = bytes := by
  unfold writeCount
  by_cases h : n < UInt32.size
  · simp [h]
  · simp only [h, if_false, false_and, reduceCtorEq]

/-- A count reads back, and only a written count is read. -/
theorem readCount_eq_ok {n : Nat} {bytes rest : Bytes} :
    readCount bytes = .ok (n, rest) ↔
      ∃ front, writeCount n = .ok front ∧ bytes = front ++ rest := by
  unfold readCount
  rw [readNat_eq_ok, capacity_four]
  simp only [writeCount_eq_ok, and_assoc, exists_and_left, exists_eq_left']

/-- Counts have one width, so they are told apart whatever follows. -/
theorem eq_of_writeCount_append_eq {n n' : Nat} {front front' rest rest' : Bytes}
    (hn : writeCount n = .ok front) (hn' : writeCount n' = .ok front')
    (h : front ++ rest = front' ++ rest') : n = n' ∧ rest = rest' := by
  have hread : readCount (front ++ rest) = .ok (n, rest) := readCount_eq_ok.2 ⟨front, hn, rfl⟩
  have hread' : readCount (front ++ rest) = .ok (n', rest') := readCount_eq_ok.2 ⟨front', hn', h⟩
  rw [hread] at hread'
  simpa using hread'

theorem writeBlock_eq_ok {raw bytes : Bytes} :
    writeBlock raw = .ok bytes ↔ ∃ front, writeCount raw.length = .ok front ∧
      front ++ raw = bytes := by
  unfold writeBlock
  rw [bind_eq_ok]
  simp only [pure_eq_ok]

/-- A block is accepted in its written form only: its length decides where it ends. -/
theorem readBlock_eq_ok {raw bytes rest : Bytes} :
    readBlock bytes = .ok (raw, rest) ↔
      ∃ front, writeBlock raw = .ok front ∧ bytes = front ++ rest := by
  unfold readBlock
  rw [bind_eq_ok]
  constructor
  · rintro ⟨⟨n, rest'⟩, hn, hsplit⟩
    obtain ⟨count, hcount, rfl⟩ := readCount_eq_ok.1 hn
    obtain ⟨rfl, rfl⟩ := split_eq_ok.1 hsplit
    exact ⟨count ++ raw, writeBlock_eq_ok.2 ⟨count, hcount, rfl⟩, by rw [List.append_assoc]⟩
  · rintro ⟨front, hw, rfl⟩
    obtain ⟨count, hcount, rfl⟩ := writeBlock_eq_ok.1 hw
    refine ⟨(raw.length, raw ++ rest), readCount_eq_ok.2 ⟨count, hcount, ?_⟩,
      split_eq_ok.2 ⟨rfl, rfl⟩⟩
    rw [List.append_assoc]

theorem writeCount_ne_nil {n : Nat} : writeCount n ≠ .ok [] := by
  intro h
  have hlen := congrArg List.length (writeCount_eq_ok.1 h).2
  simp [length_leBytes] at hlen

theorem writeBlock_ne_nil {raw : Bytes} : writeBlock raw ≠ .ok [] := by
  intro h
  obtain ⟨front, hfront, happend⟩ := writeBlock_eq_ok.1 h
  rw [(List.append_eq_nil_iff.1 happend).1] at hfront
  exact writeCount_ne_nil hfront

instance : Exact Blob := .of_read_eq_ok fun {bytes rest x} ↦ by
  simp only [read, write, bind_eq_ok, pure_eq_ok]
  constructor
  · rintro ⟨⟨raw, rest'⟩, hraw, h⟩
    obtain ⟨rfl, rfl⟩ := Prod.mk.inj h
    exact readBlock_eq_ok.1 hraw
  · intro h
    exact ⟨(x.toList, rest), readBlock_eq_ok.2 h, rfl⟩

instance : UniformlyEmpty Blob := .of_ne_nil fun _ ↦ writeBlock_ne_nil

/-! ## Text -/

theorem fromUTF8?_utf8 (s : String) : String.fromUTF8? ⟨(utf8 s).toArray⟩ = some s := by
  simp [utf8, String.fromUTF8?, String.fromUTF8, s.isValidUTF8]

theorem utf8_of_fromUTF8? {raw : Bytes} {s : String}
    (h : String.fromUTF8? ⟨raw.toArray⟩ = some s) : utf8 s = raw := by
  unfold String.fromUTF8? at h
  split at h
  · obtain rfl := Option.some.inj h
    simp [utf8, String.fromUTF8]
  · simp at h

instance : Exact String := .of_read_eq_ok fun {bytes rest s} ↦ by
  simp only [read, write, bind_eq_ok]
  constructor
  · rintro ⟨⟨raw, rest'⟩, hraw, h⟩
    cases hs : String.fromUTF8? ⟨raw.toArray⟩ with
    | none => simp [hs] at h
    | some s' =>
      obtain ⟨rfl, rfl⟩ : s' = s ∧ rest' = rest := by simpa [hs] using h
      rw [utf8_of_fromUTF8? hs]
      exact readBlock_eq_ok.1 hraw
  · intro h
    exact ⟨(utf8 s, rest), readBlock_eq_ok.2 h, by rw [fromUTF8?_utf8]⟩

instance : UniformlyEmpty String := .of_ne_nil fun _ ↦ writeBlock_ne_nil

/-! ## Bytes of a fixed number -/

instance {n : Nat} : Exact (Octets n) := .of_read_eq_ok fun {bytes rest x} ↦ by
  simp only [read, write, List.splitAt_eq, Except.ok.injEq]
  constructor
  · intro h
    by_cases hlen : (bytes.take n).length = n
    · obtain ⟨rfl, rfl⟩ := Prod.mk.inj (Except.ok.inj ((dif_pos hlen).symm.trans h))
      exact ⟨_, rfl, (List.take_append_drop n bytes).symm⟩
    · exact absurd ((dif_neg hlen).symm.trans h) (by simp)
  · rintro ⟨front, rfl, rfl⟩
    simp [x.length_toList]

instance {n : Nat} : UniformlyEmpty (Octets n) where
  eq_nil {x y bytes} hx hy := by
    obtain rfl := Except.ok.inj hy
    have hnil : x.toList = [] := Except.ok.inj hx
    apply List.eq_nil_of_length_eq_zero
    calc
      y.toList.length = n := y.length_toList
      _ = x.toList.length := x.length_toList.symm
      _ = 0 := by rw [hnil, List.length_nil]

end ChainClient.Wire

namespace ChainClient.Octets

theorem ofList?_eq_some_iff {n : Nat} {bytes : Bytes} {x : Octets n} :
    ofList? n bytes = some x ↔ x.toList = bytes := by
  constructor
  · intro h
    unfold ofList? at h
    split at h
    · obtain rfl := Option.some.inj h
      rfl
    · cases h
  · rintro rfl
    exact ofList?_toList x

end ChainClient.Octets
