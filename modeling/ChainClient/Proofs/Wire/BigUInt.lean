import ChainClient.Proofs.Wire.Scalar
import ChainClient.Wire.BigUInt

/-!
# Forms of wide integers

A wide integer is exact as long as the count of its bytes fits the one byte that is written for
it. The significant bytes of a number never end in a zero, and bytes that do not end in a zero
are the significant bytes of their value, so the two checks of the reader refuse just what the
writer never produces.
-/

namespace ChainClient

namespace BigUInt

theorem leValue_magnitude (n : Nat) : Wire.leValue (magnitude n) = n := by
  induction n using magnitude.induct with
  | case1 => simp [magnitude, Wire.leValue]
  | case2 n hn ih =>
    rw [magnitude, if_neg hn, Wire.leValue, ih, UInt8.toNat_ofNat']
    omega

/-- The magnitude has no leading zero byte; the highest byte stands last. -/
theorem getLast?_magnitude (n : Nat) : (magnitude n).getLast? ≠ some 0 := by
  induction n using magnitude.induct with
  | case1 => simp [magnitude]
  | case2 n hn ih =>
    rw [magnitude, if_neg hn, List.getLast?_cons]
    cases hlast : (magnitude (n / 256)).getLast? with
    | some b => simpa [hlast] using ih
    | none =>
      -- The number is below 256 then, so the byte is the number itself.
      have hvalue := leValue_magnitude (n / 256)
      rw [List.getLast?_eq_none_iff.1 hlast, Wire.leValue] at hvalue
      have hbyte : UInt8.ofNat n ≠ 0 := by
        intro hzero
        have htoNat := congrArg UInt8.toNat hzero
        rw [UInt8.toNat_ofNat', UInt8.toNat_zero] at htoNat
        omega
      simpa using hbyte

/-- A number below the capacity needs no more bytes than the size, so its length fits one byte. -/
theorem length_magnitude_le {size n : Nat} (h : n < Wire.capacity size) :
    (magnitude n).length ≤ size := by
  induction size generalizing n with
  | zero =>
    obtain rfl : n = 0 := Nat.lt_one_iff.1 h
    simp [magnitude]
  | succ size ih =>
    rw [magnitude]
    split
    · exact Nat.zero_le _
    · have hrest : n / 256 < Wire.capacity size := by
        rw [Wire.capacity] at h
        omega
      exact Nat.succ_le_succ (ih hrest)

theorem bitLength_pos {n : Nat} (h : n ≠ 0) : 0 < bitLength n := by
  rw [bitLength, if_neg h]
  exact Nat.succ_pos _

theorem bitLength_half (n : Nat) : bitLength (n / 2) = bitLength n - 1 := by
  unfold bitLength
  by_cases hn : 2 ≤ n
  · have hhalf : n / 2 ≠ 0 := by omega
    rw [if_neg hhalf, if_neg (by omega), Nat.log2_def n, if_pos hn]
    rfl
  · have hhalf : n / 2 = 0 := by omega
    rw [if_pos hhalf, Nat.log2_def n, if_neg hn]
    split <;> rfl

/-- A byte holds eight bits. -/
theorem bitLength_div_256 (n : Nat) : bitLength (n / 256) = bitLength n - 8 := by
  have hhalves : n / 256 = n / 2 / 2 / 2 / 2 / 2 / 2 / 2 / 2 := by omega
  simp only [hhalves, bitLength_half, Nat.sub_sub]

/-- The significant bytes are as many as the significant bits need. -/
theorem length_magnitude (n : Nat) : (magnitude n).length = (bitLength n + 7) / 8 := by
  induction n using magnitude.induct with
  | case1 => simp [magnitude, bitLength]
  | case2 n hn ih =>
    have hpos := bitLength_pos hn
    rw [magnitude, if_neg hn, List.length_cons, ih, bitLength_div_256]
    omega

theorem leValue_pos {bytes : Bytes} (hne : bytes ≠ []) (hlast : bytes.getLast? ≠ some 0) :
    0 < Wire.leValue bytes := by
  induction bytes with
  | nil => exact absurd rfl hne
  | cons b rest ih =>
    rw [Wire.leValue]
    cases rest with
    | nil =>
      have hb : b.toNat ≠ 0 := by
        intro hzero
        have hb' : b = 0 := UInt8.toNat_inj.1 hzero
        exact hlast (by rw [hb']; rfl)
      omega
    | cons b' rest =>
      rw [List.getLast?_cons_cons] at hlast
      have hrest := ih (List.cons_ne_nil _ _) hlast
      omega

/-- A magnitude without a leading zero is the only one of its number. -/
theorem magnitude_leValue {bytes : Bytes} (hlast : bytes.getLast? ≠ some 0) :
    magnitude (Wire.leValue bytes) = bytes := by
  induction bytes with
  | nil => simp [Wire.leValue, magnitude]
  | cons b rest ih =>
    have hpos := leValue_pos (List.cons_ne_nil b rest) hlast
    have hrest : rest.getLast? ≠ some 0 := fun hzero ↦ hlast (by simp [List.getLast?_cons, hzero])
    have hb := b.toNat_lt
    have hdiv : (b.toNat + 256 * Wire.leValue rest) / 256 = Wire.leValue rest := by omega
    have hmod : UInt8.ofNat (b.toNat + 256 * Wire.leValue rest) = b := by
      rw [UInt8.ofNat_eq_iff_mod_eq_toNat]
      omega
    rw [Wire.leValue] at hpos ⊢
    rw [magnitude, if_neg (Nat.ne_of_gt hpos), hdiv, hmod, ih hrest]

variable {size : Nat}

theorem write_eq_ok {x : BigUInt size} {bytes : Bytes} :
    Wire.write x = .ok bytes ↔
      UInt8.ofNat (magnitude x.toNat).length :: magnitude x.toNat = bytes := by
  simp [Wire.write]

theorem ofNat?_of_lt {n : Nat} (h : n < Wire.capacity size) : ofNat? size n = some ⟨n, h⟩ :=
  dif_pos h

theorem ofNat?_eq_some {n : Nat} {x : BigUInt size} (h : ofNat? size n = some x) :
    x.toNat = n := by
  unfold ofNat? at h
  split at h
  · obtain rfl := Option.some.inj h
    rfl
  · cases h

/-- What is read was written so: a longer spelling with leading zeros is refused. -/
theorem write_of_read {bytes rest : Bytes} {x : BigUInt size}
    (h : Wire.read bytes = .ok (x, rest)) :
    ∃ front, Wire.write x = .ok front ∧ bytes = front ++ rest := by
  obtain ⟨⟨count, middle⟩, hcount, h⟩ := Wire.bind_eq_ok.1 h
  dsimp only at h
  split at h
  · cases h
  obtain ⟨⟨front, rest'⟩, hsplit, h⟩ := Wire.bind_eq_ok.1 h
  dsimp only at h
  split at h
  · cases h
  case isFalse hlast =>
    cases hx : ofNat? size (Wire.leValue front) with
    | none => simp [hx] at h
    | some y =>
      rw [hx] at h
      obtain ⟨rfl, rfl⟩ := Prod.mk.inj (Except.ok.inj h)
      obtain ⟨head, hhead, rfl⟩ := Wire.Canonical.write_of_read hcount
      obtain rfl := Except.ok.inj hhead
      obtain ⟨hlength, rfl⟩ := Wire.split_eq_ok.1 hsplit
      refine ⟨count :: front, write_eq_ok.2 ?_, rfl⟩
      rw [ofNat?_eq_some hx, magnitude_leValue hlast, hlength, UInt8.ofNat_toNat]

/-- The size must fit the one byte that holds the length of the magnitude. -/
theorem readable (hsize : size < UInt8.size) (x : BigUInt size) : Wire.Readable x := by
  intro bytes rest hw
  obtain rfl := write_eq_ok.1 hw
  have hle := length_magnitude_le x.toNat_lt
  have hcount : (UInt8.ofNat (magnitude x.toNat).length).toNat = (magnitude x.toNat).length :=
    UInt8.toNat_ofNat_of_lt' (Nat.lt_of_le_of_lt hle hsize)
  have hsplit : Wire.split (magnitude x.toNat).length (magnitude x.toNat ++ rest) =
      .ok (magnitude x.toNat, rest) := Wire.split_eq_ok.2 ⟨rfl, rfl⟩
  have hx : ofNat? size (Wire.leValue (magnitude x.toNat)) = some x := by
    rw [leValue_magnitude]
    exact ofNat?_of_lt x.toNat_lt
  refine Wire.bind_eq_ok.2 ⟨(_, magnitude x.toNat ++ rest), rfl, ?_⟩
  dsimp only
  rw [hcount, if_neg (Nat.not_lt.2 hle), hsplit, Wire.ok_bind]
  dsimp only
  rw [if_neg (getLast?_magnitude x.toNat), hx]

theorem exact (hsize : size < UInt8.size) : Wire.Exact (BigUInt size) where
  readable := readable hsize
  write_of_read := write_of_read

instance : Wire.Exact U128 := exact (by decide)

instance : Wire.Exact U256 := exact (by decide)

instance : Wire.Exact U512 := exact (by decide)

instance : Wire.UniformlyEmpty (BigUInt size) := .of_ne_nil fun _ h ↦ nomatch h

end BigUInt

end ChainClient
