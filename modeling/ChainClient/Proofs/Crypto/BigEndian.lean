import ChainClient.Crypto.Sha2
import ChainClient.Proofs.Wire.Scalar

/-!
# Big-endian numbers

Secrets and coordinates are numbers with the most significant byte first. Zeros in front do not
change the number, so bytes that are too few come back with zeros in front of them.
-/

namespace ChainClient

theorem Octets.toList_fit {n : Nat} {bytes : Bytes} (h : bytes.length = n) :
    (fit n bytes).toList = bytes := by
  subst h
  simp [fit]

theorem Octets.toList_inj {n : Nat} {x y : Octets n} : x.toList = y.toList ↔ x = y := by
  rw [← ofList?_eq_some_iff, ofList?_toList, Option.some.injEq, eq_comm]

namespace Crypto

open Wire (leBytes leValue capacity)

variable {bytes : Bytes} {width n : Nat}

theorem leValue_zeros (count : Nat) : leValue (List.replicate count 0) = 0 := by
  induction count with
  | zero => rfl
  | succ count ih => rw [List.replicate_succ, leValue, ih]; rfl

/-- Zeros at the end of the least significant form add nothing to the number. -/
theorem leValue_append_zeros (bytes : Bytes) (count : Nat) :
    leValue (bytes ++ List.replicate count 0) = leValue bytes := by
  induction bytes with
  | nil => exact leValue_zeros count
  | cons b bytes ih => rw [List.cons_append, leValue, leValue, ih]

/-- The number is zero for bytes that are all zero, of which there may be any number. -/
theorem leValue_eq_zero_iff : leValue bytes = 0 ↔ ∀ b ∈ bytes, b = 0 := by
  induction bytes with
  | nil => simp [leValue]
  | cons b bytes ih =>
    have hb : b.toNat = 0 ↔ b = 0 := UInt8.toNat_inj (b := 0)
    rw [leValue, List.forall_mem_cons, ← ih, ← hb]
    omega

/-! ## Most significant byte first -/

theorem length_beBytes (width n : Nat) : (beBytes width n).length = width := by
  rw [beBytes, List.length_reverse, Wire.length_leBytes]

/-- The number of so many bytes is below their capacity. -/
theorem beValue_lt (bytes : Bytes) : beValue bytes < capacity bytes.length := by
  rw [beValue, ← List.length_reverse]
  exact Wire.leValue_lt bytes.reverse

theorem beValue_beBytes (h : n < capacity width) : beValue (beBytes width n) = n := by
  rw [beValue, beBytes, List.reverse_reverse, Wire.leValue_leBytes h]

/-- Zeros in front do not change the number, so forms of different lengths share it. -/
theorem beValue_zeros_append (count : Nat) (bytes : Bytes) :
    beValue (List.replicate count 0 ++ bytes) = beValue bytes := by
  rw [beValue, List.reverse_append, List.reverse_replicate, leValue_append_zeros, beValue]

theorem beValue_pos_iff : 0 < beValue bytes ↔ ∃ b ∈ bytes, b ≠ 0 := by
  rw [Nat.pos_iff_ne_zero, beValue, Ne, leValue_eq_zero_iff]
  simp

/-- The number of the bytes, written with as many bytes, is the bytes again. -/
theorem beBytes_beValue (bytes : Bytes) : beBytes bytes.length (beValue bytes) = bytes := by
  rw [beBytes, beValue, ← List.length_reverse, Wire.leBytes_leValue, List.reverse_reverse]

/-- The number does not tell how many zeros stood in front. -/
theorem beBytes_beValue_of_le (h : bytes.length ≤ width) :
    beBytes width (beValue bytes) = List.replicate (width - bytes.length) 0 ++ bytes := by
  have hlength : (List.replicate (width - bytes.length) 0 ++ bytes).length = width := by
    rw [List.length_append, List.length_replicate, Nat.sub_add_cancel h]
  have hbytes := beBytes_beValue (List.replicate (width - bytes.length) 0 ++ bytes)
  rwa [hlength, beValue_zeros_append] at hbytes

end Crypto

end ChainClient
