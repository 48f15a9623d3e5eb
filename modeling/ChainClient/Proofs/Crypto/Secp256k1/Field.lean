import ChainClient.Crypto.Secp256k1
import ChainClient.Proofs.Crypto.Primality
import Mathlib.FieldTheory.Finite.Basic
import Mathlib.Tactic.LinearCombination
import Mathlib.Tactic.NormNum.Prime

/-!
# The field of secp256k1

The modulus of the coordinates is prime, by a certificate. As it is 3 modulo 4, the power with which
a square root is computed gives a root of every square, and two roots differ in their parity. No
point has the `y` zero, because -7 is no cube.
-/

namespace ChainClient.Crypto.Secp256k1

/-- The primes with which the certificate starts. -/
def smallPrimes : List ℕ :=
  [2, 3, 5, 7, 11, 29, 31, 53, 971, 1373, 1627, 2621, 2657, 4423, 5323, 7723, 13441, 20113, 24809,
    41201, 96557]

/-- The certificate for the size of the field, each number after the factors that it needs. -/
def primeSteps : List LucasStep :=
  [⟨1206781, 10, [2, 2, 3, 5, 20113]⟩,
   ⟨7240687, 3, [2, 3, 1206781]⟩,
   ⟨107590001, 3, [2, 2, 2, 2, 5, 5, 5, 5, 7, 29, 53]⟩,
   ⟨13331831, 13, [2, 5, 971, 1373]⟩,
   ⟨173378833005251801, 6, [2, 2, 2, 5, 5, 2621, 24809, 13331831]⟩,
   ⟨22149492674086928081353, 5, [2, 2, 2, 3, 5323, 173378833005251801]⟩,
   ⟨132896956044521568488119, 6, [2, 3, 22149492674086928081353]⟩,
   ⟨255515944373312847190720520512484175977, 3,
    [2, 2, 2, 7, 7, 11, 1627, 2657, 4423, 41201, 96557, 7240687, 107590001]⟩,
   ⟨205115282021455665897114700593932402728804164701536103180137503955397371, 10,
    [2, 3, 5, 29, 29, 31, 7723, 132896956044521568488119,
      255515944373312847190720520512484175977]⟩,
   ⟨prime, 3,
    [2, 3, 7, 13441, 205115282021455665897114700593932402728804164701536103180137503955397371]⟩]

theorem prime_of_mem_smallPrimes : ∀ q ∈ smallPrimes, q.Prime := by
  simp only [smallPrimes, List.forall_mem_cons]
  norm_num

/-- The size of the field is a prime, by its certificate. -/
theorem isPrime_prime : prime.Prime := by
  have hcertified : certifies smallPrimes primeSteps = true := by decide +kernel
  exact prime_of_certifies prime_of_mem_smallPrimes hcertified prime (by simp [primeSteps])

instance : Fact prime.Prime := ⟨isPrime_prime⟩

theorem prime_mod_four : prime % 4 = 3 := by decide

theorem prime_lt : prime < 2 ^ 256 := by decide

/-! ## Square roots -/

section Roots

variable {a x y y' : ℕ}

/-- Numbers are equal in the field if they leave the same remainder. -/
theorem cast_inj : (a : ZMod prime) = y ↔ a % prime = y % prime :=
  ZMod.natCast_eq_natCast_iff' a y prime

/-- The candidate for a square root. -/
def rootOf (a : ℕ) : ℕ := powMod prime 256 a ((prime + 1) / 4)

/-- The root is the power whose square is the number itself, for a prime of this remainder by
four. -/
theorem rootOf_eq (a : ℕ) : rootOf a = a ^ ((prime + 1) / 4) % prime := by
  have hlt := prime_lt
  exact powMod_eq (by omega)

theorem rootOf_lt (a : ℕ) : rootOf a < prime := by
  rw [rootOf_eq]
  exact Nat.mod_lt _ isPrime_prime.pos

/-- The candidate is a root of every square. -/
theorem rootOf_mul_self (h : y * y % prime = a % prime) :
    rootOf a * rootOf a % prime = a % prime := by
  have hfour : (prime + 1) / 4 * 4 = prime + 1 := by
    have := prime_mod_four
    omega
  have hsquare : (a : ZMod prime) = y * y := by
    rw [← Nat.cast_mul, eq_comm, cast_inj, h]
  rw [← cast_inj, rootOf_eq, Nat.cast_mul, ZMod.natCast_mod, Nat.cast_pow, hsquare]
  calc
    ((y * y : ZMod prime)) ^ ((prime + 1) / 4) * (y * y) ^ ((prime + 1) / 4) =
        y ^ ((prime + 1) / 4 * 4) := by ring
    _ = y * y := by rw [hfour, pow_succ, ZMod.pow_card]

/-- Two roots of one number are equal or opposite. -/
theorem eq_or_add_eq (hy : y < prime) (hy' : y' < prime)
    (h : y * y % prime = y' * y' % prime) : y = y' ∨ y + y' = prime := by
  have hsquare : (y : ZMod prime) * y = y' * y' := by
    rw [← Nat.cast_mul, ← Nat.cast_mul, cast_inj, h]
  obtain heq | hneg := mul_self_eq_mul_self_iff.1 hsquare
  · rw [cast_inj, Nat.mod_eq_of_lt hy, Nat.mod_eq_of_lt hy'] at heq
    exact .inl heq
  · have hzero : ((y + y' : ℕ) : ZMod prime) = 0 := by
      rw [Nat.cast_add, hneg, neg_add_cancel]
    obtain ⟨k, hk⟩ := (ZMod.natCast_eq_zero_iff _ _).1 hzero
    match k with
    | 0 => exact .inl (by omega)
    | 1 => exact .inr (by omega)
    | k + 2 =>
      have hle : prime * 2 ≤ prime * (k + 2) := Nat.mul_le_mul_left _ (by omega)
      omega

theorem sub_mul_self (hy : y < prime) :
    (prime - y) * (prime - y) % prime = y * y % prime := by
  rw [← cast_inj, Nat.cast_mul, Nat.cast_mul, Nat.cast_sub (Nat.le_of_lt hy), ZMod.natCast_self]
  ring

/-- A cube has order at most `(prime - 1) / 3`, and -7 has not. -/
theorem cube_add_seven_ne_zero (x : ZMod prime) : x ^ 3 + 7 ≠ 0 := by
  intro h
  have hlt := prime_lt
  have hthree : 3 * ((prime - 1) / 3) = prime - 1 := by decide
  have hcube : ((prime - 7 : ℕ) : ZMod prime) = x ^ 3 := by
    rw [Nat.cast_sub (by decide), ZMod.natCast_self]
    linear_combination -h
  have hx : x ≠ 0 := by
    rintro rfl
    have hdvd : prime ∣ prime - 7 := by
      rw [← ZMod.natCast_eq_zero_iff, hcube, zero_pow three_ne_zero]
    exact absurd (Nat.le_of_dvd (by decide) hdvd) (by decide)
  have hpower : powMod prime 256 (prime - 7) ((prime - 1) / 3) = 1 % prime := by
    rw [powMod_eq (by omega), ← cast_inj, Nat.cast_pow, hcube, ← pow_mul, hthree,
      ZMod.pow_card_sub_one_eq_one hx, Nat.cast_one]
  exact absurd hpower (by decide +kernel)

end Roots

/-! ## Points from one coordinate -/

namespace Point

variable {x y parity : ℕ}

/-- The square of the `y` of a point, from its `x`. -/
def square (x : ℕ) : ℕ := (x * x % prime * x + 7) % prime

theorem square_lt (x : ℕ) : square x < prime := Nat.mod_lt _ isPrime_prime.pos

theorem cast_square (x : ℕ) : (square x : ZMod prime) = x ^ 3 + 7 := by
  rw [square, ZMod.natCast_mod, Nat.cast_add, Nat.cast_mul, ZMod.natCast_mod, Nat.cast_mul,
    Nat.cast_ofNat]
  ring

/-- No point of the curve has the coordinate zero: minus seven is no cube in the field. -/
theorem square_ne_zero (x : ℕ) : square x ≠ 0 := by
  intro h
  refine cube_add_seven_ne_zero x ?_
  rw [← cast_square, h, Nat.cast_zero]

/-- A point is never its own opposite, so one of the two roots is even and the other odd. -/
theorem pos_of_mul_self_eq (h : y * y % prime = square x) : 0 < y := by
  rw [Nat.pos_iff_ne_zero]
  rintro rfl
  exact square_ne_zero x h.symm

/-- The second coordinate is the root with the asked parity, if there is a root. -/
theorem yOf?_eq (x parity : ℕ) : yOf? x parity =
    if rootOf (square x) * rootOf (square x) % prime = square x then
      some (if rootOf (square x) % 2 = parity then rootOf (square x) else
        sub 0 (rootOf (square x)))
    else none := rfl

theorem sub_zero_eq (hpos : 0 < y) (hlt : y < prime) : sub 0 y = prime - y := by
  rw [sub, Nat.zero_add, Nat.mod_eq_of_lt hlt, Nat.mod_eq_of_lt (by omega)]

/-- The `y` of a point is found just if there is one, and it is the one of that parity. -/
theorem yOf?_eq_some_iff (hparity : parity < 2) : yOf? x parity = some y ↔
    y < prime ∧ y * y % prime = square x ∧ y % 2 = parity := by
  have hmod := Nat.mod_eq_of_lt (square_lt x)
  have hodd := prime_mod_four
  have hroot := rootOf_lt (square x)
  rw [yOf?_eq]
  constructor
  · intro h
    split at h
    case isFalse => cases h
    case isTrue hsquare =>
      obtain rfl := Option.some.inj h
      split
      case isTrue hsame => exact ⟨hroot, hsquare, hsame⟩
      case isFalse hother =>
        -- The modulus is odd, so the other root has the other parity.
        have hpos := pos_of_mul_self_eq hsquare
        rw [sub_zero_eq hpos hroot]
        exact ⟨by omega, (sub_mul_self hroot).trans hsquare, by omega⟩
  · rintro ⟨hlt, hsquare, rfl⟩
    have hfound : rootOf (square x) * rootOf (square x) % prime = square x := by
      rw [rootOf_mul_self (hsquare.trans hmod.symm), hmod]
    rw [if_pos hfound]
    obtain heq | hsum := eq_or_add_eq hroot hlt (hfound.trans hsquare.symm)
    · rw [heq, if_pos rfl]
    · rw [if_neg (by omega), sub_zero_eq (pos_of_mul_self_eq hfound) hroot]
      exact congrArg some (by omega)

end Point

end ChainClient.Crypto.Secp256k1
