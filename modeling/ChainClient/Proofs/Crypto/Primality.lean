import ChainClient.Crypto.Modular
import Mathlib.Data.List.Prime
import Mathlib.NumberTheory.LucasPrimality

/-!
# Certified primes

The repeated squaring of `powMod` computes powers, and with them Lucas's test runs on numbers of 256
bits: a number is prime if some root has the order of the whole group, which is checked at the prime
factors of the number below it. These factors pass the test themselves or are small, so a chain of
tests certifies a large prime.
-/

namespace ChainClient.Crypto

/-- Repeated squaring gives the power, if the exponent is within the number of bits. -/
theorem powMod_eq {modulus bits base exponent : ℕ} (h : exponent < 2 ^ bits) :
    powMod modulus bits base exponent = base ^ exponent % modulus := by
  induction bits generalizing base exponent with
  | zero =>
    obtain rfl : exponent = 0 := by simpa using h
    rw [powMod, pow_zero]
  | succ bits ih =>
    have hhalf : exponent / 2 < 2 ^ bits := by
      rw [pow_succ] at h
      omega
    have hrest : powMod modulus bits (base * base % modulus) (exponent / 2) =
        base ^ (2 * (exponent / 2)) % modulus := by
      rw [ih hhalf, ← Nat.pow_mod, pow_mul, sq]
    rw [powMod, hrest]
    split
    case isTrue hodd =>
      rw [Nat.mod_mul_mod, ← pow_succ]
      congr 2
      omega
    case isFalse heven =>
      congr 2
      omega

theorem inverseMod_one {prime : ℕ} (hprime : 1 < prime) (hlt : prime ≤ 2 ^ 256) :
    inverseMod prime 1 = 1 := by
  rw [inverseMod, powMod_eq (by omega), Nat.mod_eq_of_lt hprime, one_pow, Nat.mod_eq_of_lt hprime]

/-! ## Lucas's test -/

/-- A number with a primitive root and the prime factors of the number below it. -/
structure LucasStep where
  number : ℕ
  root : ℕ
  factors : List ℕ

namespace LucasStep

/-- Every factor stands in the list of primes, and the root has the right order. -/
def passes (primes : List ℕ) (step : LucasStep) : Bool :=
  1 < step.number && step.number ≤ 1 <<< 256 &&
    step.factors.prod == step.number - 1 &&
    powMod step.number 256 step.root (step.number - 1) == 1 &&
    step.factors.all fun factor ↦ primes.contains factor &&
      powMod step.number 256 step.root ((step.number - 1) / factor) != 1

variable {primes : List ℕ} {step : LucasStep}

/-- A step that passes proves its number a prime, given that the factors it names are primes. -/
theorem prime_of_passes (hprimes : ∀ q ∈ primes, q.Prime) (h : step.passes primes = true) :
    step.number.Prime := by
  simp only [passes, Bool.and_eq_true, decide_eq_true_eq, List.all_eq_true, beq_iff_eq,
    bne_iff_ne, List.contains_iff_mem, Nat.one_shiftLeft] at h
  obtain ⟨⟨⟨⟨hone, hle⟩, hprod⟩, horder⟩, hfactors⟩ := h
  have hpow {exponent : ℕ} (hexponent : exponent ≤ step.number - 1) :
      (step.root : ZMod step.number) ^ exponent = 1 ↔
        powMod step.number 256 step.root exponent = 1 := by
    rw [powMod_eq (by omega), ← Nat.cast_pow, ← Nat.cast_one, ZMod.natCast_eq_natCast_iff',
      Nat.mod_eq_of_lt hone]
  refine lucas_primality step.number step.root ((hpow le_rfl).2 horder) fun q hq hdvd ↦ ?_
  rw [← hprod] at hdvd
  obtain ⟨factor, hfactor, hqfactor⟩ := (Prime.dvd_prod_iff hq.prime).1 hdvd
  obtain ⟨hmem, hne⟩ := hfactors factor hfactor
  obtain rfl := (Nat.prime_dvd_prime_iff_eq hq (hprimes factor hmem)).1 hqfactor
  exact mt (hpow (Nat.div_le_self _ _)).1 hne

end LucasStep

/-- Each step may use the numbers of the steps before it. -/
def certifies (primes : List ℕ) : List LucasStep → Bool
  | [] => true
  | step :: steps => step.passes primes && certifies (step.number :: primes) steps

/-- A certificate proves all its numbers primes, each from the ones before it. -/
theorem prime_of_certifies {primes : List ℕ} {steps : List LucasStep}
    (hprimes : ∀ q ∈ primes, q.Prime) (h : certifies primes steps = true) :
    ∀ q ∈ steps.map LucasStep.number, q.Prime := by
  induction steps generalizing primes with
  | nil => exact List.forall_mem_nil _
  | cons step steps ih =>
    obtain ⟨hstep, hsteps⟩ := Bool.and_eq_true_iff.1 h
    have hprime := LucasStep.prime_of_passes hprimes hstep
    exact List.forall_mem_cons.2 ⟨hprime, ih (List.forall_mem_cons.2 ⟨hprime, hprimes⟩) hsteps⟩

end ChainClient.Crypto
