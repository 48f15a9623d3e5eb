/-!
# Modular arithmetic

Powers and inverses modulo a number, and repeated addition in any group.
-/

namespace ChainClient.Crypto

/-- `base ^ exponent % modulus` for an exponent of at most `bits` bits. -/
def powMod (modulus : Nat) : Nat → Nat → Nat → Nat
  | 0, _, _ => 1 % modulus
  | bits + 1, base, exponent =>
    let rest := powMod modulus bits (base * base % modulus) (exponent / 2)
    if exponent % 2 = 1 then rest * base % modulus else rest

/-- The inverse modulo a prime of at most 256 bits. -/
def inverseMod (prime x : Nat) : Nat := powMod prime 256 (x % prime) (prime - 2)

/-- The sum of `n` copies of `point`. -/
def multiple {P : Type} (zero : P) (add : P → P → P) (n : Nat) (point : P) : P :=
  if n = 0 then zero
  else
    let rest := multiple zero add (n / 2) (add point point)
    if n % 2 = 1 then add point rest else rest

end ChainClient.Crypto
