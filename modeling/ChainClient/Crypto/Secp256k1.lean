import ChainClient.Crypto.Modular
import ChainClient.Crypto.Sha2

/-!
# ECDSA over secp256k1

The curve is `y² = x³ + 7` over a prime field. A key is written as a first byte and
the `x` of its point; the byte 2 or 3 gives the parity of `y`, and with the byte 5
the parity is even. Messages are hashed with SHA-256. The nonce of a signature is
derived from the secret and the digest, so signing is a function, and of the two
values of `s` that fit the smaller one is used.
-/

namespace ChainClient.Crypto.Secp256k1

def prime : Nat := 1 <<< 256 - 1 <<< 32 - 977

def order : Nat := 0xfffffffffffffffffffffffffffffffebaaedce6af48a03bbfd25e8cd0364141

/-- A point `(x / z, y / z)`; the neutral one has `z = 0`. -/
structure Point where
  x : Nat
  y : Nat
  z : Nat

namespace Point

def zero : Point := ⟨0, 1, 0⟩

def sub (a b : Nat) : Nat := (a + (prime - b % prime)) % prime

/-- Complete, so it also doubles. -/
def add (p q : Point) : Point :=
  let xx := p.x * q.x % prime
  let yy := p.y * q.y % prime
  let zz := 21 * (p.z * q.z) % prime
  let xy := (p.x * q.y + q.x * p.y) % prime
  let yz := (p.y * q.z + q.y * p.z) % prime
  let xz := 21 * (p.x * q.z + q.x * p.z) % prime
  let less := sub yy zz
  let more := (yy + zz) % prime
  ⟨sub (xy * less) (yz * xz), (more * less + 3 * xx * xz) % prime,
    (yz * more + 3 * xx * xy) % prime⟩

def mul (n : Nat) (p : Point) : Point := multiple zero add n p

def affineX (p : Point) : Nat := p.x * inverseMod prime p.z % prime

def affineY (p : Point) : Nat := p.y * inverseMod prime p.z % prime

def yOf? (x parity : Nat) : Option Nat :=
  let square := (x * x % prime * x + 7) % prime
  let root := powMod prime 256 square ((prime + 1) / 4)
  if root * root % prime = square then
    some (if root % 2 = parity then root else sub 0 root)
  else none

def encode (p : Point) : Bytes :=
  UInt8.ofNat (2 + p.affineY % 2) :: beBytes 32 p.affineX

def decode? : Bytes → Option Point
  | [] => none
  | first :: rest => do
    let x := beValue rest
    if first = 2 ∨ first = 3 ∨ first = 5 then
      if rest.length = 32 ∧ x < prime then
        let y ← yOf? x (if first = 3 then 1 else 0)
        some ⟨x, y, 1⟩
      else none
    else none

def base : Point :=
  ⟨0x79be667ef9dcbbac55a06295ce870b07029bfcdb2dce28d959f2815b16f81798,
    0x483ada7726a3c4655da4fbfc0e1108a8fd17b448a68554199c47d08ffb10d4b8, 1⟩

end Point

def isKey (raw : Bytes) : Bool := (Point.decode? raw).isSome

/-- A secret is a number of 24 to 32 bytes, above zero and below the order. -/
def secretOf? (bytes : Bytes) : Option Nat :=
  let n := beValue bytes
  if 24 ≤ bytes.length ∧ bytes.length ≤ 32 ∧ 0 < n ∧ n < order then some n else none

def publicKey (secret : Bytes) : Bytes := (Point.base.mul (beValue secret)).encode

/-! ## Nonces -/

def keyedHash (key message : Bytes) : Bytes :=
  let block := key ++ List.replicate (64 - key.length) 0
  sha256 (block.map (· ^^^ 0x5c) ++ sha256 (block.map (· ^^^ 0x36) ++ message))

/-- A number derived from key and state, the first one that `accept` takes. -/
def firstAccepted {α : Type} (accept : Nat → Option α) : Nat → Bytes → Bytes → Option α
  | 0, _, _ => none
  | tries + 1, key, state =>
    let state := keyedHash key state
    match accept (beValue state) with
    | some found => some found
    | none =>
      let key := keyedHash key (state ++ [0])
      firstAccepted accept tries key (keyedHash key state)

/-- How often a nonce may be refused; each refusal has a chance near `2⁻¹²⁸`. -/
def maxTries : Nat := 256

def withNonce {α : Type} (secret digest : Bytes) (accept : Nat → Option α) : Option α :=
  let seed := secret ++ beBytes 32 (beValue digest % order)
  let key := List.replicate 32 0
  let state := List.replicate 32 1
  let key := keyedHash key (state ++ 0 :: seed)
  let state := keyedHash key state
  let key := keyedHash key (state ++ 1 :: seed)
  let state := keyedHash key state
  firstAccepted accept maxTries key state

/-! ## Signatures -/

def isScalar (n : Nat) : Bool := 0 < n && n < order

def signWith (secret digest : Nat) (nonce : Nat) : Option Bytes :=
  if isScalar nonce then
    let r := (Point.base.mul nonce).affineX % order
    let s := inverseMod order nonce * (digest + r * secret) % order
    if r = 0 ∨ s = 0 then none
    else some (beBytes 32 r ++ beBytes 32 (if order / 2 < s then order - s else s))
  else none

def sign (secret message : Bytes) : Bytes :=
  let digest := sha256 message
  (withNonce secret digest (signWith (beValue secret) (beValue digest % order))).getD
    (List.replicate 64 0)

/-- Both halves are numbers above zero and below the order. -/
def isSignature (signature : Bytes) : Bool :=
  isScalar (beValue (signature.take 32)) && isScalar (beValue (signature.drop 32))

/-- For a key that is a point and a signature that passes `isSignature`. -/
def check (key message signature : Bytes) : Bool :=
  match Point.decode? key with
  | none => false
  | some point =>
    let r := beValue (signature.take 32)
    let s := beValue (signature.drop 32)
    let digest := beValue (sha256 message) % order
    let inverse := inverseMod order s
    let sum := (Point.base.mul (digest * inverse % order)).add (point.mul (r * inverse % order))
    s ≤ order / 2 && sum.z != 0 && sum.affineX % order == r

end ChainClient.Crypto.Secp256k1
