import ChainClient.Crypto.Modular
import ChainClient.Crypto.Sha2

/-!
# Ed25519

Signatures over the twisted Edwards curve `-x² + y² = 1 + d x² y²` modulo
`2²⁵⁵ - 19`. A point is written as its `y` and the parity of its `x`. Any encoding
from which a point can be computed is a key, also one whose `y` is not reduced or
whose point has small order. A signature is checked by computing its first half
anew and comparing the bytes.
-/

namespace ChainClient.Crypto.Ed25519

/-- The weight of the topmost of 256 bits. -/
def topBit : Nat := 1 <<< 255

def prime : Nat := topBit - 19

def order : Nat := 1 <<< 252 + 27742317777372353535851937790883648493

def d : Nat := (prime - 121665) * inverseMod prime 121666 % prime

def rootOfMinusOne : Nat := powMod prime 256 2 ((prime - 1) / 4)

/-- A point `(x / z, y / z)` with `t = x y / z`. -/
structure Point where
  x : Nat
  y : Nat
  z : Nat
  t : Nat

namespace Point

def ofAffine (x y : Nat) : Point := ⟨x, y, 1, x * y % prime⟩

def zero : Point := ofAffine 0 1

def sub (a b : Nat) : Nat := (a + (prime - b % prime)) % prime

/-- Complete, so it also doubles. -/
def add (p q : Point) : Point :=
  let a := sub p.y p.x * sub q.y q.x % prime
  let b := (p.y + p.x) * (q.y + q.x) % prime
  let c := p.t * q.t % prime * (2 * d) % prime
  let s := p.z * q.z % prime * 2 % prime
  let e := sub b a
  let f := sub s c
  let g := (s + c) % prime
  let h := (b + a) % prime
  ⟨e * f % prime, g * h % prime, f * g % prime, e * h % prime⟩

def neg (p : Point) : Point := ⟨sub 0 p.x, p.y, p.z, sub 0 p.t⟩

def mul (n : Nat) (p : Point) : Point := multiple zero add n p

def encode (p : Point) : Bytes :=
  let inverse := inverseMod prime p.z
  let x := p.x * inverse % prime
  let y := p.y * inverse % prime
  Wire.leBytes 32 (y + x % 2 * topBit)

/-- The `x` of a point with that `y` and that parity. A zero has both parities. -/
def xOf? (y parity : Nat) : Option Nat :=
  let u := sub (y * y) 1
  let v := (d * (y * y % prime) + 1) % prime
  let v3 := v * v % prime * v % prime
  let v7 := v3 * v3 % prime * v % prime
  let root := u * v3 % prime * powMod prime 256 (u * v7 % prime) ((prime - 5) / 8) % prime
  let check := v * (root * root % prime) % prime
  let signed (x : Nat) := if x % 2 = parity then x else sub 0 x
  if check = u then some (signed root)
  else if check = sub 0 u then some (signed (root * rootOfMinusOne % prime))
  else none

def decode? (bytes : Bytes) : Option Point := do
  let n := Wire.leValue bytes
  let y := n % topBit % prime
  let x ← xOf? y (n / topBit)
  return ofAffine x y

def base : Point :=
  let y := 4 * inverseMod prime 5 % prime
  ofAffine ((xOf? y 0).getD 0) y

end Point

def isKey (raw : Bytes) : Bool := (Point.decode? raw).isSome

/-- The secret scalar and the seed of the nonces. -/
def expand (secret : Bytes) : Nat × Bytes :=
  let digest := sha512 secret
  let n := Wire.leValue (digest.take 32)
  (topBit / 2 + n % (topBit / 2) / 8 * 8, digest.drop 32)

def publicKey (secret : Bytes) : Bytes := (Point.base.mul (expand secret).1).encode

def scalarOf (parts : Bytes) : Nat := Wire.leValue (sha512 parts) % order

def sign (secret message : Bytes) : Bytes :=
  let (scalar, seed) := expand secret
  let nonce := scalarOf (seed ++ message)
  let first := (Point.base.mul nonce).encode
  let challenge := scalarOf (first ++ publicKey secret ++ message)
  first ++ Wire.leBytes 32 ((nonce + challenge * scalar) % order)

/-- For a key that is a point. -/
def check (key message signature : Bytes) : Bool :=
  match Point.decode? key with
  | none => false
  | some point =>
    let first := signature.take 32
    let response := Wire.leValue (signature.drop 32)
    let challenge := scalarOf (first ++ key ++ message)
    response < order &&
      ((Point.base.mul response).add (point.neg.mul challenge)).encode == first

end ChainClient.Crypto.Ed25519
