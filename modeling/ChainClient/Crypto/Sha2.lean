import ChainClient.Crypto.RootConstants
import ChainClient.Wire.Basic

/-!
# SHA-256 and SHA-512

Both functions are one construction over words of 32 and of 64 bits. The message is
padded with a one bit, zeros and its length in bits, cut into blocks of sixteen words,
and each block runs the eight registers through all rounds.
-/

namespace ChainClient.Crypto

/-- Big-endian, in `width` bytes. -/
def beBytes (width n : Nat) : Bytes := (Wire.leBytes width n).reverse

def beValue (bytes : Bytes) : Nat := Wire.leValue bytes.reverse

namespace Sha2

/-- The rotations of a function are given by its two or three distances. -/
structure Variant (w : Nat) where
  bigA : Nat × Nat × Nat
  bigE : Nat × Nat × Nat
  /-- The third distance is that of a shift. -/
  smallFirst : Nat × Nat × Nat
  smallLast : Nat × Nat × Nat
  constants : List (BitVec w)
  start : List (BitVec w)

def sha256 : Variant 32 where
  bigA := (2, 13, 22)
  bigE := (6, 11, 25)
  smallFirst := (7, 18, 3)
  smallLast := (17, 19, 10)
  constants := (cubeRoots.take 64).map fun n ↦ BitVec.ofNat 32 (n >>> 32)
  start := squareRoots.map fun n ↦ BitVec.ofNat 32 (n >>> 32)

def sha512 : Variant 64 where
  bigA := (28, 34, 39)
  bigE := (14, 18, 41)
  smallFirst := (1, 8, 7)
  smallLast := (19, 61, 6)
  constants := cubeRoots.map (BitVec.ofNat 64)
  start := squareRoots.map (BitVec.ofNat 64)

variable {w : Nat}

def big (d : Nat × Nat × Nat) (x : BitVec w) : BitVec w :=
  x.rotateRight d.1 ^^^ x.rotateRight d.2.1 ^^^ x.rotateRight d.2.2

def small (d : Nat × Nat × Nat) (x : BitVec w) : BitVec w :=
  x.rotateRight d.1 ^^^ x.rotateRight d.2.1 ^^^ (x >>> d.2.2)

structure Registers (w : Nat) where
  a : BitVec w
  b : BitVec w
  c : BitVec w
  d : BitVec w
  e : BitVec w
  f : BitVec w
  g : BitVec w
  h : BitVec w

namespace Registers

def ofList (words : List (BitVec w)) : Registers w :=
  let word (i : Nat) := words.getD i 0
  ⟨word 0, word 1, word 2, word 3, word 4, word 5, word 6, word 7⟩

def toList (r : Registers w) : List (BitVec w) := [r.a, r.b, r.c, r.d, r.e, r.f, r.g, r.h]

def step (v : Variant w) (r : Registers w) (constant word : BitVec w) : Registers w :=
  let choice := (r.e &&& r.f) ^^^ (~~~r.e &&& r.g)
  let majority := (r.a &&& r.b) ^^^ (r.a &&& r.c) ^^^ (r.b &&& r.c)
  let first := r.h + big v.bigE r.e + choice + constant + word
  let second := big v.bigA r.a + majority
  ⟨first + second, r.a, r.b, r.c, r.d + first, r.e, r.f, r.g⟩

end Registers

/-- Runs through the remaining rounds; the window holds the next sixteen words. -/
def run (v : Variant w) : List (BitVec w) → List (BitVec w) → Registers w → Registers w
  | [], _, r => r
  | constant :: constants, window, r =>
    let word (i : Nat) := window.getD i 0
    let next := small v.smallLast (word 14) + word 9 + small v.smallFirst (word 1) + word 0
    run v constants (window.drop 1 ++ [next]) (r.step v constant (word 0))

def wordsOf (w : Nat) (block : Bytes) : List (BitVec w) :=
  (List.range 16).map fun i ↦ BitVec.ofNat w (beValue ((block.drop (w / 8 * i)).take (w / 8)))

def compress (v : Variant w) (h : List (BitVec w)) (block : Bytes) : List (BitVec w) :=
  List.zipWith (· + ·) h (run v v.constants (wordsOf w block) (.ofList h)).toList

/-- The message with its padding; the block has `2 * w` bytes, the length `w / 4`. -/
def padded (w : Nat) (message : Bytes) : Bytes :=
  let used := message.length + 1 + w / 4
  message ++ 0x80 :: List.replicate ((2 * w - used % (2 * w)) % (2 * w)) 0 ++
    beBytes (w / 4) (8 * message.length)

def absorb (v : Variant w) (h : List (BitVec w)) (bytes : Bytes) : List (BitVec w) :=
  if 0 < w ∧ 2 * w ≤ bytes.length then
    absorb v (compress v h (bytes.take (2 * w))) (bytes.drop (2 * w))
  else h
termination_by bytes.length
decreasing_by simp only [List.length_drop]; omega

def hash (v : Variant w) (message : Bytes) : Bytes :=
  (absorb v v.start (padded w message)).flatMap fun word ↦ beBytes (w / 8) word.toNat

end Sha2

def sha256 (message : Bytes) : Bytes := Sha2.hash Sha2.sha256 message

def sha512 (message : Bytes) : Bytes := Sha2.hash Sha2.sha512 message

end ChainClient.Crypto
