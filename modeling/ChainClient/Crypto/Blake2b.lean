import ChainClient.Crypto.RootConstants
import ChainClient.Wire.Basic

/-!
# BLAKE2b-256

The one hash function of the network: BLAKE2b without a key and with a digest of 32
bytes. The message is cut into blocks of 128 bytes; the last block is filled up with
zeros and marked, and each block is mixed in together with the count of bytes so far.
-/

namespace ChainClient.Crypto.Blake2b

abbrev Words := Vector UInt64 16

abbrev Chain := Vector UInt64 8

def rotateRight (x : UInt64) (n : UInt64) : UInt64 := (x >>> n) ||| (x <<< (64 - n))

def constants : Chain := Vector.ofFn fun i ↦ UInt64.ofNat (squareRoots.getD i.val 0)

/-- The order in which a round uses the words of the block. -/
def permutations : List (List (Fin 16)) :=
  [[0, 1, 2, 3, 4, 5, 6, 7, 8, 9, 10, 11, 12, 13, 14, 15],
   [14, 10, 4, 8, 9, 15, 13, 6, 1, 12, 0, 2, 11, 7, 5, 3],
   [11, 8, 12, 0, 5, 2, 15, 13, 10, 14, 3, 6, 7, 1, 9, 4],
   [7, 9, 3, 1, 13, 12, 11, 14, 2, 6, 5, 10, 4, 0, 15, 8],
   [9, 0, 5, 7, 2, 4, 10, 15, 14, 1, 11, 12, 6, 8, 3, 13],
   [2, 12, 6, 10, 0, 11, 8, 3, 4, 13, 7, 5, 15, 14, 1, 9],
   [12, 5, 1, 15, 14, 13, 4, 10, 0, 7, 6, 3, 9, 2, 8, 11],
   [13, 11, 7, 14, 12, 1, 3, 9, 5, 0, 15, 4, 8, 6, 2, 10],
   [6, 15, 14, 9, 11, 3, 0, 8, 12, 2, 13, 7, 1, 4, 10, 5],
   [10, 2, 8, 4, 7, 6, 1, 5, 15, 11, 9, 14, 3, 12, 13, 0]]

def mix (v : Words) (a b c d : Fin 16) (x y : UInt64) : Words :=
  let va := v[a] + v[b] + x
  let vd := rotateRight (v[d] ^^^ va) 32
  let vc := v[c] + vd
  let vb := rotateRight (v[b] ^^^ vc) 24
  let va := va + vb + y
  let vd := rotateRight (vd ^^^ va) 16
  let vc := vc + vd
  let vb := rotateRight (vb ^^^ vc) 63
  (((v.set a va).set b vb).set c vc).set d vd

/-- The columns and then the diagonals of the state, each with two words of the block. -/
def lanes : List (Fin 16 × Fin 16 × Fin 16 × Fin 16) :=
  [(0, 4, 8, 12), (1, 5, 9, 13), (2, 6, 10, 14), (3, 7, 11, 15),
   (0, 5, 10, 15), (1, 6, 11, 12), (2, 7, 8, 13), (3, 4, 9, 14)]

def round (block : Words) : List (Fin 16 × Fin 16 × Fin 16 × Fin 16) → List (Fin 16) →
    Words → Words
  | (a, b, c, d) :: lanes, x :: y :: order, v =>
    round block lanes order (mix v a b c d block[x] block[y])
  | _, _, v => v

def rounds : List (List (Fin 16)) := permutations ++ permutations.take 2

def wordsOf (block : Bytes) : Words :=
  Vector.ofFn fun i ↦ UInt64.ofNat (Wire.leValue ((block.drop (8 * i.val)).take 8))

def compress (h : Chain) (block : Bytes) (count : Nat) (isLast : Bool) : Chain :=
  let v : Words := Vector.ofFn fun i ↦
    if low : i.val < 8 then h[i.val] else
      let constant := constants[i.val - 8]
      if i.val = 12 then constant ^^^ UInt64.ofNat count
      else if i.val = 13 then constant ^^^ UInt64.ofNat (count >>> 64)
      else if i.val = 14 ∧ isLast then ~~~constant
      else constant
  let v := rounds.foldl (fun v order ↦ round (wordsOf block) lanes order v) v
  Vector.ofFn fun i ↦ h[i] ^^^ v[i.val] ^^^ v[i.val + 8]

/-- Mixes in the blocks of the message that follow `count` bytes. -/
def absorb (h : Chain) (count : Nat) (message : Bytes) : Chain :=
  if message.length ≤ 128 then
    compress h (message ++ List.replicate (128 - message.length) 0) (count + message.length) true
  else
    absorb (compress h (message.take 128) (count + 128) false) (count + 128) (message.drop 128)
termination_by message.length
decreasing_by simp only [List.length_drop]; omega

/-- The first constant is changed by the length of the digest and the shape of the hash. -/
def start : Chain := constants.set 0 (constants[0] ^^^ 0x01010020)

def hash (message : Bytes) : Octets 32 :=
  let h := absorb start 0 message
  let word (i : Fin 8) := Wire.leBytes 8 h[i].toNat
  ⟨word 0 ++ word 1 ++ word 2 ++ word 3, by simp [word, Wire.length_leBytes]⟩

end ChainClient.Crypto.Blake2b
