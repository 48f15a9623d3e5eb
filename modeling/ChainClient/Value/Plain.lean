import ChainClient.Json.Form
import ChainClient.Value.Blob
import ChainClient.Value.Native

/-!
# Native values in plain JSON

How a person writes a native value down. Every number is a decimal text, so that none is
too wide for a reader; bytes are hexadecimal text, and addresses, keys and signatures stand
in their own text forms. An option is null or a member `some`, a result a member `ok` or
`err`, a tuple the array of its parts. A map is an array of pairs, which a reader takes in
any order; of two values for one key it keeps the later one.
-/

namespace ChainClient

inductive PlainError where
  /-- The value does not have the shape of its type, or lies out of its range. -/
  | badShape
  | address (error : AddressError)
  | crypto (error : CryptoError)
  | hex (error : HexError)
  deriving DecidableEq, Repr

namespace PlainError

def message : PlainError → String
  | .badShape => "no value of the type"
  | .address error => error.message
  | .crypto error => error.message
  | .hex error => error.message

end PlainError

namespace Plain

def orShape {α : Type} : Option α → Except PlainError α
  | some x => .ok x
  | none => .error .badShape

def text (j : Json) : Except PlainError String := orShape j.text?

def natural (j : Json) : Except PlainError Nat := do
  orShape (Text.Decimal.natural? 10 (← text j).toList)

def integer (j : Json) : Except PlainError Int := do
  orShape (Text.Decimal.integer? (← text j).toList)

/-- A number below a bound. -/
def below {α : Type} (bound : Nat) (build : Nat → α) (j : Json) : Except PlainError α := do
  let n ← natural j
  if n < bound then return build n else throw .badShape

/-- A number between two bounds. -/
def within {α : Type} (least greatest : Int) (build : Int → α) (j : Json) :
    Except PlainError α := do
  let n ← integer j
  if least ≤ n ∧ n ≤ greatest then return build n else throw .badShape

def wide (size : Nat) (j : Json) : Except PlainError (BigUInt size) := do
  orShape (BigUInt.ofDecimal? size (← text j).toList)

def bytes (j : Json) : Except PlainError Bytes := do
  (Text.Hex.decode (← text j).toList).mapError .hex

/-- A value with a text form of its own. -/
def ofText {ε α : Type} (read : String → Except ε α) (cause : ε → PlainError) (j : Json) :
    Except PlainError α := do
  (read (← text j)).mapError cause

def rights (j : Json) : Except PlainError AccessRights := do
  orShape (AccessRights.ofBits? (← below UInt8.size UInt8.ofNat j))

def pair : Json → Except PlainError (Json × Json)
  | .arr [a, b] => .ok (a, b)
  | _ => .error .badShape

def number (n : Nat) : Json := .str (String.ofList (Text.Decimal.ofNat n))

def signed (n : Int) : Json := .str (String.ofList (Text.Decimal.ofInt n))

end Plain

namespace Scalar

def ofPlain : (s : Scalar) → Json → Except PlainError s.Value
  | .bool, j => Plain.orShape (ofJson? .tree j)
  | .i32, j => Plain.within Int32.minValue.toInt Int32.maxValue.toInt Int32.ofInt j
  | .i64, j => Plain.within Int64.minValue.toInt Int64.maxValue.toInt Int64.ofInt j
  | .u8, j => Plain.below UInt8.size UInt8.ofNat j
  | .u16, j => Plain.below UInt16.size UInt16.ofNat j
  | .u32, j => Plain.below UInt32.size UInt32.ofNat j
  | .u64, j => Plain.below UInt64.size UInt64.ofNat j
  | .u128, j => Plain.wide 16 j
  | .u256, j => Plain.wide 32 j
  | .u512, j => Plain.wide 64 j
  | .unit, _ => .ok ()
  | .string, j => Plain.text j
  | .key, j => Plain.ofText Key.ofText .address j
  | .uref, j => Plain.ofText URef.ofText .address j
  | .publicKey, j => Plain.ofText PublicKey.ofText .crypto j
  | .bytes, j => do return ⟨← Plain.bytes j⟩
  | .accessRights, j => Plain.rights j
  | .accountHash, j => Plain.ofText AccountHash.ofText .address j
  | .digest, j => Plain.ofText Digest.ofText .hex j
  | .signature, j => Plain.ofText Signature.ofText .crypto j

def toPlain : (s : Scalar) → s.Value → Json
  | .bool, b => .bool b
  | .i32, n => Plain.signed n.toInt
  | .i64, n => Plain.signed n.toInt
  | .u8, n => Plain.number n.toNat
  | .u16, n => Plain.number n.toNat
  | .u32, n => Plain.number n.toNat
  | .u64, n => Plain.number n.toNat
  | .u128, n => Plain.number n.toNat
  | .u256, n => Plain.number n.toNat
  | .u512, n => Plain.number n.toNat
  | .unit, _ => .null
  | .string, s => .str s
  | .key, k => .str k.text
  | .uref, u => .str u.text
  | .publicKey, k => .str k.text
  | .bytes, b => .str b.text
  | .accessRights, a => Plain.number a.bits.toNat
  | .accountHash, a => .str a.text
  | .digest, d => .str d.text
  | .signature, s => .str s.text

end Scalar

namespace Native

def ofPlain : (t : Native) → Json → Except PlainError t.Value
  | .scalar s, j => s.ofPlain j
  | .byteArray size, j => do Plain.orShape (Octets.ofList? size.toNat (← Plain.bytes j))
  | .option t, j =>
    match j with
    | .null => .ok none
    | .obj [("some", x)] => do return some (← ofPlain t x)
    | _ => .error .badShape
  | .list t, j => do (← Plain.orShape j.list?).mapM (ofPlain t)
  | .result a b, j =>
    match j with
    | .obj [("ok", x)] => do return .ok (← ofPlain a x)
    | .obj [("err", x)] => do return .error (← ofPlain b x)
    | _ => .error .badShape
  | .map k v, j => do
    let entries ← (← Plain.orShape j.list?).mapM fun entry ↦ do
      let (x, y) ← Plain.pair entry
      return (← ofPlain k x, ← ofPlain v y)
    return SortedMap.ofList entries
  | .tuple1 t, j =>
    match j with
    | .arr [x] => ofPlain t x
    | _ => .error .badShape
  | .tuple2 a b, j =>
    match j with
    | .arr [x, y] => do return (← ofPlain a x, ← ofPlain b y)
    | _ => .error .badShape
  | .tuple3 a b c, j =>
    match j with
    | .arr [x, y, z] => do return (← ofPlain a x, ← ofPlain b y, ← ofPlain c z)
    | _ => .error .badShape

def toPlain : (t : Native) → t.Value → Json
  | .scalar s, x => s.toPlain x
  | .byteArray _, x => .str (Text.Hex.text x.toList)
  | .option _, none => .null
  | .option t, some x => .obj [("some", toPlain t x)]
  | .list t, xs => .arr (xs.map (toPlain t))
  | .result a _, .ok x => .obj [("ok", toPlain a x)]
  | .result _ b, .error x => .obj [("err", toPlain b x)]
  | .map k v, m => .arr (m.entries.map fun entry ↦ .arr [toPlain k entry.1, toPlain v entry.2])
  | .tuple1 t, x => .arr [toPlain t x]
  | .tuple2 a b, (x, y) => .arr [toPlain a x, toPlain b y]
  | .tuple3 a b c, (x, y, z) => .arr [toPlain a x, toPlain b y, toPlain c z]

end Native

end ChainClient
