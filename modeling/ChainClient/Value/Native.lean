import ChainClient.Address.Key
import ChainClient.Crypto.Digest
import ChainClient.Crypto.Signature
import ChainClient.Value.ClType
import ChainClient.Wire.BigUInt
import ChainClient.Wire.Container

/-!
# Native types

The types whose values a program holds and passes to contracts, as codes. A code has a
type of values, an order on them, a binary form and, for all but a few scalars that only
occur inside other structures, a type descriptor. Codes are closed under options, lists,
results, maps and tuples without bound.

Values and their sort keys are defined together, because the values of a map are sorted
by the keys of its key type.
-/

namespace ChainClient

/-! ## Scalars -/

inductive Scalar where
  | bool
  | i32
  | i64
  | u8
  | u16
  | u32
  | u64
  | u128
  | u256
  | u512
  | unit
  | string
  | key
  | uref
  | publicKey
  | bytes
  | accessRights
  | accountHash
  | digest
  | signature
  deriving DecidableEq, Repr

namespace Scalar

@[reducible] def Value : Scalar → Type
  | .bool => Bool
  | .i32 => Int32
  | .i64 => Int64
  | .u8 => UInt8
  | .u16 => UInt16
  | .u32 => UInt32
  | .u64 => UInt64
  | .u128 => U128
  | .u256 => U256
  | .u512 => U512
  | .unit => Unit
  | .string => String
  | .key => Key
  | .uref => URef
  | .publicKey => PublicKey
  | .bytes => Blob
  | .accessRights => AccessRights
  | .accountHash => AccountHash
  | .digest => Digest
  | .signature => Signature

def sortKey : (s : Scalar) → s.Value → List Int
  | .bool, b => [if b then 1 else 0]
  | .i32, n => [n.toInt]
  | .i64, n => [n.toInt]
  | .u8, n => [(n.toNat : Int)]
  | .u16, n => [(n.toNat : Int)]
  | .u32, n => [(n.toNat : Int)]
  | .u64, n => [(n.toNat : Int)]
  | .u128, n => [(n.toNat : Int)]
  | .u256, n => [(n.toNat : Int)]
  | .u512, n => [(n.toNat : Int)]
  | .unit, _ => []
  | .string, s => SortKey.ofBlock (Wire.utf8 s)
  | .key, k => SortKey.sortKey k
  | .uref, u => SortKey.sortKey u
  | .publicKey, k => SortKey.sortKey k
  | .bytes, b => SortKey.ofBlock b.toList
  | .accessRights, a => SortKey.sortKey a
  | .accountHash, a => SortKey.sortKey a
  | .digest, d => SortKey.sortKey d
  | .signature, s => SortKey.sortKey s

instance wire : (s : Scalar) → Wire s.Value
  | .bool => inferInstanceAs (Wire Bool)
  | .i32 => inferInstanceAs (Wire Int32)
  | .i64 => inferInstanceAs (Wire Int64)
  | .u8 => inferInstanceAs (Wire UInt8)
  | .u16 => inferInstanceAs (Wire UInt16)
  | .u32 => inferInstanceAs (Wire UInt32)
  | .u64 => inferInstanceAs (Wire UInt64)
  | .u128 => inferInstanceAs (Wire U128)
  | .u256 => inferInstanceAs (Wire U256)
  | .u512 => inferInstanceAs (Wire U512)
  | .unit => inferInstanceAs (Wire Unit)
  | .string => inferInstanceAs (Wire String)
  | .key => inferInstanceAs (Wire Key)
  | .uref => inferInstanceAs (Wire URef)
  | .publicKey => inferInstanceAs (Wire PublicKey)
  | .bytes => inferInstanceAs (Wire Blob)
  | .accessRights => inferInstanceAs (Wire AccessRights)
  | .accountHash => inferInstanceAs (Wire AccountHash)
  | .digest => inferInstanceAs (Wire Digest)
  | .signature => inferInstanceAs (Wire Signature)

/-- Bytes of any number are described as a list of small numbers. -/
def clType? : Scalar → Option ClType
  | .bool => some (.leaf .bool)
  | .i32 => some (.leaf .i32)
  | .i64 => some (.leaf .i64)
  | .u8 => some (.leaf .u8)
  | .u32 => some (.leaf .u32)
  | .u64 => some (.leaf .u64)
  | .u128 => some (.leaf .u128)
  | .u256 => some (.leaf .u256)
  | .u512 => some (.leaf .u512)
  | .unit => some (.leaf .unit)
  | .string => some (.leaf .string)
  | .key => some (.leaf .key)
  | .uref => some (.leaf .uref)
  | .publicKey => some (.leaf .publicKey)
  | .bytes => some (.list (.leaf .u8))
  | .u16 | .accessRights | .accountHash | .digest | .signature => none

end Scalar

/-! ## Codes -/

inductive Native where
  | scalar (s : Scalar)
  /-- An array of bytes. A descriptor holds its size in 32 bits, so there are no longer ones. -/
  | byteArray (size : UInt32)
  | option (inner : Native)
  | list (element : Native)
  | result (ok err : Native)
  | map (key value : Native)
  | tuple1 (first : Native)
  | tuple2 (first second : Native)
  | tuple3 (first second third : Native)
  deriving DecidableEq, Repr

namespace Native

/-- A type of values with their sort keys. -/
structure Carrier where
  Value : Type
  sortKey : Value → List Int

namespace Carrier

@[reducible] def option (c : Carrier) : Carrier where
  Value := Option c.Value
  sortKey
    | none => [0]
    | some x => 1 :: c.sortKey x

@[reducible] def list (c : Carrier) : Carrier where
  Value := List c.Value
  sortKey := SortKey.ofList c.sortKey

@[reducible] def result (ok err : Carrier) : Carrier where
  Value := Except err.Value ok.Value
  sortKey
    | .ok x => 0 :: ok.sortKey x
    | .error e => 1 :: err.sortKey e

@[reducible] def pair (a b : Carrier) : Carrier where
  Value := a.Value × b.Value
  sortKey x := a.sortKey x.1 ++ b.sortKey x.2

@[reducible] def map (k v : Carrier) : Carrier where
  Value := SortedMap k.Value k.sortKey v.Value
  sortKey m := SortKey.ofList (pair k v).sortKey m.entries

end Carrier

def carrier : Native → Carrier
  | .scalar s => ⟨s.Value, s.sortKey⟩
  | .byteArray size => ⟨Octets size.toNat, fun x ↦ SortKey.ofBytes x.toList⟩
  | .option t => t.carrier.option
  | .list t => t.carrier.list
  | .result a b => a.carrier.result b.carrier
  | .map k v => k.carrier.map v.carrier
  | .tuple1 t => t.carrier
  | .tuple2 a b => a.carrier.pair b.carrier
  | .tuple3 a b c => a.carrier.pair (b.carrier.pair c.carrier)

abbrev Value (t : Native) : Type := t.carrier.Value

instance (t : Native) : SortKey t.Value := ⟨t.carrier.sortKey⟩

instance wire : (t : Native) → Wire t.Value
  | .scalar s => s.wire
  | .byteArray size => inferInstanceAs (Wire (Octets size.toNat))
  | .option t =>
    have := t.wire
    inferInstanceAs (Wire (Option t.Value))
  | .list t =>
    have := t.wire
    inferInstanceAs (Wire (List t.Value))
  | .result a b =>
    have := a.wire
    have := b.wire
    inferInstanceAs (Wire (Except b.Value a.Value))
  | .map k v =>
    have := k.wire
    have := v.wire
    inferInstanceAs (Wire (SortedMap k.Value k.carrier.sortKey v.Value))
  | .tuple1 t => t.wire
  | .tuple2 a b =>
    have := a.wire
    have := b.wire
    inferInstanceAs (Wire (a.Value × b.Value))
  | .tuple3 a b c =>
    have := a.wire
    have := b.wire
    have := c.wire
    inferInstanceAs (Wire (a.Value × b.Value × c.Value))

def clType? : Native → Option ClType
  | .scalar s => s.clType?
  | .byteArray size => some (.byteArray size)
  | .option t => do return .option (← t.clType?)
  | .list t => do return .list (← t.clType?)
  | .result a b => do return .result (← a.clType?) (← b.clType?)
  | .map k v => do return .map (← k.clType?) (← v.clType?)
  | .tuple1 t => do return .tuple1 (← t.clType?)
  | .tuple2 a b => do return .tuple2 (← a.clType?) (← b.clType?)
  | .tuple3 a b c => do return .tuple3 (← a.clType?) (← b.clType?) (← c.clType?)

end Native

end ChainClient
