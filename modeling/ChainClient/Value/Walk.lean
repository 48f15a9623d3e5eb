import ChainClient.Address.Key
import ChainClient.Json.Basic
import ChainClient.Value.ClType
import ChainClient.Wire.BigUInt
import ChainClient.Wire.Container

/-!
# Walking over the bytes of a described value

Two walks are driven by a descriptor. `skip` finds the end of a value and decides whether
its bytes are acceptable; it builds nothing, so its work is bounded by the input even for
a list of elements without bytes, and it finds a repeated key of a map by its bytes.
`render` shows a value as JSON and is meant for bytes that passed. Both stop at the end of
the value whatever follows, except that a value of unstated structure takes all bytes.
-/

namespace ChainClient

/-! ## Skipping -/

/-- Steps over the last `n` of `count` elements. -/
def skipItems (step : Bytes → Except WireError Bytes) (count : Nat) :
    Nat → Bytes → Except WireError Bytes
  | 0, bytes => .ok bytes
  | n + 1, bytes => do
    let rest ← step bytes
    Wire.checkZeroWidth bytes rest count
    skipItems step count n rest

/-- Steps over `n` entries whose keys differ from those seen before. -/
def skipEntries (stepKey stepValue : Bytes → Except WireError Bytes) :
    List Bytes → Nat → Bytes → Except WireError Bytes
  | _, 0, bytes => .ok bytes
  | seen, n + 1, bytes => do
    let afterKey ← stepKey bytes
    let key := bytes.take (bytes.length - afterKey.length)
    if key ∈ seen then .error (.malformed .duplicateMapKey)
    else
      let rest ← stepValue afterKey
      skipEntries stepKey stepValue (key :: seen) n rest

/-- Reads a value and keeps only what follows it. -/
def skipOne (α : Type) [Wire α] (bytes : Bytes) : Except WireError Bytes := do
  let (_, rest) ← (Wire.read bytes : Except WireError (α × Bytes))
  return rest

namespace ClLeaf

def skip : ClLeaf → Bytes → Except WireError Bytes
  | .bool => skipOne Bool
  | .i32 => skipOne Int32
  | .i64 => skipOne Int64
  | .u8 => skipOne UInt8
  | .u32 => skipOne UInt32
  | .u64 => skipOne UInt64
  | .u128 => skipOne U128
  | .u256 => skipOne U256
  | .u512 => skipOne U512
  | .unit => .ok
  | .string => skipOne String
  | .key => skipOne Key
  | .uref => skipOne URef
  | .publicKey => skipOne PublicKey
  | .any => fun _ ↦ .ok []

end ClLeaf

namespace ClType

def skip : ClType → Bytes → Except WireError Bytes
  | .leaf l, bytes => l.skip bytes
  | .option t, bytes => do
    let (tag, rest) ← (Wire.read bytes : Except WireError (UInt8 × Bytes))
    if tag = 0 then .ok rest
    else if tag = 1 then t.skip rest
    else .error (.unknownTag .option tag)
  | .list t, bytes => do
    let (count, rest) ← Wire.readCount bytes
    skipItems t.skip count count rest
  | .byteArray size, bytes => do
    let (_, rest) ← Wire.split size.toNat bytes
    return rest
  | .result a b, bytes => do
    let (tag, rest) ← (Wire.read bytes : Except WireError (UInt8 × Bytes))
    if tag = 1 then a.skip rest
    else if tag = 0 then b.skip rest
    else .error (.unknownTag .result tag)
  | .map k v, bytes => do
    let (count, rest) ← Wire.readCount bytes
    skipEntries k.skip v.skip [] count rest
  | .tuple1 t, bytes => t.skip bytes
  | .tuple2 a b, bytes => do
    let rest ← a.skip bytes
    b.skip rest
  | .tuple3 a b c, bytes => do
    let rest ← a.skip bytes
    let rest ← b.skip rest
    c.skip rest

/-- The bytes are one value of the type and nothing else. -/
def validate (t : ClType) (bytes : Bytes) : Except WireError Unit := do
  let rest ← t.skip bytes
  if rest.isEmpty then .ok () else .error (.leftOver rest.length)

end ClType

/-! ## Rendering -/

def renderItems (step : Bytes → Except WireError (Json × Bytes)) :
    Nat → Bytes → Except WireError (List Json × Bytes)
  | 0, bytes => .ok ([], bytes)
  | n + 1, bytes => do
    let (item, rest) ← step bytes
    let (items, rest) ← renderItems step n rest
    return (item :: items, rest)

def renderEntries (stepKey stepValue : Bytes → Except WireError (Json × Bytes)) :
    Nat → Bytes → Except WireError (List Json × Bytes)
  | 0, bytes => .ok ([], bytes)
  | n + 1, bytes => do
    let (key, rest) ← stepKey bytes
    let (value, rest) ← stepValue rest
    let (entries, rest) ← renderEntries stepKey stepValue n rest
    return (.obj [("key", key), ("value", value)] :: entries, rest)

def renderOne (α : Type) [Wire α] (toJson : α → Json) (bytes : Bytes) :
    Except WireError (Json × Bytes) := do
  let (x, rest) ← (Wire.read bytes : Except WireError (α × Bytes))
  return (toJson x, rest)

namespace ClLeaf

def render : ClLeaf → Bytes → Except WireError (Json × Bytes)
  | .bool => renderOne Bool .bool
  | .i32 => renderOne Int32 fun n ↦ .int n.toInt
  | .i64 => renderOne Int64 fun n ↦ .int n.toInt
  | .u8 => renderOne UInt8 fun n ↦ .int n.toNat
  | .u32 => renderOne UInt32 fun n ↦ .int n.toNat
  | .u64 => renderOne UInt64 fun n ↦ .int n.toNat
  | .u128 => renderOne U128 fun n ↦ .str n.text
  | .u256 => renderOne U256 fun n ↦ .str n.text
  | .u512 => renderOne U512 fun n ↦ .str n.text
  | .unit => fun bytes ↦ .ok (.null, bytes)
  | .string => renderOne String .str
  | .key => renderOne Key fun k ↦ .str k.text
  | .uref => renderOne URef fun u ↦ .str u.text
  | .publicKey => renderOne PublicKey fun k ↦ .str k.text
  | .any => fun bytes ↦ .ok (.str (Text.Hex.text bytes), [])

end ClLeaf

namespace ClType

def render : ClType → Bytes → Except WireError (Json × Bytes)
  | .leaf l, bytes => l.render bytes
  | .option t, bytes => do
    let (tag, rest) ← (Wire.read bytes : Except WireError (UInt8 × Bytes))
    if tag = 0 then .ok (.null, rest)
    else if tag = 1 then t.render rest
    else .error (.unknownTag .option tag)
  | .list t, bytes => do
    let (count, rest) ← Wire.readCount bytes
    let (items, rest) ← renderItems t.render count rest
    return (.arr items, rest)
  | .byteArray size, bytes => do
    let (raw, rest) ← Wire.split size.toNat bytes
    return (.str (Text.Hex.text raw), rest)
  | .result a b, bytes => do
    let (tag, rest) ← (Wire.read bytes : Except WireError (UInt8 × Bytes))
    if tag = 1 then
      let (value, rest) ← a.render rest
      return (.obj [("Ok", value)], rest)
    else if tag = 0 then
      let (value, rest) ← b.render rest
      return (.obj [("Err", value)], rest)
    else .error (.unknownTag .result tag)
  | .map k v, bytes => do
    let (count, rest) ← Wire.readCount bytes
    let (entries, rest) ← renderEntries k.render v.render count rest
    return (.arr entries, rest)
  | .tuple1 t, bytes => do
    let (x, rest) ← t.render bytes
    return (.arr [x], rest)
  | .tuple2 a b, bytes => do
    let (x, rest) ← a.render bytes
    let (y, rest) ← b.render rest
    return (.arr [x, y], rest)
  | .tuple3 a b c, bytes => do
    let (x, rest) ← a.render bytes
    let (y, rest) ← b.render rest
    let (z, rest) ← c.render rest
    return (.arr [x, y, z], rest)

end ClType

end ChainClient
