import ChainClient.Limits
import ChainClient.Order.SortKey
import ChainClient.Text.Decimal
import ChainClient.Wire.Basic

/-!
# Type descriptors

A descriptor states the type of a value that is passed to a contract: one of fifteen
leaves, a byte array of a fixed size, or a composite of other descriptors. In the
binary form each constructor is a tag byte followed by its parts. A reader gives up on
a descriptor that nests beyond the limit before it looks at the tag below it.
-/

namespace ChainClient

inductive ClLeaf where
  | bool
  | i32
  | i64
  | u8
  | u32
  | u64
  | u128
  | u256
  | u512
  | unit
  | string
  | key
  | uref
  | publicKey
  /-- A value of unstated structure, which owns all bytes that are left. -/
  | any
  deriving DecidableEq, Repr

namespace ClLeaf

def all : List ClLeaf :=
  [.bool, .i32, .i64, .u8, .u32, .u64, .u128, .u256, .u512, .unit, .string, .key, .uref,
   .publicKey, .any]

def tag : ClLeaf → UInt8
  | .bool => 0
  | .i32 => 1
  | .i64 => 2
  | .u8 => 3
  | .u32 => 4
  | .u64 => 5
  | .u128 => 6
  | .u256 => 7
  | .u512 => 8
  | .unit => 9
  | .string => 10
  | .key => 11
  | .uref => 12
  | .any => 21
  | .publicKey => 22

def ofTag? (tag : UInt8) : Option ClLeaf := all.find? fun leaf ↦ leaf.tag == tag

def name : ClLeaf → String
  | .bool => "Bool"
  | .i32 => "I32"
  | .i64 => "I64"
  | .u8 => "U8"
  | .u32 => "U32"
  | .u64 => "U64"
  | .u128 => "U128"
  | .u256 => "U256"
  | .u512 => "U512"
  | .unit => "Unit"
  | .string => "String"
  | .key => "Key"
  | .uref => "URef"
  | .publicKey => "PublicKey"
  | .any => "Any"

def ofName? (name : String) : Option ClLeaf := all.find? fun leaf ↦ leaf.name == name

theorem ofName?_name (leaf : ClLeaf) : ofName? leaf.name = some leaf := by cases leaf <;> rfl

/-- The place of a leaf in the order of descriptors; the composites come before `any`. -/
def rank : ClLeaf → Int
  | .any => 22
  | .publicKey => 13
  | leaf => leaf.tag.toNat

end ClLeaf

inductive ClType where
  | leaf (l : ClLeaf)
  | option (inner : ClType)
  | list (element : ClType)
  | byteArray (size : UInt32)
  | result (ok err : ClType)
  | map (key value : ClType)
  | tuple1 (first : ClType)
  | tuple2 (first second : ClType)
  | tuple3 (first second third : ClType)
  deriving DecidableEq, Repr

namespace ClType

def tag : ClType → UInt8
  | .leaf l => l.tag
  | .option _ => 13
  | .list _ => 14
  | .byteArray _ => 15
  | .result _ _ => 16
  | .map _ _ => 17
  | .tuple1 _ => 18
  | .tuple2 _ _ => 19
  | .tuple3 _ _ _ => 20

/-- Everything but a leaf. -/
def isComposite : ClType → Bool
  | .leaf _ => false
  | _ => true

/-- A leaf and a byte array count one level, and each other constructor adds one. -/
def nesting : ClType → Nat
  | .leaf _ => 1
  | .byteArray _ => 1
  | .option t => t.nesting + 1
  | .list t => t.nesting + 1
  | .result a b => max a.nesting b.nesting + 1
  | .map a b => max a.nesting b.nesting + 1
  | .tuple1 t => t.nesting + 1
  | .tuple2 a b => max a.nesting b.nesting + 1
  | .tuple3 a b c => max a.nesting (max b.nesting c.nesting) + 1

/-! ## Binary form -/

def bytes : ClType → Bytes
  | .leaf l => [l.tag]
  | .option t => 13 :: t.bytes
  | .list t => 14 :: t.bytes
  | .byteArray size => 15 :: Wire.leBytes 4 size.toNat
  | .result a b => 16 :: (a.bytes ++ b.bytes)
  | .map a b => 17 :: (a.bytes ++ b.bytes)
  | .tuple1 t => 18 :: t.bytes
  | .tuple2 a b => 19 :: (a.bytes ++ b.bytes)
  | .tuple3 a b c => 20 :: (a.bytes ++ b.bytes ++ c.bytes)

def width : ClType → Nat
  | .leaf _ => 1
  | .option t => 1 + t.width
  | .list t => 1 + t.width
  | .byteArray _ => 5
  | .result a b => 1 + (a.width + b.width)
  | .map a b => 1 + (a.width + b.width)
  | .tuple1 t => 1 + t.width
  | .tuple2 a b => 1 + (a.width + b.width)
  | .tuple3 a b c => 1 + (a.width + b.width + c.width)

/-- Reads a descriptor that may still nest `levels` levels. -/
def readWithin : Nat → Bytes → Except WireError (ClType × Bytes)
  | 0, _ => .error .tooDeep
  | _ + 1, [] => .error .earlyEnd
  | levels + 1, tag :: rest =>
    if tag = 13 then do
      let (t, rest) ← readWithin levels rest
      return (.option t, rest)
    else if tag = 14 then do
      let (t, rest) ← readWithin levels rest
      return (.list t, rest)
    else if tag = 15 then do
      let (size, rest) ← Wire.readNat 4 rest
      return (.byteArray (UInt32.ofNat size), rest)
    else if tag = 16 then do
      let (a, rest) ← readWithin levels rest
      let (b, rest) ← readWithin levels rest
      return (.result a b, rest)
    else if tag = 17 then do
      let (a, rest) ← readWithin levels rest
      let (b, rest) ← readWithin levels rest
      return (.map a b, rest)
    else if tag = 18 then do
      let (t, rest) ← readWithin levels rest
      return (.tuple1 t, rest)
    else if tag = 19 then do
      let (a, rest) ← readWithin levels rest
      let (b, rest) ← readWithin levels rest
      return (.tuple2 a b, rest)
    else if tag = 20 then do
      let (a, rest) ← readWithin levels rest
      let (b, rest) ← readWithin levels rest
      let (c, rest) ← readWithin levels rest
      return (.tuple3 a b c, rest)
    else
      match ClLeaf.ofTag? tag with
      | some l => .ok (.leaf l, rest)
      | none => .error (.unknownTag .clType tag)

instance : Wire ClType where
  write t := .ok t.bytes
  read := readWithin Limits.maxTypeDepth
  width := width

/-! ## Canonical names -/

def chars : ClType → List Char
  | .leaf l => l.name.toList
  | .option t => "Option(".toList ++ t.chars ++ [')']
  | .list t => "List(".toList ++ t.chars ++ [')']
  | .byteArray size => "ByteArray(".toList ++ Text.Decimal.ofNat size.toNat ++ [')']
  | .result a b => "Result(".toList ++ a.chars ++ [',', ' '] ++ b.chars ++ [')']
  | .map a b => "Map(".toList ++ a.chars ++ [',', ' '] ++ b.chars ++ [')']
  | .tuple1 t => "Tuple1(".toList ++ t.chars ++ [')']
  | .tuple2 a b => "Tuple2(".toList ++ a.chars ++ [',', ' '] ++ b.chars ++ [')']
  | .tuple3 a b c =>
    "Tuple3(".toList ++ a.chars ++ [',', ' '] ++ b.chars ++ [',', ' '] ++ c.chars ++ [')']

def name (t : ClType) : String := String.ofList t.chars

/-! ## Order -/

def rankKey : ClType → List Int
  | .leaf l => [l.rank]
  | .option t => 14 :: t.rankKey
  | .list t => 15 :: t.rankKey
  | .byteArray size => [16, (size.toNat : Int)]
  | .result a b => 17 :: (a.rankKey ++ b.rankKey)
  | .map a b => 18 :: (a.rankKey ++ b.rankKey)
  | .tuple1 t => 19 :: t.rankKey
  | .tuple2 a b => 20 :: (a.rankKey ++ b.rankKey)
  | .tuple3 a b c => 21 :: (a.rankKey ++ b.rankKey ++ c.rankKey)

instance : SortKey ClType := ⟨rankKey⟩

end ClType

end ChainClient
