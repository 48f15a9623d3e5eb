import ChainClient.Json.Form
import ChainClient.Value.ClType

/-!
# Types in JSON

A leaf is its name, and a composite is an object with one member. The two parts of a
result and of a map are named members, in any order, or the two elements of an array;
the part of a one-element tuple stands bare or in an array.
-/

namespace ChainClient.ClType

def toJson : ClType → Json
  | .leaf l => .str l.name
  | .option t => .tagged "Option" t.toJson
  | .list t => .tagged "List" t.toJson
  | .byteArray size => .tagged "ByteArray" (.int size.toNat)
  | .result a b => .tagged "Result" (.obj [("ok", a.toJson), ("err", b.toJson)])
  | .map a b => .tagged "Map" (.obj [("key", a.toJson), ("value", b.toJson)])
  | .tuple1 t => .tagged "Tuple1" t.toJson
  | .tuple2 a b => .tagged "Tuple2" (.arr [a.toJson, b.toJson])
  | .tuple3 a b c => .tagged "Tuple3" (.arr [a.toJson, b.toJson, c.toJson])

def ofJson? : Json → Option ClType
  | .str name => (ClLeaf.ofName? name).map .leaf
  | .obj [("Option", t)] => (ofJson? t).map .option
  | .obj [("List", t)] => (ofJson? t).map .list
  | .obj [("ByteArray", size)] =>
    (Json.nat? UInt32.size size).map fun n ↦ .byteArray (UInt32.ofNat n)
  | .obj [("Result", .arr [a, b])] => do return .result (← ofJson? a) (← ofJson? b)
  | .obj [("Result", .obj [("ok", a), ("err", b)])] => do
    return .result (← ofJson? a) (← ofJson? b)
  | .obj [("Result", .obj [("err", b), ("ok", a)])] => do
    return .result (← ofJson? a) (← ofJson? b)
  | .obj [("Map", .arr [a, b])] => do return .map (← ofJson? a) (← ofJson? b)
  | .obj [("Map", .obj [("key", a), ("value", b)])] => do
    return .map (← ofJson? a) (← ofJson? b)
  | .obj [("Map", .obj [("value", b), ("key", a)])] => do
    return .map (← ofJson? a) (← ofJson? b)
  | .obj [("Tuple1", .arr [t])] => (ofJson? t).map .tuple1
  | .obj [("Tuple1", t)] => (ofJson? t).map .tuple1
  | .obj [("Tuple2", .arr [a, b])] => do return .tuple2 (← ofJson? a) (← ofJson? b)
  | .obj [("Tuple3", .arr [a, b, c])] => do
    return .tuple3 (← ofJson? a) (← ofJson? b) (← ofJson? c)
  | _ => none

instance : JsonForm ClType := ⟨toJson, fun _ ↦ ofJson?⟩

end ChainClient.ClType
