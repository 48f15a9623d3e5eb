import ChainClient.Value.ClType.Json
import ChainClient.Value.ClType.Name
import ChainClient.Value.Native
import ChainClient.Value.Walk

/-!
# Typed values

A value that is passed to a contract is a descriptor and the bytes of one value of that
type. On the wire the bytes come first, behind their length. In JSON the rendered value
stands beside them for the reader's convenience; only the type and the bytes are read
back.
-/

namespace ChainClient

structure ClValue where
  clType : ClType
  payload : Bytes
  deriving DecidableEq, Repr

inductive ClValueError where
  | serialization (error : WireError)
  | typeMismatch (expected found : ClType)
  | range (clType : ClType) (value : String)
  | notNumeric (clType : ClType)
  deriving DecidableEq, Repr

namespace ClValueError

def message : ClValueError → String
  | .serialization error => "serialization error: " ++ error.message
  | .typeMismatch expected found =>
    "type mismatch: expected " ++ expected.name ++ ", found " ++ found.name
  | .range clType value => value ++ " is out of range for " ++ clType.name
  | .notNumeric clType => clType.name ++ " is not a numeric type"

end ClValueError

namespace ClValue

def ofComponents (clType : ClType) (payload : Bytes) : Except ClValueError ClValue := do
  (clType.validate payload).mapError .serialization
  return ⟨clType, payload⟩

/-- The value as JSON. Nothing only if the bytes are no value of the type. -/
def parsed? (v : ClValue) : Option Json :=
  match v.clType.render v.payload with
  | .ok (value, _) => some value
  | .error _ => none

/-! ## Native values -/

def ofNative {clType : ClType} (t : Native) (_ : t.clType? = some clType) (x : t.Value) :
    Except ClValueError ClValue := do
  let payload ← (Wire.write x).mapError .serialization
  return ⟨clType, payload⟩

def toNative {clType : ClType} (t : Native) (_ : t.clType? = some clType) (v : ClValue) :
    Except ClValueError t.Value :=
  if clType = v.clType then (Wire.readAll v.payload).mapError .serialization
  else .error (.typeMismatch clType v.clType)

/-! ## Forms -/

instance : Wire ClValue where
  write v := do
    let front ← Wire.writeBlock v.payload
    return front ++ v.clType.bytes
  read bytes := do
    let (payload, rest) ← Wire.readBlock bytes
    let (clType, rest) ← (Wire.read rest : Except WireError (ClType × Bytes))
    clType.validate payload
    return (⟨clType, payload⟩, rest)
  width v := 4 + v.payload.length + v.clType.width

def shape : Json.Shape := ⟨[("cl_type", .required), ("bytes", .required)], false⟩

def toJson (v : ClValue) : Json :=
  .obj [("cl_type", v.clType.toJson), ("bytes", .str (Text.Hex.text v.payload)),
    ("parsed", v.parsed?.getD .null)]

def ofJson? (j : Json) : Option ClValue :=
  match shape.read? j with
  | some [some clType, some bytes] => do
    let clType ← ClType.ofJson? clType
    let payload ← (Text.Hex.decode (← bytes.text?).toList).toOption
    (ofComponents clType payload).toOption
  | _ => none

instance : JsonForm ClValue := ⟨toJson, fun _ ↦ ofJson?⟩

end ClValue

end ChainClient
