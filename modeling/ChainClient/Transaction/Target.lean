import ChainClient.Crypto.Digest
import ChainClient.Value.Blob
import ChainClient.Wire.Envelope

/-!
# Targets

What a transaction runs: a native operation, stored code, or a module that comes with it.
Stored code is named by the hash or the name of a contract or of a package; a call of a
package may choose the version of the package and the major version of the protocol, and
what is not chosen is left out of every form.
-/

namespace ChainClient

/-! ## Runtimes -/

inductive Runtime where
  | vmCasperV1
  deriving DecidableEq, Repr

namespace Runtime

def ofEnvelope (e : Envelope) : Except WireError Runtime := do
  e.ensureMaxIndex 0
  let tag : UInt8 ← e.field 0
  if tag = 0 then return .vmCasperV1
  else throw (.unknownTag .runtime tag)

instance : Wire Runtime := Wire.ofEnvelope (fun _ ↦ Envelope.ofTag 0) ofEnvelope fun _ ↦ [1]

instance : JsonForm Runtime where
  toJson _ := .str "VmCasperV1"
  ofJson? _ j :=
    match j.alternative? with
    | some ("VmCasperV1", content) => if Json.holdsNothing content then some .vmCasperV1 else none
    | _ => none

end Runtime

/-! ## Stored code -/

inductive InvocationTarget where
  | byHash (hash : Digest)
  | byName (name : String)
  | byPackageHash (hash : Digest) (version protocolMajor : Option UInt32)
  | byPackageName (name : String) (version protocolMajor : Option UInt32)
  deriving DecidableEq, Repr

namespace InvocationTarget

def toEnvelope : InvocationTarget → Except WireError Envelope
  | .byHash hash => do (← Envelope.ofTag 0).add 1 hash
  | .byName name => do (← Envelope.ofTag 1).add 1 name
  | .byPackageHash hash version protocolMajor => do
    let e ← Envelope.ofTag 2
    let e ← e.add 1 hash
    let e ← e.addOptional 2 version
    e.addOptional 3 protocolMajor
  | .byPackageName name version protocolMajor => do
    let e ← Envelope.ofTag 3
    let e ← e.add 1 name
    let e ← e.addOptional 2 version
    e.addOptional 3 protocolMajor

def ofEnvelope (e : Envelope) : Except WireError InvocationTarget := do
  let tag : UInt8 ← e.field 0
  if tag = 0 then
    e.ensureMaxIndex 1
    return .byHash (← e.field 1)
  else if tag = 1 then
    e.ensureMaxIndex 1
    return .byName (← e.field 1)
  else if tag = 2 then
    e.ensureMaxIndex 3
    return .byPackageHash (← e.field 1) (← e.optionalField 2) (← e.optionalField 3)
  else if tag = 3 then
    e.ensureMaxIndex 3
    return .byPackageName (← e.field 1) (← e.optionalField 2) (← e.optionalField 3)
  else throw (.unknownTag .invocationTarget tag)

/-- A version that is not chosen has no field. -/
def versionLengths (version protocolMajor : Option UInt32) : List Nat :=
  [version, protocolMajor].filterMap fun chosen ↦ chosen.map Wire.width

def lengths : InvocationTarget → List Nat
  | .byHash hash => [1, Wire.width hash]
  | .byName name => [1, Wire.width name]
  | .byPackageHash hash version protocolMajor =>
    1 :: Wire.width hash :: versionLengths version protocolMajor
  | .byPackageName name version protocolMajor =>
    1 :: Wire.width name :: versionLengths version protocolMajor

instance : Wire InvocationTarget := Wire.ofEnvelope toEnvelope ofEnvelope lengths

def packageShape (first : String) : Json.Shape :=
  ⟨[(first, .required), ("version", .optional), ("protocol_version_major", .optional)], true⟩

def versionMembers (version protocolMajor : Option UInt32) : List (String × Json) :=
  [("version", version), ("protocol_version_major", protocolMajor)].filterMap fun member ↦
    member.2.map fun chosen ↦ (member.1, toJson chosen)

instance : JsonForm InvocationTarget where
  toJson
    | .byHash hash => .tagged "ByHash" (toJson hash)
    | .byName name => .tagged "ByName" (toJson name)
    | .byPackageHash hash version protocolMajor =>
      .tagged "ByPackageHash" (.obj
        (("addr", toJson hash) :: versionMembers version protocolMajor))
    | .byPackageName name version protocolMajor =>
      .tagged "ByPackageName" (.obj
        (("name", toJson name) :: versionMembers version protocolMajor))
  ofJson? source j :=
    match j.alternative? with
    | some ("ByHash", some content) => (ofJson? source content).map .byHash
    | some ("ByName", some content) => (ofJson? source content).map .byName
    | some ("ByPackageHash", some content) =>
      match (packageShape "addr").readHeld? source content with
      | some [some hash, version, protocolMajor] => do
        return .byPackageHash (← ofJson? source hash) (← Json.ofField? source version)
          (← Json.ofField? source protocolMajor)
      | _ => none
    | some ("ByPackageName", some content) =>
      match (packageShape "name").readHeld? source content with
      | some [some name, version, protocolMajor] => do
        return .byPackageName (← ofJson? source name) (← Json.ofField? source version)
          (← Json.ofField? source protocolMajor)
      | _ => none
    | _ => none

end InvocationTarget

/-! ## Targets -/

inductive Target where
  | native
  | stored (id : InvocationTarget) (runtime : Runtime)
  | session (isInstallUpgrade : Bool) (code : Blob) (runtime : Runtime)
  deriving DecidableEq, Repr

namespace Target

def kind : Target → String
  | .native => "native"
  | .stored _ _ => "stored"
  | .session _ _ _ => "session"

/-- The runtime comes before the code. -/
def toEnvelope : Target → Except WireError Envelope
  | .native => Envelope.ofTag 0
  | .stored id runtime => do
    let e ← Envelope.ofTag 1
    let e ← e.add 1 id
    e.add 2 runtime
  | .session isInstallUpgrade code runtime => do
    let e ← Envelope.ofTag 2
    let e ← e.add 1 isInstallUpgrade
    let e ← e.add 2 runtime
    e.add 3 code

def ofEnvelope (e : Envelope) : Except WireError Target := do
  let tag : UInt8 ← e.field 0
  if tag = 0 then
    e.ensureMaxIndex 0
    return .native
  else if tag = 1 then
    e.ensureMaxIndex 2
    return .stored (← e.field 1) (← e.field 2)
  else if tag = 2 then
    e.ensureMaxIndex 3
    let isInstallUpgrade ← e.field 1
    let runtime ← e.field 2
    let code ← e.field 3
    return .session isInstallUpgrade code runtime
  else throw (.unknownTag .target tag)

def lengths : Target → List Nat
  | .native => [1]
  | .stored id runtime => [1, Wire.width id, Wire.width runtime]
  | .session isInstallUpgrade code runtime =>
    [1, Wire.width isInstallUpgrade, Wire.width runtime, Wire.width code]

instance : Wire Target := Wire.ofEnvelope toEnvelope ofEnvelope lengths

def storedShape : Json.Shape := .ofNames ["id", "runtime"]

def sessionShape : Json.Shape := .ofNames ["is_install_upgrade", "module_bytes", "runtime"]

instance : JsonForm Target where
  toJson
    | .native => .str "Native"
    | .stored id runtime =>
      .tagged "Stored" (.obj [("id", toJson id), ("runtime", toJson runtime)])
    | .session isInstallUpgrade code runtime =>
      .tagged "Session" (.obj
        [("is_install_upgrade", toJson isInstallUpgrade), ("module_bytes", toJson code),
          ("runtime", toJson runtime)])
  ofJson? source j :=
    match j.alternative? with
    | some ("Native", content) => if Json.holdsNothing content then some .native else none
    | some ("Stored", some content) =>
      match storedShape.readHeld? source content with
      | some [some id, some runtime] => do
        return .stored (← ofJson? source id) (← ofJson? source runtime)
      | _ => none
    | some ("Session", some content) =>
      match sessionShape.readHeld? source content with
      | some [some isInstallUpgrade, some code, some runtime] => do
        return .session (← ofJson? source isInstallUpgrade) (← ofJson? source code)
          (← ofJson? source runtime)
      | _ => none
    | _ => none

end Target

end ChainClient
