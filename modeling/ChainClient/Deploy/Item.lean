import ChainClient.Transfer
import ChainClient.Value.Blob

/-!
# Executable items

The code that a deploy runs, once to pay and once to work: a module that comes with it, a
stored contract that is named by its hash or under a name, with or without a version, or a
native transfer. An empty module stands for the payment logic of the node.
-/

namespace ChainClient

inductive ExecutableItem where
  | moduleBytes (code : Blob) (args : Arguments)
  | byHash (hash : Digest) (entryPoint : String) (args : Arguments)
  | byName (name : String) (entryPoint : String) (args : Arguments)
  /-- Without a version, the latest one that is enabled. -/
  | versionedByHash (hash : Digest) (version : Option UInt32) (entryPoint : String)
      (args : Arguments)
  | versionedByName (name : String) (version : Option UInt32) (entryPoint : String)
      (args : Arguments)
  | transfer (args : Arguments)
  deriving DecidableEq, Repr

namespace ExecutableItem

def standardPayment (amount : U512) : Except ClValueError ExecutableItem := do
  return .moduleBytes ⟨[]⟩ (← Arguments.empty.addAmount amount)

def nativeTransfer (amount : U512) (source : Option URef) (target : TransferTarget)
    (id : Option UInt64) : Except ClValueError ExecutableItem := do
  let args ← Arguments.transfer amount source target
  return .transfer (← args.insert "id" (.option (.scalar .u64)) rfl id)

def args : ExecutableItem → Arguments
  | .moduleBytes _ args => args
  | .byHash _ _ args => args
  | .byName _ _ args => args
  | .versionedByHash _ _ _ args => args
  | .versionedByName _ _ _ args => args
  | .transfer args => args

def entryPoint : ExecutableItem → String
  | .moduleBytes _ _ => "call"
  | .byHash _ entryPoint _ => entryPoint
  | .byName _ entryPoint _ => entryPoint
  | .versionedByHash _ _ entryPoint _ => entryPoint
  | .versionedByName _ _ entryPoint _ => entryPoint
  | .transfer _ => "transfer"

def isTransfer : ExecutableItem → Bool
  | .transfer _ => true
  | _ => false

def isStandardPayment : ExecutableItem → Bool
  | .moduleBytes code _ => code.toList.isEmpty
  | _ => false

/-- The first argument of that name, if it is a wide number. -/
def paymentAmount? (item : ExecutableItem) : Option U512 := do
  let value ← item.args.get? "amount"
  value.toU512.toOption

/-! ## Binary form -/

instance : Wire ExecutableItem where
  write
    | .moduleBytes code args => do return 0 :: (← Wire.write (code, args))
    | .byHash hash entryPoint args => do return 1 :: (← Wire.write (hash, entryPoint, args))
    | .byName name entryPoint args => do return 2 :: (← Wire.write (name, entryPoint, args))
    | .versionedByHash hash version entryPoint args => do
      return 3 :: (← Wire.write (hash, version, entryPoint, args))
    | .versionedByName name version entryPoint args => do
      return 4 :: (← Wire.write (name, version, entryPoint, args))
    | .transfer args => do return 5 :: (← Wire.write args)
  read
    | [] => .error .earlyEnd
    | tag :: rest =>
      if tag = 0 then do
        let ((code, args), rest) ←
          (Wire.read rest : Except WireError ((Blob × Arguments) × Bytes))
        return (.moduleBytes code args, rest)
      else if tag = 1 then do
        let ((hash, entryPoint, args), rest) ←
          (Wire.read rest : Except WireError ((Digest × String × Arguments) × Bytes))
        return (.byHash hash entryPoint args, rest)
      else if tag = 2 then do
        let ((name, entryPoint, args), rest) ←
          (Wire.read rest : Except WireError ((String × String × Arguments) × Bytes))
        return (.byName name entryPoint args, rest)
      else if tag = 3 then do
        let ((hash, version, entryPoint, args), rest) ←
          (Wire.read rest :
            Except WireError ((Digest × Option UInt32 × String × Arguments) × Bytes))
        return (.versionedByHash hash version entryPoint args, rest)
      else if tag = 4 then do
        let ((name, version, entryPoint, args), rest) ←
          (Wire.read rest :
            Except WireError ((String × Option UInt32 × String × Arguments) × Bytes))
        return (.versionedByName name version entryPoint args, rest)
      else if tag = 5 then do
        let (args, rest) ← (Wire.read rest : Except WireError (Arguments × Bytes))
        return (.transfer args, rest)
      else .error (.unknownTag .executableItem tag)
  width
    | .moduleBytes code args => 1 + Wire.width (code, args)
    | .byHash hash entryPoint args => 1 + Wire.width (hash, entryPoint, args)
    | .byName name entryPoint args => 1 + Wire.width (name, entryPoint, args)
    | .versionedByHash hash version entryPoint args =>
      1 + Wire.width (hash, version, entryPoint, args)
    | .versionedByName name version entryPoint args =>
      1 + Wire.width (name, version, entryPoint, args)
    | .transfer args => 1 + Wire.width args

/-! ## JSON -/

/-- The names of the versioned alternatives; the second is an older spelling that is still
read. -/
def versionedByHashNames : String × String :=
  ("StoredVersionedContractByHash", "StoredVersionContractByHash")

def versionedByNameNames : String × String :=
  ("StoredVersionedContractByName", "StoredVersionContractByName")

def versionedFields (first : String) : Json.Shape :=
  ⟨[(first, .required), ("version", .nullable), ("entry_point", .required), ("args", .required)],
    true⟩

def ofFields? (source : Json.Source) (name : String) (content : Json) :
    Option ExecutableItem :=
  if name = "ModuleBytes" then
    match (Json.Shape.ofNames ["module_bytes", "args"]).readHeld? source content with
    | some [some code, some args] => do
      return .moduleBytes (← ofJson? source code) (← ofJson? source args)
    | _ => none
  else if name = "StoredContractByHash" then
    match (Json.Shape.ofNames ["hash", "entry_point", "args"]).readHeld? source content with
    | some [some hash, some entryPoint, some args] => do
      return .byHash (← ofJson? source hash) (← ofJson? source entryPoint)
        (← ofJson? source args)
    | _ => none
  else if name = "StoredContractByName" then
    match (Json.Shape.ofNames ["name", "entry_point", "args"]).readHeld? source content with
    | some [some contract, some entryPoint, some args] => do
      return .byName (← ofJson? source contract) (← ofJson? source entryPoint)
        (← ofJson? source args)
    | _ => none
  else if name = versionedByHashNames.1 ∨ name = versionedByHashNames.2 then
    match (versionedFields "hash").readHeld? source content with
    | some [some hash, version, some entryPoint, some args] => do
      return .versionedByHash (← ofJson? source hash) (← Json.ofField? source version)
        (← ofJson? source entryPoint) (← ofJson? source args)
    | _ => none
  else if name = versionedByNameNames.1 ∨ name = versionedByNameNames.2 then
    match (versionedFields "name").readHeld? source content with
    | some [some contract, version, some entryPoint, some args] => do
      return .versionedByName (← ofJson? source contract) (← Json.ofField? source version)
        (← ofJson? source entryPoint) (← ofJson? source args)
    | _ => none
  else if name = "Transfer" then
    match (Json.Shape.ofNames ["args"]).readHeld? source content with
    | some [some args] => do return .transfer (← ofJson? source args)
    | _ => none
  else none

instance : JsonForm ExecutableItem where
  toJson
    | .moduleBytes code args =>
      .tagged "ModuleBytes" (.obj [("module_bytes", toJson code), ("args", toJson args)])
    | .byHash hash entryPoint args =>
      .tagged "StoredContractByHash" (.obj
        [("hash", toJson hash), ("entry_point", toJson entryPoint), ("args", toJson args)])
    | .byName name entryPoint args =>
      .tagged "StoredContractByName" (.obj
        [("name", toJson name), ("entry_point", toJson entryPoint), ("args", toJson args)])
    | .versionedByHash hash version entryPoint args =>
      .tagged versionedByHashNames.1 (.obj
        [("hash", toJson hash), ("version", toJson version), ("entry_point", toJson entryPoint),
          ("args", toJson args)])
    | .versionedByName name version entryPoint args =>
      .tagged versionedByNameNames.1 (.obj
        [("name", toJson name), ("version", toJson version), ("entry_point", toJson entryPoint),
          ("args", toJson args)])
    | .transfer args => .tagged "Transfer" (.obj [("args", toJson args)])
  ofJson? source j :=
    match j.alternative? with
    | some (name, some content) => ofFields? source name content
    | _ => none

end ExecutableItem

end ChainClient
