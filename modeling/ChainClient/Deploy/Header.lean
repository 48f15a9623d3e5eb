import ChainClient.Crypto.Digest
import ChainClient.Crypto.PublicKey
import ChainClient.Time.Timestamp
import ChainClient.Wire.Container

/-!
# Headers of deploys

The header holds everything that a deploy commits to beside its code, and the hash that
ties it to the code.
-/

namespace ChainClient

structure DeployHeader where
  account : PublicKey
  timestamp : Timestamp
  ttl : Duration
  gasPrice : UInt64
  bodyHash : Digest
  /-- Deploys that have to run before this one. -/
  dependencies : List DeployHash
  chainName : String
  deriving DecidableEq, Repr

namespace DeployHeader

/-- The last moment at which the deploy is accepted. -/
def expires (h : DeployHeader) : Timestamp := h.timestamp.add h.ttl

def isExpired (h : DeployHeader) (now : Timestamp) : Bool := h.expires.millis < now.millis

abbrev Parts :=
  PublicKey × Timestamp × Duration × UInt64 × Digest × List DeployHash × String

def parts (h : DeployHeader) : Parts :=
  (h.account, h.timestamp, h.ttl, h.gasPrice, h.bodyHash, h.dependencies, h.chainName)

def ofParts : Parts → DeployHeader
  | (account, timestamp, ttl, gasPrice, bodyHash, dependencies, chainName) =>
    ⟨account, timestamp, ttl, gasPrice, bodyHash, dependencies, chainName⟩

instance : Wire DeployHeader := Wire.via parts ofParts

def shape : Json.Shape :=
  .ofNames ["account", "timestamp", "ttl", "gas_price", "body_hash", "dependencies", "chain_name"]

instance : JsonForm DeployHeader where
  toJson h :=
    .obj [("account", toJson h.account), ("timestamp", toJson h.timestamp), ("ttl", toJson h.ttl),
      ("gas_price", toJson h.gasPrice), ("body_hash", toJson h.bodyHash),
      ("dependencies", toJson h.dependencies), ("chain_name", toJson h.chainName)]
  ofJson? source j :=
    match shape.read? j with
    | some [some account, some timestamp, some ttl, some gasPrice, some bodyHash,
        some dependencies, some chainName] => do
      return ⟨← ofJson? source account, ← ofJson? source timestamp, ← ofJson? source ttl,
        ← ofJson? source gasPrice, ← ofJson? source bodyHash, ← ofJson? source dependencies,
        ← ofJson? source chainName⟩
    | _ => none

end DeployHeader

end ChainClient
