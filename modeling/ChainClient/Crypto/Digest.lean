import ChainClient.Crypto.Blake2b
import ChainClient.Json.Form
import ChainClient.Order.SortKey
import ChainClient.Text.Hex

/-!
# Digests

A digest is 32 bytes, written as 64 hexadecimal digits. The hashes that name deploys
and transactions are digests of their own kind.
-/

namespace ChainClient

structure Digest where
  bytes : Octets 32
  deriving DecidableEq, Repr

namespace Digest

def toList (d : Digest) : Bytes := d.bytes.toList

def blake2b (message : Bytes) : Digest := ⟨Crypto.Blake2b.hash message⟩

def text (d : Digest) : String := Text.Hex.text d.toList

def ofText (s : String) : Except HexError Digest := do
  let bytes ← Text.Hex.decodeExactly 32 s.toList
  match Octets.ofList? 32 bytes with
  | some octets => .ok ⟨octets⟩
  | none => .error .invalidStringLength

/-- How logs show a digest. -/
def describe (d : Digest) : String := "Digest(" ++ d.text ++ ")"

instance : Wire Digest := Wire.via Digest.bytes Digest.mk

instance : JsonForm Digest := .ofText text fun s ↦ (ofText s).toOption

instance : SortKey Digest where
  sortKey d := SortKey.ofBytes d.toList

end Digest

/-- Names a deploy: the digest of its header. -/
structure DeployHash where
  digest : Digest
  deriving DecidableEq, Repr

namespace DeployHash

/-- How logs show the hash of a deploy. -/
def describe (h : DeployHash) : String := "DeployHash(" ++ h.digest.text ++ ")"

instance : Wire DeployHash := Wire.via digest mk

instance : JsonForm DeployHash := .ofText (·.digest.text) fun s ↦ (Digest.ofText s).toOption.map mk

end DeployHash

/-- Names a transaction: the digest of its payload. -/
structure TransactionHash where
  digest : Digest
  deriving DecidableEq, Repr

namespace TransactionHash

/-- How logs show the hash of a transaction. -/
def describe (h : TransactionHash) : String := "TransactionV1Hash(" ++ h.digest.text ++ ")"

instance : Wire TransactionHash := Wire.via digest mk

instance : JsonForm TransactionHash :=
  .ofText (·.digest.text) fun s ↦ (Digest.ofText s).toOption.map mk

end TransactionHash

end ChainClient
