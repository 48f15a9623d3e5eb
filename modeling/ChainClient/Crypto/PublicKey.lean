import ChainClient.Crypto.Algorithm
import ChainClient.Crypto.Ed25519
import ChainClient.Crypto.Secp256k1
import ChainClient.Json.Form
import ChainClient.Order.SortKey

/-!
# Public keys

A public key is the tag of its algorithm and the raw bytes of a point. Every reader,
from raw bytes, tagged bytes, hexadecimal text, the binary form or JSON, accepts a key
only if its bytes pass the same test; the readers that take the test as an argument
show that nothing else depends on it.
-/

namespace ChainClient

inductive PublicKey where
  | ed25519 (raw : Octets 32)
  | secp256k1 (raw : Octets 33)
  deriving DecidableEq, Repr

namespace PublicKey

/-- Which raw bytes are keys of an algorithm. -/
abbrev Validity := Algorithm → Bytes → Bool

def onCurve : Validity
  | .ed25519, raw => Crypto.Ed25519.isKey raw
  | .secp256k1, raw => Crypto.Secp256k1.isKey raw

def algorithm : PublicKey → Algorithm
  | .ed25519 _ => .ed25519
  | .secp256k1 _ => .secp256k1

def raw : PublicKey → Bytes
  | .ed25519 raw => raw.toList
  | .secp256k1 raw => raw.toList

/-- Bytes of the right length, whatever they hold. -/
def ofLength? : Algorithm → Bytes → Option PublicKey
  | .ed25519, raw => (Octets.ofList? 32 raw).map .ed25519
  | .secp256k1, raw => (Octets.ofList? 33 raw).map .secp256k1

def isValid (valid : Validity) (key : PublicKey) : Bool := valid key.algorithm key.raw

/-! ## Readers -/

def ofRawWith (valid : Validity) (algorithm : Algorithm) (raw : Bytes) :
    Except CryptoError PublicKey :=
  match ofLength? algorithm raw with
  | some key => if valid algorithm raw then .ok key else .error (.invalidPublicKey algorithm)
  | none => .error (.invalidPublicKey algorithm)

def ofTaggedWith (valid : Validity) : Bytes → Except CryptoError PublicKey
  | [] => .error .empty
  | tag :: raw => do ofRawWith valid (← Algorithm.ofTag tag) raw

def ofTextWith (valid : Validity) (s : String) : Except CryptoError PublicKey := do
  let bytes ← (Text.Hex.decode s.toList).mapError .hex
  ofTaggedWith valid bytes

def readWith (valid : Validity) : Bytes → Except WireError (PublicKey × Bytes)
  | [] => .error .earlyEnd
  | tag :: rest =>
    match Algorithm.ofTag? tag with
    | none => .error (.unknownTag .publicKey tag)
    | some algorithm => do
      let (raw, rest) ← Wire.split algorithm.publicKeyLength rest
      match ofRawWith valid algorithm raw with
      | .ok key => .ok (key, rest)
      | .error _ => .error (.malformed .badPublicKeyPoint)

def ofRaw : Algorithm → Bytes → Except CryptoError PublicKey := ofRawWith onCurve

def ofTagged : Bytes → Except CryptoError PublicKey := ofTaggedWith onCurve

def ofText : String → Except CryptoError PublicKey := ofTextWith onCurve

/-! ## Forms -/

def tagged (key : PublicKey) : Bytes := key.algorithm.tag :: key.raw

def text (key : PublicKey) : String := Text.Hex.text key.tagged

instance : Wire PublicKey where
  write key := .ok key.tagged
  read := readWith onCurve
  width key := 1 + key.algorithm.publicKeyLength

instance : JsonForm PublicKey := .ofText text fun s ↦ (ofText s).toOption

instance : SortKey PublicKey where
  sortKey key := sortKey key.algorithm ++ SortKey.ofBytes key.raw

/-- How logs show a key. -/
def describe (key : PublicKey) : String :=
  "PublicKey::" ++ key.algorithm.display ++ "(" ++ Text.Hex.text key.raw ++ ")"

end PublicKey

end ChainClient
