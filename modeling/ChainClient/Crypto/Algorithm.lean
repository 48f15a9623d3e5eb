import ChainClient.Order.SortKey
import ChainClient.Text.Hex

/-!
# Signature algorithms

The two algorithms that the network knows, the tag bytes that announce them, and the
errors of keys and signatures.
-/

namespace ChainClient

inductive Algorithm where
  | ed25519
  | secp256k1
  deriving DecidableEq, Repr

namespace Algorithm

def tag : Algorithm → UInt8
  | .ed25519 => 1
  | .secp256k1 => 2

def ofTag? (tag : UInt8) : Option Algorithm :=
  if tag = 1 then some .ed25519 else if tag = 2 then some .secp256k1 else none

theorem ofTag?_tag (a : Algorithm) : ofTag? a.tag = some a := by cases a <;> rfl

/-- The name that enters the hash of an account. -/
def name : Algorithm → String
  | .ed25519 => "ed25519"
  | .secp256k1 => "secp256k1"

def display : Algorithm → String
  | .ed25519 => "Ed25519"
  | .secp256k1 => "Secp256k1"

def publicKeyLength : Algorithm → Nat
  | .ed25519 => 32
  | .secp256k1 => 33

instance : SortKey Algorithm where
  sortKey
    | .ed25519 => [0]
    | .secp256k1 => [1]

end Algorithm

inductive CryptoError where
  | invalidSecretKey (algorithm : Algorithm)
  | invalidPublicKey (algorithm : Algorithm)
  | invalidSignature (algorithm : Algorithm)
  | unknownAlgorithmTag (tag : UInt8)
  | algorithmMismatch (key signature : Algorithm)
  | verificationFailed
  | hex (error : HexError)
  /-- Not even a tag. -/
  | empty
  deriving DecidableEq, Repr

namespace CryptoError

def message : CryptoError → String
  | .invalidSecretKey algorithm => "invalid " ++ algorithm.display ++ " secret key"
  | .invalidPublicKey algorithm => "invalid " ++ algorithm.display ++ " public key"
  | .invalidSignature algorithm => "invalid " ++ algorithm.display ++ " signature bytes"
  | .unknownAlgorithmTag tag => "unknown algorithm tag: " ++ toString tag.toNat
  | .algorithmMismatch key signature =>
    "algorithm mismatch: key is " ++ key.display ++ ", signature is " ++ signature.display
  | .verificationFailed => "signature verification failed"
  | .hex error => "invalid hex: " ++ error.message
  | .empty => "empty key or signature encoding"

end CryptoError

namespace Algorithm

def ofTag (tag : UInt8) : Except CryptoError Algorithm :=
  match ofTag? tag with
  | some a => .ok a
  | none => .error (.unknownAlgorithmTag tag)

end Algorithm

end ChainClient
