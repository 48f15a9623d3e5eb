import ChainClient.Crypto.PublicKey
import ChainClient.Crypto.Signature
import ChainClient.Text.Blank

/-!
# Key pairs

A key pair is an algorithm and 32 secret bytes; its public key follows from them.
For Ed25519 every 32 bytes are a secret. For secp256k1 a secret is a number of the
scalar range, and it may be given in as few as 24 bytes.
-/

namespace ChainClient

structure KeyPair where
  algorithm : Algorithm
  secret : Octets 32
  deriving DecidableEq, Repr

namespace KeyPair

def ofSecret (algorithm : Algorithm) (bytes : Bytes) : Except CryptoError KeyPair :=
  match algorithm with
  | .ed25519 =>
    match Octets.ofList? 32 bytes with
    | some secret => .ok ⟨algorithm, secret⟩
    | none => .error (.invalidSecretKey algorithm)
  | .secp256k1 =>
    match Crypto.Secp256k1.secretOf? bytes with
    | some n => .ok ⟨algorithm, .fit 32 (Crypto.beBytes 32 n)⟩
    | none => .error (.invalidSecretKey algorithm)

/-- White space around the digits is ignored. -/
def ofText (algorithm : Algorithm) (s : String) : Except CryptoError KeyPair := do
  let bytes ← (Text.Hex.decode (Text.trim s.toList)).mapError .hex
  ofSecret algorithm bytes

def publicKey (pair : KeyPair) : PublicKey :=
  match pair.algorithm with
  | .ed25519 => .ed25519 (.fit 32 (Crypto.Ed25519.publicKey pair.secret.toList))
  | .secp256k1 => .secp256k1 (.fit 33 (Crypto.Secp256k1.publicKey pair.secret.toList))

def sign (pair : KeyPair) (message : Bytes) : Signature :=
  match pair.algorithm with
  | .ed25519 => ⟨.ed25519, .fit 64 (Crypto.Ed25519.sign pair.secret.toList message)⟩
  | .secp256k1 => ⟨.secp256k1, .fit 64 (Crypto.Secp256k1.sign pair.secret.toList message)⟩

/-- How logs show a key pair; the secret is left out. -/
def describe (pair : KeyPair) : String := "KeyPair(pub=" ++ pair.publicKey.text ++ ")"

end KeyPair

end ChainClient
