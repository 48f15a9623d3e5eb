import ChainClient.Crypto.Digest
import ChainClient.Crypto.KeyPair

/-!
# The primitives behind documents

Documents are hashed, signed and checked through a suite, so that what holds of them
can be said for any hash function and any signature scheme. The network uses one suite.
-/

namespace ChainClient

structure Suite where
  hash : Bytes → Digest
  publicKey : KeyPair → PublicKey
  sign : KeyPair → Bytes → Signature
  /-- For a key and a signature of the same algorithm. -/
  check : PublicKey → Bytes → Signature → Except CryptoError Unit

namespace Suite

/-- A signature of another algorithm than that of the key is never looked into. -/
def verify (suite : Suite) (key : PublicKey) (message : Bytes) (signature : Signature) :
    Except CryptoError Unit :=
  if key.algorithm = signature.algorithm then suite.check key message signature
  else .error (.algorithmMismatch key.algorithm signature.algorithm)

def checkOnCurve (key : PublicKey) (message : Bytes) (signature : Signature) :
    Except CryptoError Unit :=
  let raw := signature.raw.toList
  if !key.isValid PublicKey.onCurve then .error (.invalidPublicKey key.algorithm)
  else
    match key with
    | .ed25519 point =>
      if Crypto.Ed25519.check point.toList message raw then .ok ()
      else .error .verificationFailed
    | .secp256k1 point =>
      if !Crypto.Secp256k1.isSignature raw then .error (.invalidSignature .secp256k1)
      else if Crypto.Secp256k1.check point.toList message raw then .ok ()
      else .error .verificationFailed

def network : Suite where
  hash := Digest.blake2b
  publicKey := KeyPair.publicKey
  sign := KeyPair.sign
  check := checkOnCurve

end Suite

end ChainClient
