import ChainClient.Crypto.Suite
import ChainClient.Wire.Container

/-!
# Approvals

Whoever authorizes a document signs the 32 bytes of its hash. An approval is the key of
the signer and the signature; a document collects any number of them, also several by one
signer. All of them have to verify, and the first that does not is reported.
-/

namespace ChainClient

structure Approval where
  signer : PublicKey
  signature : Signature
  deriving DecidableEq, Repr

namespace Approval

def create (suite : Suite) (hash : Digest) (pair : KeyPair) : Approval :=
  ⟨suite.publicKey pair, suite.sign pair hash.toList⟩

instance : Wire Approval :=
  Wire.via (fun a ↦ (a.signer, a.signature)) fun parts ↦ ⟨parts.1, parts.2⟩

def shape : Json.Shape := .ofNames ["signer", "signature"]

instance : JsonForm Approval where
  toJson a := .obj [("signer", toJson a.signer), ("signature", toJson a.signature)]
  ofJson? source j :=
    match shape.read? j with
    | some [some signer, some signature] => do
      return ⟨← ofJson? source signer, ← ofJson? source signature⟩
    | _ => none

/-- Whether signer and signature use the same algorithm. -/
def isSameAlgorithm (a : Approval) : Bool := a.signer.algorithm == a.signature.algorithm

def verify (suite : Suite) (hash : Digest) (a : Approval) : Except CryptoError Unit :=
  suite.verify a.signer hash.toList a.signature

end Approval

/-! ## Verification of documents -/

inductive VerificationError where
  | bodyHashMismatch (expected actual : Digest)
  | hashMismatch (expected actual : Digest)
  | noApprovals
  | invalidApproval (index : Nat) (signer : PublicKey) (error : CryptoError)
  /-- The document cannot be written, so it has no hash. -/
  | serialization (error : WireError)
  deriving DecidableEq, Repr

namespace VerificationError

def message : VerificationError → String
  | .bodyHashMismatch expected actual =>
    "body hash mismatch: header has " ++ expected.text ++ ", body hashes to " ++ actual.text
  | .hashMismatch expected actual =>
    "hash mismatch: stored " ++ expected.text ++ ", computed " ++ actual.text
  | .noApprovals => "no approvals"
  | .invalidApproval index signer error =>
    "approval " ++ toString index ++ " by " ++ signer.text ++ " is invalid: " ++ error.message
  | .serialization error => "serialization failed: " ++ error.message

end VerificationError

namespace Approval

/-- Checks approvals from the given index on. -/
def verifyFrom (suite : Suite) (hash : Digest) :
    Nat → List Approval → Except VerificationError Unit
  | _, [] => .ok ()
  | index, a :: approvals =>
    match a.verify suite hash with
    | .ok () => verifyFrom suite hash (index + 1) approvals
    | .error error => .error (.invalidApproval index a.signer error)

def verifyAll (suite : Suite) (hash : Digest) (approvals : List Approval) :
    Except VerificationError Unit :=
  if approvals.isEmpty then .error .noApprovals else verifyFrom suite hash 0 approvals

end Approval

end ChainClient
