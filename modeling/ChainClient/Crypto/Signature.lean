import ChainClient.Crypto.Algorithm
import ChainClient.Json.Form
import ChainClient.Wire.Basic

/-!
# Signatures

A signature is the tag of its algorithm and 64 raw bytes. Reading one does not look
into the bytes: whether they verify is decided later, against a key and a message.
-/

namespace ChainClient

structure Signature where
  algorithm : Algorithm
  raw : Octets 64
  deriving DecidableEq, Repr

namespace Signature

def ofRaw (algorithm : Algorithm) (raw : Bytes) : Except CryptoError Signature :=
  match Octets.ofList? 64 raw with
  | some octets => .ok ⟨algorithm, octets⟩
  | none => .error (.invalidSignature algorithm)

def ofTagged : Bytes → Except CryptoError Signature
  | [] => .error .empty
  | tag :: raw => do ofRaw (← Algorithm.ofTag tag) raw

def ofText (s : String) : Except CryptoError Signature := do
  let bytes ← (Text.Hex.decode s.toList).mapError .hex
  ofTagged bytes

def tagged (signature : Signature) : Bytes := signature.algorithm.tag :: signature.raw.toList

def text (signature : Signature) : String := Text.Hex.text signature.tagged

instance : Wire Signature where
  write signature := .ok signature.tagged
  read
    | [] => .error .earlyEnd
    | tag :: rest =>
      match Algorithm.ofTag? tag with
      | none => .error (.unknownTag .signature tag)
      | some algorithm => do
        let (raw, rest) ← (Wire.read rest : Except WireError (Octets 64 × Bytes))
        return (⟨algorithm, raw⟩, rest)
  width _ := 65

instance : JsonForm Signature := .ofText text fun s ↦ (ofText s).toOption

instance : SortKey Signature where
  sortKey signature := sortKey signature.algorithm ++ SortKey.ofBytes signature.raw.toList

/-- How logs show a signature: its first and its last four bytes. -/
def describe (signature : Signature) : String :=
  let raw := signature.raw.toList
  "Signature::" ++ signature.algorithm.display ++ "(" ++ Text.Hex.text (raw.take 4) ++ "..." ++
    Text.Hex.text (raw.drop 60) ++ ")"

end Signature

end ChainClient
