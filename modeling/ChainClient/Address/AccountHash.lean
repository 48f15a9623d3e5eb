import ChainClient.Address.Error
import ChainClient.Crypto.Blake2b
import ChainClient.Crypto.PublicKey
import ChainClient.Text.Label

/-!
# Account hashes

An account is named by 32 bytes, the digest of its public key behind the name of the
algorithm. The text form is the label `account-hash-` and 64 hexadecimal digits.
-/

namespace ChainClient

namespace Address

/-- The 32 bytes of an address. The digits are read before their number is counted. -/
def ofHex (cs : List Char) : Except AddressError (Octets 32) := do
  let bytes ← (Text.Hex.decode cs).mapError .hex
  match Octets.ofList? 32 bytes with
  | some octets => .ok octets
  | none => .error (.length bytes.length)

end Address

structure AccountHash where
  bytes : Octets 32
  deriving DecidableEq, Repr

namespace AccountHash

def label : List Char := ['a', 'c', 'c', 'o', 'u', 'n', 't', '-', 'h', 'a', 's', 'h', '-']

def chars (account : AccountHash) : List Char := label ++ Text.Hex.encode account.bytes.toList

def text (account : AccountHash) : String := String.ofList account.chars

def ofChars (cs : List Char) : Except AddressError AccountHash :=
  match Text.stripLabel? label cs with
  | some digits => do return ⟨← Address.ofHex digits⟩
  | none => .error (.unknownLabel (String.ofList cs))

def ofText (s : String) : Except AddressError AccountHash := ofChars s.toList

/-- How logs show an account. -/
def describe (account : AccountHash) : String :=
  "AccountHash(" ++ Text.Hex.text account.bytes.toList ++ ")"

instance : Wire AccountHash := Wire.via bytes mk

instance : JsonForm AccountHash := .ofText text fun s ↦ (ofText s).toOption

instance : SortKey AccountHash where
  sortKey account := SortKey.ofBytes account.bytes.toList

end AccountHash

def PublicKey.accountHash (key : PublicKey) : AccountHash :=
  ⟨Crypto.Blake2b.hash (Wire.utf8 key.algorithm.name ++ 0 :: key.raw)⟩

end ChainClient
