import ChainClient.Address.AccountHash
import ChainClient.Wire.Envelope

/-!
# Initiators

A transaction is sent by an account, which is named by its public key or by its hash.
-/

namespace ChainClient

inductive Initiator where
  | publicKey (key : PublicKey)
  | accountHash (account : AccountHash)
  deriving DecidableEq, Repr

namespace Initiator

def account : Initiator → AccountHash
  | .publicKey key => key.accountHash
  | .accountHash account => account

def toEnvelope : Initiator → Except WireError Envelope
  | .publicKey key => do (← Envelope.ofTag 0).add 1 key
  | .accountHash account => do (← Envelope.ofTag 1).add 1 account

def ofEnvelope (e : Envelope) : Except WireError Initiator := do
  e.ensureMaxIndex 1
  let tag : UInt8 ← e.field 0
  if tag = 0 then return .publicKey (← e.field 1)
  else if tag = 1 then return .accountHash (← e.field 1)
  else throw (.unknownTag .initiator tag)

def lengths : Initiator → List Nat
  | .publicKey key => [1, Wire.width key]
  | .accountHash account => [1, Wire.width account]

instance : Wire Initiator := Wire.ofEnvelope toEnvelope ofEnvelope lengths

instance : JsonForm Initiator where
  toJson
    | .publicKey key => .tagged "PublicKey" (toJson key)
    | .accountHash account => .tagged "AccountHash" (toJson account)
  ofJson? source j :=
    match j.alternative? with
    | some ("PublicKey", some content) => (ofJson? source content).map .publicKey
    | some ("AccountHash", some content) => (ofJson? source content).map .accountHash
    | _ => none

end Initiator

end ChainClient
