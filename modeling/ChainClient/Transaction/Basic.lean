import ChainClient.Approval
import ChainClient.Time.Timestamp
import ChainClient.Transaction.Fields
import ChainClient.Transaction.Initiator
import ChainClient.Transaction.PricingMode

/-!
# Transactions

A transaction is a payload, its hash and approvals. The hash covers the whole payload.
Sealing a payload checks the rules of the network, the last of which is that the target
can run the entry point; a transaction that is read keeps the hash it came with until it
is verified.
-/

namespace ChainClient

structure Payload where
  initiator : Initiator
  timestamp : Timestamp
  ttl : Duration
  chainName : String
  pricingMode : PricingMode
  fields : TransactionFields
  deriving DecidableEq, Repr

namespace Payload

/-- The last moment at which the transaction is accepted. -/
def expires (p : Payload) : Timestamp := p.timestamp.add p.ttl

def toEnvelope (p : Payload) : Except WireError Envelope := do
  let e ← Envelope.empty.add 0 p.initiator
  let e ← e.add 1 p.timestamp
  let e ← e.add 2 p.ttl
  let e ← e.add 3 p.chainName
  let e ← e.add 4 p.pricingMode
  e.add 5 p.fields

def ofEnvelope (e : Envelope) : Except WireError Payload := do
  e.ensureMaxIndex 5
  return ⟨← e.field 0, ← e.field 1, ← e.field 2, ← e.field 3, ← e.field 4, ← e.field 5⟩

def lengths (p : Payload) : List Nat :=
  [Wire.width p.initiator, Wire.width p.timestamp, Wire.width p.ttl, Wire.width p.chainName,
    Wire.width p.pricingMode, Wire.width p.fields]

instance : Wire Payload := Wire.ofEnvelope toEnvelope ofEnvelope lengths

def shape : Json.Shape :=
  .ofNames ["initiator_addr", "timestamp", "ttl", "chain_name", "pricing_mode", "fields"]

instance : JsonForm Payload where
  toJson p :=
    .obj [("initiator_addr", toJson p.initiator), ("timestamp", toJson p.timestamp),
      ("ttl", toJson p.ttl), ("chain_name", toJson p.chainName),
      ("pricing_mode", toJson p.pricingMode), ("fields", toJson p.fields)]
  ofJson? source j :=
    match shape.read? j with
    | some [some initiator, some timestamp, some ttl, some chainName, some pricingMode,
        some fields] => do
      return ⟨← ofJson? source initiator, ← ofJson? source timestamp, ← ofJson? source ttl,
        ← ofJson? source chainName, ← ofJson? source pricingMode, ← ofJson? source fields⟩
    | _ => none

end Payload

inductive TransactionError where
  | emptyChainName
  | chainNameTooLong (length : Nat)
  | ttlTooLong (ttl : Duration)
  | entryPointMismatch (entryPoint : EntryPoint) (target : Target)
  | zeroPaymentAmount
  | serialization (error : WireError)
  deriving DecidableEq, Repr

namespace TransactionError

def message : TransactionError → String
  | .emptyChainName => "chain name must not be empty"
  | .chainNameTooLong length =>
    "chain name is " ++ toString length ++ " bytes, max is " ++ toString Limits.maxChainName
  | .ttlTooLong ttl =>
    "ttl " ++ ttl.text ++ " exceeds the maximum of " ++ (Duration.mk Limits.maxTtl).text
  | .entryPointMismatch entryPoint target =>
    "entry point " ++ entryPoint.display ++ " cannot run against a " ++ target.kind ++ " target"
  | .zeroPaymentAmount => "payment amount must be > 0"
  | .serialization error => "serialization failed: " ++ error.message

end TransactionError

namespace Target

/-- A native target runs the operations of the system, stored code a function that is
named, and a module its start. -/
def canRun : Target → EntryPoint → Bool
  | .native, .system _ => true
  | .stored _ _, .custom _ => true
  | .session _ _ _, .call => true
  | _, _ => false

end Target

namespace PricingMode

/-- Pays up to nothing at all. -/
def paysNothing : PricingMode → Bool
  | .paymentLimited amount _ _ => amount == 0
  | _ => false

end PricingMode

namespace Payload

/-- The rules, in the order in which they are checked. -/
def checkRules (p : Payload) : Except TransactionError Unit :=
  if p.chainName.utf8ByteSize = 0 then .error .emptyChainName
  else if Limits.maxChainName < p.chainName.utf8ByteSize then
    .error (.chainNameTooLong p.chainName.utf8ByteSize)
  else if Limits.maxTtl < p.ttl.millis then .error (.ttlTooLong p.ttl)
  else if p.pricingMode.paysNothing then .error .zeroPaymentAmount
  else if p.fields.target.canRun p.fields.entryPoint then .ok ()
  else .error (.entryPointMismatch p.fields.entryPoint p.fields.target)

def hash (suite : Suite) (p : Payload) : Except WireError Digest := do
  return suite.hash (← Wire.write p)

end Payload

structure Transaction where
  hash : TransactionHash
  payload : Payload
  approvals : List Approval
  deriving DecidableEq, Repr

namespace Transaction

/-- An unsigned transaction under its hash. -/
def sealed (suite : Suite) (payload : Payload) : Except TransactionError Transaction := do
  payload.checkRules
  let hash ← (payload.hash suite).mapError .serialization
  return ⟨⟨hash⟩, payload, []⟩

def sign (suite : Suite) (t : Transaction) (pair : KeyPair) : Transaction :=
  { t with approvals := t.approvals ++ [Approval.create suite t.hash.digest pair] }

/-- The hash is computed anew before any approval is looked at. -/
def verify (suite : Suite) (t : Transaction) : Except VerificationError Unit := do
  let hash ← (t.payload.hash suite).mapError .serialization
  if hash ≠ t.hash.digest then
    throw (.hashMismatch t.hash.digest hash)
  Approval.verifyAll suite hash t.approvals

def isExpired (t : Transaction) (now : Timestamp) : Bool :=
  t.payload.expires.millis < now.millis

def toEnvelope (t : Transaction) : Except WireError Envelope := do
  let e ← Envelope.empty.add 0 t.hash
  let e ← e.add 1 t.payload
  e.add 2 t.approvals

def ofEnvelope (e : Envelope) : Except WireError Transaction := do
  e.ensureMaxIndex 2
  return ⟨← e.field 0, ← e.field 1, ← e.field 2⟩

def lengths (t : Transaction) : List Nat :=
  [Wire.width t.hash, Wire.width t.payload, Wire.width t.approvals]

instance : Wire Transaction := Wire.ofEnvelope toEnvelope ofEnvelope lengths

def shape : Json.Shape := .ofNames ["hash", "payload", "approvals"]

instance : JsonForm Transaction where
  toJson t :=
    .obj [("hash", toJson t.hash), ("payload", toJson t.payload),
      ("approvals", toJson t.approvals)]
  ofJson? source j :=
    match shape.read? j with
    | some [some hash, some payload, some approvals] => do
      return ⟨← ofJson? source hash, ← ofJson? source payload, ← ofJson? source approvals⟩
    | _ => none

end Transaction

end ChainClient
