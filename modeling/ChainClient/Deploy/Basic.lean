import ChainClient.Approval
import ChainClient.Deploy.Header
import ChainClient.Deploy.Item
import ChainClient.Limits

/-!
# Deploys

A deploy is a header, the item that pays, the item that works, and approvals. The body
hash in the header covers both items, one after the other, and the hash of the deploy
covers the header, so that together they cover everything but the approvals. Sealing a
deploy checks the rules of the network and computes both hashes; a deploy that is read
keeps the hashes it came with until it is verified.
-/

namespace ChainClient

structure Deploy where
  hash : DeployHash
  header : DeployHeader
  payment : ExecutableItem
  session : ExecutableItem
  approvals : List Approval
  deriving DecidableEq, Repr

inductive DeployError where
  | emptyChainName
  | chainNameTooLong (length : Nat)
  | missingPaymentAmount
  | zeroPaymentAmount
  | ttlTooLong (ttl : Duration)
  | tooManyDependencies (count : Nat)
  | serialization (error : WireError)
  deriving DecidableEq, Repr

namespace DeployError

def message : DeployError → String
  | .emptyChainName => "chain name must not be empty"
  | .chainNameTooLong length =>
    "chain name is " ++ toString length ++ " bytes, max is " ++ toString Limits.maxChainName
  | .missingPaymentAmount => "standard payment requires a U512 \x60amount\x60 argument"
  | .zeroPaymentAmount => "standard payment amount must be > 0"
  | .ttlTooLong ttl =>
    "ttl " ++ ttl.text ++ " exceeds the maximum of " ++ (Duration.mk Limits.maxTtl).text
  | .tooManyDependencies count =>
    toString count ++ " dependencies exceed the maximum of " ++ toString Limits.maxDependencies
  | .serialization error => "serialization failed: " ++ error.message

end DeployError

namespace Deploy

/-! ## Hashes -/

/-- The bytes that the body hash covers. -/
def bodyBytes (payment session : ExecutableItem) : Except WireError Bytes := do
  let front ← Wire.write payment
  return front ++ (← Wire.write session)

def bodyHash (suite : Suite) (payment session : ExecutableItem) : Except WireError Digest := do
  return suite.hash (← bodyBytes payment session)

def headerHash (suite : Suite) (header : DeployHeader) : Except WireError Digest := do
  return suite.hash (← Wire.write header)

/-! ## Sealing -/

/-- The rules, in the order in which they are checked. -/
def checkRules (ttl : Duration) (dependencies : List DeployHash) (chainName : String)
    (payment : ExecutableItem) : Except DeployError Unit :=
  if chainName.utf8ByteSize = 0 then .error .emptyChainName
  else if Limits.maxChainName < chainName.utf8ByteSize then
    .error (.chainNameTooLong chainName.utf8ByteSize)
  else if Limits.maxTtl < ttl.millis then .error (.ttlTooLong ttl)
  else if Limits.maxDependencies < dependencies.length then
    .error (.tooManyDependencies dependencies.length)
  else if payment.isStandardPayment then
    match payment.paymentAmount? with
    | none => .error .missingPaymentAmount
    | some amount => if amount.toNat = 0 then .error .zeroPaymentAmount else .ok ()
  else .ok ()

/-- An unsigned deploy with both hashes. -/
def sealed (suite : Suite) (account : PublicKey) (timestamp : Timestamp) (ttl : Duration)
    (gasPrice : UInt64) (dependencies : List DeployHash) (chainName : String)
    (payment session : ExecutableItem) : Except DeployError Deploy := do
  checkRules ttl dependencies chainName payment
  let bodyHash ← (bodyHash suite payment session).mapError .serialization
  let header : DeployHeader :=
    ⟨account, timestamp, ttl, gasPrice, bodyHash, dependencies, chainName⟩
  let hash ← (headerHash suite header).mapError .serialization
  return ⟨⟨hash⟩, header, payment, session, []⟩

/-! ## Signing and verification -/

def sign (suite : Suite) (d : Deploy) (pair : KeyPair) : Deploy :=
  { d with approvals := d.approvals ++ [Approval.create suite d.hash.digest pair] }

/-- Both hashes are computed anew before any approval is looked at. -/
def verify (suite : Suite) (d : Deploy) : Except VerificationError Unit := do
  let body ← (bodyHash suite d.payment d.session).mapError .serialization
  if body ≠ d.header.bodyHash then
    throw (.bodyHashMismatch d.header.bodyHash body)
  let hash ← (headerHash suite d.header).mapError .serialization
  if hash ≠ d.hash.digest then
    throw (.hashMismatch d.hash.digest hash)
  Approval.verifyAll suite hash d.approvals

def isTransfer (d : Deploy) : Bool := d.session.isTransfer

def isExpired (d : Deploy) (now : Timestamp) : Bool := d.header.isExpired now

/-! ## Forms -/

abbrev Parts :=
  DeployHeader × DeployHash × ExecutableItem × ExecutableItem × List Approval

def parts (d : Deploy) : Parts := (d.header, d.hash, d.payment, d.session, d.approvals)

def ofParts : Parts → Deploy
  | (header, hash, payment, session, approvals) => ⟨hash, header, payment, session, approvals⟩

instance : Wire Deploy := Wire.via parts ofParts

def shape : Json.Shape := .ofNames ["hash", "header", "payment", "session", "approvals"]

instance : JsonForm Deploy where
  toJson d :=
    .obj [("hash", toJson d.hash), ("header", toJson d.header), ("payment", toJson d.payment),
      ("session", toJson d.session), ("approvals", toJson d.approvals)]
  ofJson? source j :=
    match shape.read? j with
    | some [some hash, some header, some payment, some session, some approvals] => do
      return ⟨← ofJson? source hash, ← ofJson? source header, ← ofJson? source payment,
        ← ofJson? source session, ← ofJson? source approvals⟩
    | _ => none

end Deploy

end ChainClient
