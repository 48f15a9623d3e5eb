import ChainClient.Crypto.Digest
import ChainClient.Limits
import ChainClient.Wire.Envelope

/-!
# Pricing modes

How a transaction pays: up to an amount, at the fixed price of its kind, or with a receipt
of an earlier payment.
-/

namespace ChainClient

inductive PricingMode where
  | paymentLimited (amount : UInt64) (gasPriceTolerance : UInt8) (standardPayment : Bool)
  | fixed (additionalComputationFactor gasPriceTolerance : UInt8)
  | prepaid (receipt : Digest)
  deriving DecidableEq, Repr

namespace PricingMode

/-- Suits most calls. -/
def defaultFixed : PricingMode := .fixed 0 Limits.defaultGasPriceTolerance

def toEnvelope : PricingMode → Except WireError Envelope
  | .paymentLimited amount tolerance standard => do
    let e ← Envelope.ofTag 0
    let e ← e.add 1 amount
    let e ← e.add 2 tolerance
    e.add 3 standard
  | .fixed factor tolerance => do
    let e ← Envelope.ofTag 1
    let e ← e.add 1 factor
    e.add 2 tolerance
  | .prepaid receipt => do (← Envelope.ofTag 2).add 1 receipt

def ofEnvelope (e : Envelope) : Except WireError PricingMode := do
  let tag : UInt8 ← e.field 0
  if tag = 0 then
    e.ensureMaxIndex 3
    return .paymentLimited (← e.field 1) (← e.field 2) (← e.field 3)
  else if tag = 1 then
    e.ensureMaxIndex 2
    return .fixed (← e.field 1) (← e.field 2)
  else if tag = 2 then
    e.ensureMaxIndex 1
    return .prepaid (← e.field 1)
  else throw (.unknownTag .pricingMode tag)

def lengths : PricingMode → List Nat
  | .paymentLimited amount tolerance standard =>
    [1, Wire.width amount, Wire.width tolerance, Wire.width standard]
  | .fixed factor tolerance => [1, Wire.width factor, Wire.width tolerance]
  | .prepaid receipt => [1, Wire.width receipt]

instance : Wire PricingMode := Wire.ofEnvelope toEnvelope ofEnvelope lengths

def limitedShape : Json.Shape :=
  .ofNames ["payment_amount", "gas_price_tolerance", "standard_payment"]

def fixedShape : Json.Shape := .ofNames ["additional_computation_factor", "gas_price_tolerance"]

def prepaidShape : Json.Shape := .ofNames ["receipt"]

instance : JsonForm PricingMode where
  toJson
    | .paymentLimited amount tolerance standard =>
      .tagged "PaymentLimited" (.obj
        [("payment_amount", toJson amount), ("gas_price_tolerance", toJson tolerance),
          ("standard_payment", toJson standard)])
    | .fixed factor tolerance =>
      .tagged "Fixed" (.obj
        [("additional_computation_factor", toJson factor),
          ("gas_price_tolerance", toJson tolerance)])
    | .prepaid receipt => .tagged "Prepaid" (.obj [("receipt", toJson receipt)])
  ofJson? source j :=
    match j.alternative? with
    | some ("PaymentLimited", some content) =>
      match limitedShape.readHeld? source content with
      | some [some amount, some tolerance, some standard] => do
        return .paymentLimited (← ofJson? source amount) (← ofJson? source tolerance)
          (← ofJson? source standard)
      | _ => none
    | some ("Fixed", some content) =>
      match fixedShape.readHeld? source content with
      | some [some factor, some tolerance] => do
        return .fixed (← ofJson? source factor) (← ofJson? source tolerance)
      | _ => none
    | some ("Prepaid", some content) =>
      match prepaidShape.readHeld? source content with
      | some [some receipt] => (ofJson? source receipt).map .prepaid
      | _ => none
    | _ => none

end PricingMode

end ChainClient
