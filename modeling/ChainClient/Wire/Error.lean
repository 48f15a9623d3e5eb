/-!
# Errors of the binary format

An error names its cause. The wording lives in the `message` functions and nowhere
else.
-/

namespace ChainClient

/-- What is wrong with bytes that have the right length. -/
inductive Malformation where
  | tooManyZeroWidthElements
  | badBool
  | badUtf8
  | duplicateMapKey
  /-- The size is that of the number type, in bytes. -/
  | magnitudeTooLong (size : Nat)
  | magnitudeNotMinimal (size : Nat)
  | indicesMustIncrease
  | fieldsOutOfOrder
  | firstOffsetNotZero
  | offsetPastEnd
  | bodyWithoutFields
  | missingEnvelopeField
  | unexpectedEnvelopeField
  | badAccessRights
  | badPublicKeyPoint
  | missingTransactionField
  | unexpectedTransactionField
  deriving DecidableEq, Repr

namespace Malformation

def message : Malformation → String
  | .tooManyZeroWidthElements => "too many zero-width elements"
  | .badBool => "bool must be 0 or 1"
  | .badUtf8 => "invalid UTF-8"
  | .duplicateMapKey => "duplicate map key"
  | .magnitudeTooLong size => "U" ++ toString (8 * size) ++ " length prefix exceeds width"
  | .magnitudeNotMinimal size => "U" ++ toString (8 * size) ++ " has a non-canonical trailing zero"
  | .indicesMustIncrease => "call-table indices must increase"
  | .fieldsOutOfOrder => "call-table fields out of order"
  | .firstOffsetNotZero => "first call-table offset must be zero"
  | .offsetPastEnd => "call-table offset past end of body"
  | .bodyWithoutFields => "call-table body without fields"
  | .missingEnvelopeField => "missing call-table field"
  | .unexpectedEnvelopeField => "unexpected call-table field"
  | .badAccessRights => "invalid access rights"
  | .badPublicKeyPoint => "invalid public key point"
  | .missingTransactionField => "missing transaction field"
  | .unexpectedTransactionField => "unexpected transaction field"

end Malformation

/-- The choices that a tag byte announces. -/
inductive TagPlace where
  | option
  | result
  | clType
  | key
  | publicKey
  | signature
  | executableItem
  | initiator
  | pricingMode
  | runtime
  | scheduling
  | invocationTarget
  | target
  | entryPoint
  | arguments
  deriving DecidableEq, Repr

namespace TagPlace

def name : TagPlace → String
  | .option => "option"
  | .result => "result"
  | .clType => "cl type"
  | .key => "key"
  | .publicKey => "public key"
  | .signature => "signature"
  | .executableItem => "executable deploy item"
  | .initiator => "initiator address"
  | .pricingMode => "pricing mode"
  | .runtime => "transaction runtime"
  | .scheduling => "transaction scheduling"
  | .invocationTarget => "invocation target"
  | .target => "transaction target"
  | .entryPoint => "entry point"
  | .arguments => "transaction args"

end TagPlace

inductive WireError where
  | earlyEnd
  | malformed (fault : Malformation)
  | unknownTag (place : TagPlace) (tag : UInt8)
  | leftOver (count : Nat)
  /-- A length does not fit its 32-bit prefix. -/
  | tooLong
  /-- A type descriptor nests beyond the limit. -/
  | tooDeep
  deriving DecidableEq, Repr

namespace WireError

def message : WireError → String
  | .earlyEnd => "early end of stream"
  | .malformed fault => "formatting error: " ++ fault.message
  | .unknownTag place tag => "unknown " ++ place.name ++ " tag: " ++ toString tag.toNat
  | .leftOver count => toString count ++ " left-over bytes after deserialization"
  | .tooLong => "serialized value exceeds u32::MAX bytes"
  | .tooDeep => "exceeded recursion depth limit"

end WireError

end ChainClient
