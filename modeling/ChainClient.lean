import ChainClient.Address.AccountHash
import ChainClient.Address.Error
import ChainClient.Address.Key
import ChainClient.Address.URef
import ChainClient.Approval
import ChainClient.BuildError
import ChainClient.Crypto.Algorithm
import ChainClient.Crypto.Blake2b
import ChainClient.Crypto.Digest
import ChainClient.Crypto.Ed25519
import ChainClient.Crypto.KeyPair
import ChainClient.Crypto.Modular
import ChainClient.Crypto.PublicKey
import ChainClient.Crypto.RootConstants
import ChainClient.Crypto.Secp256k1
import ChainClient.Crypto.Sha2
import ChainClient.Crypto.Signature
import ChainClient.Crypto.Suite
import ChainClient.Deploy.Basic
import ChainClient.Deploy.Builder
import ChainClient.Deploy.Header
import ChainClient.Deploy.Item
import ChainClient.Json.Basic
import ChainClient.Json.Form
import ChainClient.Json.Printer
import ChainClient.Json.Reader
import ChainClient.Limits
import ChainClient.Order.SortKey
import ChainClient.Order.SortedMap
import ChainClient.Proofs.Address.Forms
import ChainClient.Proofs.Deploy.Forms
import ChainClient.Proofs.Document.Commitment
import ChainClient.Proofs.Document.Parts
import ChainClient.Proofs.Text.Digits
import ChainClient.Proofs.Transaction.Canonical
import ChainClient.Proofs.Transaction.Forms
import ChainClient.Proofs.Transaction.Spelling
import ChainClient.Proofs.Transaction.Variants
import ChainClient.Proofs.Value.Agreement
import ChainClient.Proofs.Value.Arguments
import ChainClient.Proofs.Value.Builders
import ChainClient.Proofs.Value.Construction
import ChainClient.Proofs.Value.Descriptor
import ChainClient.Proofs.Value.Grammar
import ChainClient.Proofs.Value.MapKeys
import ChainClient.Proofs.Value.Native
import ChainClient.Proofs.Value.Order
import ChainClient.Proofs.Value.Rendering
import ChainClient.Proofs.Value.Typed
import ChainClient.Proofs.Value.Unstated
import ChainClient.Proofs.Value.Walk
import ChainClient.Proofs.Wire.BigUInt
import ChainClient.Proofs.Wire.Container
import ChainClient.Proofs.Wire.Envelope
import ChainClient.Proofs.Wire.Envelope.Canonical
import ChainClient.Proofs.Wire.Laws
import ChainClient.Proofs.Wire.Scalar
import ChainClient.Text.Blank
import ChainClient.Text.Decimal
import ChainClient.Text.Hex
import ChainClient.Text.Label
import ChainClient.Text.Printable
import ChainClient.Text.Quoted
import ChainClient.Time.Calendar
import ChainClient.Time.Duration
import ChainClient.Time.Error
import ChainClient.Time.Timestamp
import ChainClient.Transaction.Basic
import ChainClient.Transaction.Builder
import ChainClient.Transaction.EntryPoint
import ChainClient.Transaction.Fields
import ChainClient.Transaction.Initiator
import ChainClient.Transaction.PricingMode
import ChainClient.Transaction.Target
import ChainClient.Transfer
import ChainClient.Value.Arguments
import ChainClient.Value.Blob
import ChainClient.Value.ClType
import ChainClient.Value.ClType.Json
import ChainClient.Value.ClType.Name
import ChainClient.Value.ClValue
import ChainClient.Value.ClValue.Build
import ChainClient.Value.Native
import ChainClient.Value.Plain
import ChainClient.Value.Walk
import ChainClient.Wire.Basic
import ChainClient.Wire.BigUInt
import ChainClient.Wire.Container
import ChainClient.Wire.Envelope
import ChainClient.Wire.Error
import ChainClient.Proofs.Wire.Envelope.Slices
import ChainClient.Proofs.Value.Assembly
import ChainClient.Proofs.Wire.Envelope.Width
import ChainClient.Proofs.Value.Width
import ChainClient.Proofs.Transaction.Exact
import ChainClient.Proofs.Value.TypeName
import ChainClient.Proofs.Json.Arrangement
import ChainClient.Proofs.Value.Json
import ChainClient.Proofs.Value.Limit
import ChainClient.Proofs.Time.Amount
import ChainClient.Proofs.Time.Duration
import ChainClient.Proofs.Time.Calendar
import ChainClient.Proofs.Time.Timestamp
import ChainClient.Proofs.Document.Texts
import ChainClient.Proofs.Deploy.Json
import ChainClient.Proofs.Document.Json
import ChainClient.Proofs.Value.RenderedSize
import ChainClient.Proofs.Document.Verification
import ChainClient.Proofs.Document.Signing
import ChainClient.Proofs.Document.Order
import ChainClient.Proofs.Document.NativeArguments
import ChainClient.Proofs.Deploy.Builder
import ChainClient.Proofs.Deploy.Start
import ChainClient.Proofs.Transaction.Builder
import ChainClient.Proofs.Document.Builders
import ChainClient.Proofs.Document.Width
import ChainClient.Proofs.Wire.Truncation
import ChainClient.Proofs.Document.Truncation
import ChainClient.Proofs.Value.JsonSpelling
import ChainClient.Proofs.Transaction.Start
import ChainClient.Proofs.Document.Lifetime
import ChainClient.Proofs.Text.Numeral
import ChainClient.Proofs.Text.Hex
import ChainClient.Proofs.Address.Texts
import ChainClient.Proofs.Value.Numbers
import ChainClient.Proofs.Crypto.Readers
import ChainClient.Proofs.Crypto.BigEndian
import ChainClient.Proofs.Crypto.Secrets
import ChainClient.Proofs.Crypto.Primality
import ChainClient.Proofs.Crypto.Secp256k1.Field
import ChainClient.Proofs.Crypto.Secp256k1.Points
