/-!
# Network limits

The bounds that every document has to respect before a node looks at it, and the
defaults that a builder fills in. They are fixed by the network, so every module
reads them from here.
-/

namespace ChainClient.Limits

/-- In bytes of the UTF-8 form. -/
def maxChainName : Nat := 256

/-- Thirty minutes, in milliseconds. -/
def defaultTtl : UInt64 := 1800000

/-- One day, in milliseconds. -/
def maxTtl : UInt64 := 86400000

def defaultGasPrice : UInt64 := 1

def defaultGasPriceTolerance : UInt8 := 1

def maxDependencies : Nat := 10

/-- A leaf counts one level, and each composite adds one. -/
def maxTypeDepth : Nat := 50

/-- How many elements a list may hold once one of them takes no bytes. -/
def maxZeroWidthElements : Nat := 1024

def chainNameIsValid (name : String) : Bool :=
  name.utf8ByteSize != 0 && name.utf8ByteSize ≤ maxChainName

end ChainClient.Limits
