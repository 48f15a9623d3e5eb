import ChainClient.Text.Quoted

/-!
# Errors of times

A text that stands for no time is reported. Arithmetic that leaves its width is not reported: it
stops the program.
-/

namespace ChainClient

inductive TimeError where
  /-- Neither a count of milliseconds nor a date and time. -/
  | badDateTime
  | beforeEpoch
  | unknownUnit (unit : String)
  | missingNumber (text : String)
  | empty
  | overflow
  deriving DecidableEq, Repr

namespace TimeError

def message : TimeError → String
  | .badDateTime => "invalid RFC 3339 timestamp"
  | .beforeEpoch => "timestamp precedes the Unix epoch"
  | .unknownUnit unit => "unknown duration unit: " ++ Text.Quoted.string unit
  | .missingNumber text => "expected a number in duration: " ++ Text.Quoted.string text
  | .empty => "empty duration"
  | .overflow => "duration overflows u64 milliseconds"

end TimeError

/-- What stops the program. -/
inductive ArithmeticFault where
  /-- A result beyond 64 bits. -/
  | overflow
  deriving DecidableEq, Repr

end ChainClient
