import ChainClient.Value.ClValue

/-!
# Errors of builders

A builder collects the parts of a document. Building reports a part that was never set
before anything else, and it passes on the rule that the assembled document breaks.
-/

namespace ChainClient

inductive RequiredPart where
  | account
  | chainName
  | session
  | payment
  | initiator
  | pricingMode
  deriving DecidableEq, Repr

namespace RequiredPart

def name : RequiredPart → String
  | .account => "account"
  | .chainName => "chain_name"
  | .session => "session"
  | .payment => "payment"
  | .initiator => "initiator_addr"
  | .pricingMode => "pricing_mode"

end RequiredPart

/-- `ε` is the type of the rules that a document can break. -/
inductive BuildError (ε : Type) where
  | missing (part : RequiredPart)
  /-- Arguments were given to an operation that has its own. -/
  | fixedArguments (operation : String)
  | argument (error : ClValueError)
  | rule (error : ε)
  deriving DecidableEq, Repr

namespace BuildError

/-- Reports the part if it was never set. -/
def require {ε α : Type} (part : RequiredPart) : Option α → Except (BuildError ε) α
  | some x => .ok x
  | none => .error (.missing part)

theorem require_eq_ok {ε α : Type} {part : RequiredPart} {x : Option α} {a : α} :
    (require part x : Except (BuildError ε) α) = .ok a ↔ x = some a := by
  cases x <;> simp [require]

theorem require_eq_error {ε α : Type} {part : RequiredPart} {x : Option α} {e : BuildError ε} :
    require part x = .error e ↔ x = none ∧ .missing part = e := by
  cases x <;> simp [require]

def message {ε : Type} (ruleMessage : ε → String) : BuildError ε → String
  | .missing part => "missing required field: " ++ part.name
  | .fixedArguments operation => operation ++ " transactions take no custom arguments"
  | .argument error => "invalid argument: " ++ error.message
  | .rule error => ruleMessage error

end BuildError

end ChainClient
