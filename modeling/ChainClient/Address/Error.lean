import ChainClient.Text.Hex

/-!
# Errors of address texts
-/

namespace ChainClient

inductive AddressError where
  | unknownLabel (text : String)
  | hex (error : HexError)
  | length (found : Nat)
  | accessRights
  | era
  deriving DecidableEq, Repr

namespace AddressError

def message : AddressError → String
  | .unknownLabel text => "unrecognised key prefix in " ++ Text.Quoted.string text
  | .hex error => "invalid hex: " ++ error.message
  | .length found => "expected 32 address bytes, found " ++ toString found
  | .accessRights => "invalid access rights suffix"
  | .era => "invalid era id"

end AddressError

end ChainClient
