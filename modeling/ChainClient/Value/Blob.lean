import ChainClient.Json.Form
import ChainClient.Text.Hex
import ChainClient.Wire.Basic

/-!
# Byte strings as text

A byte string is hexadecimal text in JSON. Logs show its digits, or only the first
sixteen bytes and the length if it is long.
-/

namespace ChainClient.Blob

def text (b : Blob) : String := Text.Hex.text b.toList

def ofText (s : String) : Except HexError Blob := do return ⟨← Text.Hex.decode s.toList⟩

instance : JsonForm Blob := .ofText text fun s ↦ (ofText s).toOption

def describe (b : Blob) : String :=
  if 32 < b.toList.length then
    "Bytes(" ++ Text.Hex.text (b.toList.take 16) ++ ".." ++ toString b.toList.length ++ " bytes)"
  else "Bytes(" ++ b.text ++ ")"

end ChainClient.Blob
