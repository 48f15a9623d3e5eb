import ChainClient.Text.Printable

/-!
# Quoted text in messages

A message that shows a text puts it between quotes. The quote in use, the
backslash and the control characters are escaped, and so is every character that
would not be seen on its own; what remains stands for itself.
-/

namespace ChainClient.Text.Quoted

def hexDigits (n : Nat) : List Char := Nat.toDigits 16 n

def escaped (quote : Char) (c : Char) : List Char :=
  if c = '\x00' then ['\\', '0']
  else if c = '\t' then ['\\', 't']
  else if c = '\r' then ['\\', 'r']
  else if c = '\n' then ['\\', 'n']
  else if c = quote ∨ c = '\\' then ['\\', c]
  else if isPrintable c then [c]
  else ['\\', 'u', '\x7b'] ++ hexDigits c.toNat ++ ['\x7d']

def string (s : String) : String :=
  String.ofList ('"' :: s.toList.flatMap (escaped '"') ++ ['"'])

def char (c : Char) : String := String.ofList ('\x27' :: escaped '\x27' c ++ ['\x27'])

end ChainClient.Text.Quoted
