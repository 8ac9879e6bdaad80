import FuzzLedger.Text.Hex
import FuzzLedger.Text.Shown

/-!
# Texts quoted in messages

A message shows a text between double quotes.  The quote, the backslash, NUL, tab, line feed and
carriage return have short escapes; any other character that `isShown` refuses is written as its
code point in braces.
-/

set_option autoImplicit false

namespace FuzzLedger.Text

/-- One character inside the quotes. -/
def quotedChar (c : Char) : List Char :=
  if c = '"' then ['\\', '"']
  else if c = '\\' then ['\\', '\\']
  else if c = '\x00' then ['\\', '0']
  else if c = '\t' then ['\\', 't']
  else if c = '\n' then ['\\', 'n']
  else if c = '\r' then ['\\', 'r']
  else if isShown c then [c]
  else ['\\', 'u', '\x7b'] ++ hexDigits c.toNat ++ ['\x7d']

/-- A text between double quotes. -/
def quoted (s : String) : String :=
  String.ofList ('"' :: s.toList.flatMap quotedChar ++ ['"'])

end FuzzLedger.Text
