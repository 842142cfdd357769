import Peering.Text.Hexadecimal
import Peering.Text.Printable

/-!
# Quoted text in diagnostics

A text in a diagnostic stands between quotes; quotes, backslashes and what cannot be seen are escaped (`escape`), all
else is shown as it is.
-/

namespace Peering.Text

/-- One character of a quoted text. -/
def escape (c : Char) : List Char :=
  if c = '"' ∨ c = '\\' then ['\\', c]
  else if c = '\n' then ['\\', 'n']
  else if c = '\r' then ['\\', 'r']
  else if c = '\t' then ['\\', 't']
  else if c.toNat = 0 then ['\\', '0']
  else if isPrintable c then [c]
  else '\\' :: 'u' :: '\x7b' :: Hexadecimal.digits c.toNat ++ ['\x7d']

/-- A text between quotes. -/
def quoted (s : String) : String := String.ofList ('"' :: s.toList.flatMap escape ++ ['"'])

end Peering.Text
