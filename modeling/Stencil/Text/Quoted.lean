import Stencil.Text.Printable

/-!
# Quoted text

Text between double quotes on one line.  A backslash, a double quote and the control
characters NUL, tab, line feed and carriage return have short escapes; any other
character that is not printed as itself is written by its code point in hexadecimal
digits between braces, as in the escape for ESC, code point 1b.
-/

namespace Stencil
namespace Text

/-- Hexadecimal digits of a number, in lower case and without leading zeros. -/
def hexText (n : Nat) : List Char :=
  Nat.toDigits 16 n

def quotedChar (c : Char) : List Char :=
  if c = '\x00' then ['\\', '0']
  else if c = '\t' then ['\\', 't']
  else if c = '\r' then ['\\', 'r']
  else if c = '\n' then ['\\', 'n']
  else if c = '\\' then ['\\', '\\']
  else if c = '"' then ['\\', '"']
  else if isPrintable c then [c]
  else ['\\', 'u', '\x7b'] ++ hexText c.toNat ++ ['\x7d']

/-- Text between double quotes, with escapes. -/
def quoted (s : String) : String :=
  String.ofList ('"' :: s.toList.flatMap quotedChar ++ ['"'])

end Text
end Stencil
