import Harvesting.Text.Printable

/-!
# Quoted texts

A text between double quotes as it appears in messages. The quote, the backslash, tab, line feed and
carriage return have short escapes, NUL is `\0`, and other characters that do not print are written
as `\u{…}` with their code point in hexadecimal.
-/

namespace Harvesting.Text

/-- The code point in lower-case hexadecimal. -/
def hex (n : Nat) : List Char := Nat.toDigits 16 n

def quotedChar (c : Char) : List Char :=
  if c.toNat = 0 then ['\\', '0']
  else if c = '\t' then ['\\', 't']
  else if c = '\r' then ['\\', 'r']
  else if c = '\n' then ['\\', 'n']
  else if c = '"' ∨ c = '\\' then ['\\', c]
  else if isPrintable c then [c]
  else ['\\', 'u', '\x7b'] ++ hex c.toNat ++ ['\x7d']

def quoted (s : String) : String :=
  String.ofList ('"' :: s.toList.flatMap quotedChar ++ ['"'])

end Harvesting.Text
