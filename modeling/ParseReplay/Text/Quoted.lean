import ParseReplay.Text.Printable

/-!
# Quoted text

A text between double quotes in which every character can be seen: quotes, backslashes and the
common controls by a short escape, every other character without a printed form by its code point
in braces.

## Main definitions

* `escape`: the quoted form of one character
* `quoted`: the quoted form of a text
-/

namespace ParseReplay.Text

/-- The code point in lowercase hexadecimal digits between braces. -/
def codePoint (c : Char) : List Char :=
  ['\\', 'u', '{'] ++ Nat.toDigits 16 c.toNat ++ ['}']

/-- The quoted form of a character. -/
def escape (c : Char) : List Char :=
  if c = '"' then ['\\', '"']
  else if c = '\\' then ['\\', '\\']
  else if c = '\n' then ['\\', 'n']
  else if c = '\r' then ['\\', 'r']
  else if c = '\t' then ['\\', 't']
  else if c.toNat = 0 then ['\\', '0']
  else if 0x20 ≤ c.toNat ∧ c.toNat < 0x7f then [c]
  else if isPrintable c then [c]
  else codePoint c

/-- The text between double quotes, its characters escaped. -/
def quoted (s : String) : String :=
  String.ofList ('"' :: s.toList.flatMap escape ++ ['"'])

end ParseReplay.Text
