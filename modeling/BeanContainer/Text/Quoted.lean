/-
# Quoted texts

A text between double quotes, as messages show it: quotes, backslashes and the usual control
characters behind a backslash, everything that can't be seen as its code point.

Key definitions:
- `escapeChar`, the written form of one character.
- `quoted` and `quotedChar`, the written forms of a text and of a single character.
-/
import BeanContainer.Text.Printable

namespace BeanContainer.Text

/-- The written form of a character inside quotes. -/
def escapeChar (c : Char) : List Char :=
  if c = '\x00' then ['\\', '0']
  else if c = '\t' then ['\\', 't']
  else if c = '\n' then ['\\', 'n']
  else if c = '\r' then ['\\', 'r']
  else if c = '"' then ['\\', '"']
  else if c = '\\' then ['\\', '\\']
  else if extendsGrapheme c || !isPrintable c then
    ['\\', 'u', '\x7b'] ++ Nat.toDigits 16 c.toNat ++ ['\x7d']
  else [c]

/-- The text between quotes. -/
def quoted (s : String) : String :=
  "\"" ++ String.ofList (s.toList.flatMap escapeChar) ++ "\""

/-- The character between single quotes, which take the place of the double ones. -/
def quotedChar (c : Char) : String :=
  let escaped :=
    if c = '"' then ['"'] else if c = '\x27' then ['\\', c] else escapeChar c
  "'" ++ String.ofList escaped ++ "'"

end BeanContainer.Text
