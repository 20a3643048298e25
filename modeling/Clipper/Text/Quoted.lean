import Clipper.Text.Hidden
/-!
# Quoted text

A quoted text stands between double quotes.  Quotes, backslashes and the common
controls are escaped by name, all other characters that are not shown as
themselves by number.

A character that is escaped by number is written with the digits of its code
point in base sixteen between braces.  That every character has one form, and
that no form begins another one, makes quoted texts readable from the left,
wherever they stand in a line.
-/

namespace Clipper.Text

/-- The digits of a number in base sixteen, in lower case. -/
def hexadecimal (value : Nat) : List Char :=
  Nat.toDigits 16 value

/-- How a character is written inside a quoted text. -/
def escape (character : Char) : List Char :=
  if character = '"' then ['\\', '"']
  else if character = '\\' then ['\\', '\\']
  else if character = '\t' then ['\\', 't']
  else if character = '\r' then ['\\', 'r']
  else if character = '\n' then ['\\', 'n']
  else if character = '\x00' then ['\\', '0']
  else if isHidden character then
    '\\' :: 'u' :: '{' :: (hexadecimal character.toNat ++ ['}'])
  else [character]

/-- A text between double quotes. -/
def quoted (text : List Char) : List Char :=
  '"' :: (text.flatMap escape ++ ['"'])

end Clipper.Text
