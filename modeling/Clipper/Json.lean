/-!
# JSON values

The values of the data format JSON as far as records of programs need them, and
their text: nested values on lines of their own, two blanks deeper for each
level.

Objects keep the order of their fields.  Texts are written with the escapes
that the format asks for, and every other character as it is; numbers are
natural numbers, since a record holds nothing but offsets and counts.
-/

namespace Clipper

/-- A value of JSON; the fields of an object keep their order. -/
inductive Json where
  | null
  | boolean (value : Bool)
  | number (value : Nat)
  | string (text : String)
  | list (items : List Json)
  | object (fields : List (String × Json))

namespace Json

/-- A value, or null. -/
def ofOption
    {α : Type}
    (encode : α → Json) :
    Option α → Json
  | some value => encode value
  | none => null

/-- A list of values. -/
def ofList
    {α : Type}
    (encode : α → Json)
    (values : List α) :
    Json :=
  list (values.map encode)

/-- A digit in base sixteen. -/
def hexadecimalDigit (value : Nat) : Char :=
  Nat.digitChar value

/--
How a character is written inside a string:
quotes, backslashes and controls are escaped.
-/
def escape (character : Char) : List Char :=
  if character = '"' then ['\\', '"']
  else if character = '\\' then ['\\', '\\']
  else if character = '\n' then ['\\', 'n']
  else if character = '\r' then ['\\', 'r']
  else if character = '\t' then ['\\', 't']
  else if character = '\x08' then ['\\', 'b']
  else if character = '\x0c' then ['\\', 'f']
  else if character.toNat < 0x20 then
    ['\\', 'u', '0', '0', hexadecimalDigit (character.toNat / 16),
      hexadecimalDigit (character.toNat % 16)]
  else [character]

/-- A string between double quotes. -/
def quoted (text : String) : List Char :=
  '"' :: (text.toList.flatMap escape ++ ['"'])

/-- A line feed and the blanks of a level. -/
def newLine (level : Nat) : List Char :=
  '\n' :: List.replicate (2 * level) ' '

mutual

/-- The text of a value at a level. -/
def textAt (level : Nat) : Json → List Char
  | null => "null".toList
  | boolean true => "true".toList
  | boolean false => "false".toList
  | number value => (toString value).toList
  | string text => quoted text
  | list [] => ['[', ']']
  | list (first :: rest) =>
      '[' :: (newLine (level + 1) ++ first.textAt (level + 1) ++
        (itemsAt (level + 1) rest ++ newLine level ++ [']']))
  | object [] => ['{', '}']
  | object ((key, value) :: rest) =>
      '{' :: (newLine (level + 1) ++ quoted key ++ [':', ' '] ++
        value.textAt (level + 1) ++
        (fieldsAt (level + 1) rest ++ newLine level ++ ['}']))

/-- The texts of further items of a list, each after a comma. -/
def itemsAt (level : Nat) : List Json → List Char
  | [] => []
  | first :: rest =>
      ',' :: (newLine level ++ first.textAt level ++ itemsAt level rest)

/-- The texts of further fields of an object, each after a comma. -/
def fieldsAt (level : Nat) : List (String × Json) → List Char
  | [] => []
  | (key, value) :: rest =>
      ',' :: (newLine level ++ quoted key ++ [':', ' '] ++ value.textAt level ++
        fieldsAt level rest)

end

/-- The text of a value. -/
def text (value : Json) : List Char :=
  value.textAt 0

end Json

end Clipper
