import Clipper.Toml.Value
/-!
# Strings, numbers and dates of TOML

The values without parts.  Each function reads one sort of value at the
beginning of a text and returns it with the rest of the text, or nothing.

Texts come in four sorts, with or without escapes and on one line or several.
Integers may be written in four bases and must fit in 64 bits; real numbers
and dates are checked for their form and their range, and their value is not
kept.
-/

namespace Clipper.Toml

/--
A way to read something at the beginning of a
text, which returns the rest of the text too.
-/
abbrev Reader (α : Type) :=
  List Char → Option (α × List Char)

/-- Blanks inside a line. -/
def isBlank (character : Char) : Bool :=
  character == ' ' || character == '\t'

/-- Characters outside ASCII. -/
def isForeign (character : Char) : Bool :=
  decide (0x80 ≤ character.toNat)

/-- Characters that may stand in a line: the tab, and all but controls. -/
def isPrintable (character : Char) : Bool :=
  character == '\t' ||
    (decide (0x20 ≤ character.toNat) && decide (character.toNat ≤ 0x7E)) ||
      isForeign character

/-- A line feed, with or without a carriage return. -/
def lineBreak? : List Char → Option (List Char)
  | '\n' :: rest => some rest
  | '\r' :: '\n' :: rest => some rest
  | _ => none

/-! ## Strings -/

/-- The value of a digit in base sixteen. -/
def hexDigit? (character : Char) : Option Nat :=
  if character.isDigit then some (character.toNat - '0'.toNat)
  else if 'a' ≤ character ∧ character ≤ 'f' then
    some (character.toNat - 'a'.toNat + 10)
  else if 'A' ≤ character ∧ character ≤ 'F' then
    some (character.toNat - 'A'.toNat + 10)
  else none

/-- The character whose number is written with these digits in base sixteen. -/
def characterOf? (digits : List Char) : Option Char := do
  let values ← digits.mapM hexDigit?
  let code := values.foldl (fun total value => 16 * total + value) 0
  if h : code.isValidChar then some (Char.ofNatAux code h) else none

/-- What one letter after a backslash stands for. -/
def namedEscape? : Char → Option Char
  | 'b' => some '\x08'
  | 't' => some '\t'
  | 'n' => some '\n'
  | 'f' => some '\x0c'
  | 'r' => some '\r'
  | '"' => some '"'
  | '\\' => some '\\'
  | _ => none

/--
The number of digits after a letter that escapes a character by its number.
-/
def escapeDigits? : Char → Option Nat
  | 'u' => some 4
  | 'U' => some 8
  | _ => none

/--
Reads what follows a backslash: the character,
and how many characters it is written with.
-/
def escape? : List Char → Option (Char × Nat)
  | [] => none
  | letter :: rest =>
      match namedEscape? letter with
      | some character => some (character, 1)
      | none => do
          let count ← escapeDigits? letter
          let digits := rest.take count
          if digits.length = count then
            let character ← characterOf? digits
            some (character, count + 1)
          else none

/-- Puts a character in front of what was read. -/
def push
    (character : Char)
    (read : Option (List Char × List Char)) :
    Option (List Char × List Char) :=
  read.map (fun (content, rest) => (character :: content, rest))

/--
The rest of a string between double quotes;
`skip` characters belong to an escape.
-/
def basicString (skip : Nat) : Reader (List Char)
  | [] => none
  | character :: rest =>
      match skip with
      | skip + 1 => basicString skip rest
      | 0 =>
          if character = '"' then some ([], rest)
          else if character = '\\' then
            match escape? rest with
            | some (escaped, count) => push escaped (basicString count rest)
            | none => none
          else if isPrintable character then push character (basicString 0 rest)
          else none

/-- The rest of a string between single quotes. -/
def literalString : Reader (List Char)
  | [] => none
  | character :: rest =>
      if character = '\'' then some ([], rest)
      else if isPrintable character then push character (literalString rest)
      else none

/--
The end of a string between tripled quotes: three to five quotes, of which all
but three belong to the string.
-/
def tripleEnd?
    (quote : Char)
    (text : List Char) :
    Option (List Char × List Char) :=
  let count := min 5 (text.takeWhile (· == quote)).length
  if 3 ≤ count then some (List.replicate (count - 3) quote, text.drop count)
  else none

/-- Whether blanks and a line break follow. -/
def endsLine (text : List Char) : Bool :=
  (lineBreak? (text.dropWhile isBlank)).isSome

/--
What the reading of a string between tripled
double quotes does with the next characters.
-/
inductive TripleMode where
  /-- They belong to the string. -/
  | content
  /-- So many of them belong to an escape. -/
  | escape (count : Nat)
  /-- Blanks and line breaks after a backslash at the end of a line. -/
  | gap
deriving DecidableEq

/-- The rest of a string between tripled double quotes. -/
def tripleBasic (mode : TripleMode) : Reader (List Char)
  | [] => none
  | character :: rest =>
      match mode with
      | .escape (count + 1) =>
          tripleBasic (if count = 0 then .content else .escape count) rest
      | mode =>
          if mode = .gap ∧ (isBlank character ∨ character = '\n') then
            tripleBasic .gap rest
          else if mode = .gap ∧ character = '\r' ∧ rest.head? = some '\n' then
            tripleBasic .gap rest
          else
            match tripleEnd? '"' (character :: rest) with
            | some ended => some ended
            | none =>
                if character = '\\' then
                  if endsLine rest then tripleBasic .gap rest
                  else
                    match escape? rest with
                    | some (escaped, count) =>
                        push escaped (tripleBasic (.escape count) rest)
                    | none => none
                else if character = '\r' then
                  if rest.head? = some '\n' then tripleBasic .content rest
                  else none
                else if isPrintable character ∨ character = '\n' then
                  push character (tripleBasic .content rest)
                else none

/-- The rest of a string between tripled single quotes. -/
def tripleLiteral : Reader (List Char)
  | [] => none
  | character :: rest =>
      match tripleEnd? '\'' (character :: rest) with
      | some ended => some ended
      | none =>
          if character = '\r' then
            if rest.head? = some '\n' then tripleLiteral rest else none
          else if isPrintable character ∨ character = '\n' then
            push character (tripleLiteral rest)
          else none

/-- A text without a line break at its beginning. -/
def afterLineBreak (text : List Char) : List Char :=
  (lineBreak? text).getD text

/-- A string of any of the four sorts. -/
def string? : Reader (List Char)
  | '"' :: '"' :: '"' :: rest => tripleBasic .content (afterLineBreak rest)
  | '"' :: rest => basicString 0 rest
  | '\'' :: '\'' :: '\'' :: rest => tripleLiteral (afterLineBreak rest)
  | '\'' :: rest => literalString rest
  | _ => none

/-! ## Numbers -/

/-- Digits with single underscores between them, without the underscores. -/
def moreDigits (isDigit : Char → Bool) : List Char → List Char × List Char
  | [] => ([], [])
  | ['_'] => ([], ['_'])
  | '_' :: digit :: rest =>
      if isDigit digit then
        let (digits, rest) := moreDigits isDigit rest
        (digit :: digits, rest)
      else ([], '_' :: digit :: rest)
  | digit :: rest =>
      if isDigit digit then
        let (digits, rest) := moreDigits isDigit rest
        (digit :: digits, rest)
      else ([], digit :: rest)

/-- One or more digits with single underscores between them. -/
def digits?
    (isDigit : Char → Bool) :
    Reader (List Char)
  | [] => none
  | digit :: rest =>
      if isDigit digit then
        let (digits, rest) := moreDigits isDigit rest
        some (digit :: digits, rest)
      else none

/-- A sign, and whether it is a minus. -/
def sign : List Char → Bool × List Char
  | '-' :: rest => (true, rest)
  | '+' :: rest => (false, rest)
  | text => (false, text)

/-- Digits in base ten without a leading zero. -/
def decimal? : Reader (List Char)
  | '0' :: rest => some (['0'], rest)
  | text => digits? Char.isDigit text

/-- The number that digits stand for in a base. -/
def numberOf
    (base : Nat)
    (digits : List Char) :
    Nat :=
  digits.foldl (fun total digit => base * total + (hexDigit? digit).getD 0) 0

/-- An integer, if it fits into sixty-four bits. -/
def inRange? (number : Int) : Option Value :=
  if Int64.minValue.toInt ≤ number ∧ number ≤ Int64.maxValue.toInt then
    some (.integer number)
  else
    none

/-- Digits in a base that stands for a radix mark. -/
def radixInteger?
    (base : Nat)
    (text : List Char) :
    Option (Value × List Char) := do
  let (digits, rest) ←
    digits? (fun digit =>
      ((hexDigit? digit).any (fun value => decide (value < base)))) text
  let value ← inRange? (numberOf base digits)
  some (value, rest)

/-- An integer in base two, eight, ten or sixteen. -/
def integer? : Reader Value
  | '0' :: 'x' :: rest => radixInteger? 16 rest
  | '0' :: 'o' :: rest => radixInteger? 8 rest
  | '0' :: 'b' :: rest => radixInteger? 2 rest
  | text => do
      let (negative, text) := sign text
      let (digits, rest) ← decimal? text
      let number : Int := numberOf 10 digits
      let value ← inRange? (if negative then -number else number)
      some (value, rest)

/-- The exponent of a real number. -/
def exponent? : Reader Int
  | mark :: text =>
      if mark = 'e' ∨ mark = 'E' then do
        let (negative, text) := sign text
        let (digits, rest) ← digits? Char.isDigit text
        let number : Int := numberOf 10 digits
        some (if negative then -number else number, rest)
      else none
  | [] => none

/--
The least positive number that is too large
for a real number in sixty-four bits.
-/
def realLimit : Nat :=
  Nat.pow 2 1024 - Nat.pow 2 970

/-- Whether `mantissa` times a power of ten is too large for a real number. -/
def exceedsReal
    (mantissa : Nat)
    (exponent : Int) :
    Bool :=
  let size := (Nat.toDigits 10 mantissa).length + exponent
  if mantissa = 0 ∨ size < 300 then false
  else if 320 < size then true
  else if 0 ≤ exponent then
    decide (realLimit ≤ mantissa * Nat.pow 10 exponent.toNat)
  else decide (realLimit * Nat.pow 10 (-exponent).toNat ≤ mantissa)

/--
The digits after a point, and the exponent
after them, of which one may be absent.
-/
def fractionAndExponent? : Reader (List Char × Int)
  | '.' :: text => do
      let (fraction, rest) ← digits? Char.isDigit text
      match exponent? rest with
      | some (exponent, rest) => some ((fraction, exponent), rest)
      | none => some ((fraction, 0), rest)
  | text => do
      let (exponent, rest) ← exponent? text
      some (([], exponent), rest)

/-- A real number: digits with a fraction or an exponent, or a special value. -/
def real? : Reader Value := fun text =>
  let (negative, text) := sign text
  match text with
  | 'i' :: 'n' :: 'f' :: rest => some (.real, rest)
  | 'n' :: 'a' :: 'n' :: rest => some (.real, rest)
  | text => do
      let (digits, text) ← decimal? text
      let ((fraction, exponent), rest) ← fractionAndExponent? text
      let mantissa := numberOf 10 (digits ++ fraction)
      if !negative && exceedsReal mantissa (exponent - fraction.length) then
        none
      else some (.real, rest)

/-! ## Dates and times -/

/-- A number with exactly so many digits, between two bounds. -/
def fixed?
    (count least most : Nat)
    (text : List Char) :
    Option (Nat × List Char) :=
  let digits := text.take count
  let number := numberOf 10 digits
  if digits.length = count ∧ digits.all Char.isDigit ∧ least ≤ number ∧
    number ≤ most then
      some (number, text.drop count)
  else none

/-- A certain character. -/
def mark?
    (expected : Char) :
    List Char → Option (List Char)
  | [] => none
  | character :: rest => if character = expected then some rest else none

/-- The number of days of a month. -/
def daysOf (year month : Nat) : Nat :=
  if month = 2 then
    if year % 4 = 0 ∧ (year % 100 ≠ 0 ∨ year % 400 = 0) then 29 else 28
  else if month = 4 ∨ month = 6 ∨ month = 9 ∨ month = 11 then 30
  else 31

/-- A date: year, month and day. -/
def date? (text : List Char) : Option (List Char) := do
  let (year, text) ← fixed? 4 0 9999 text
  let text ← mark? '-' text
  let (month, text) ← fixed? 2 1 12 text
  let text ← mark? '-' text
  let (_, text) ← fixed? 2 1 (daysOf year month) text
  some text

/-- A time of day, with parts of a second after a point. -/
def time? (text : List Char) : Option (List Char) := do
  let (_, text) ← fixed? 2 0 23 text
  let text ← mark? ':' text
  let (_, text) ← fixed? 2 0 59 text
  let text ← mark? ':' text
  let (_, text) ← fixed? 2 0 60 text
  match text with
  | '.' :: digit :: rest =>
      if digit.isDigit then some (rest.dropWhile Char.isDigit) else some text
  | _ => some text

/-- The offset of a time of day from universal time. -/
def zone? : List Char → Option (List Char)
  | mark :: text =>
      if mark = 'Z' ∨ mark = 'z' then some text
      else if mark = '+' ∨ mark = '-' then do
        let (_, text) ← fixed? 2 0 23 text
        let text ← mark? ':' text
        let (_, text) ← fixed? 2 0 59 text
        some text
      else none
  | [] => none

/-- The time of day after a date. -/
def timeAfterDate? : List Char → Option (List Char)
  | mark :: text =>
      if mark = 'T' ∨ mark = 't' ∨ mark = ' ' then do
        let text ← time? text
        some ((zone? text).getD text)
      else none
  | [] => none

/-- A date, a time of day, or both. -/
def moment? : Reader Value := fun text =>
  match date? text with
  | some rest => some (.moment, (timeAfterDate? rest).getD rest)
  | none => (time? text).map (fun rest => (.moment, rest))

/-- A date, a time or a number. -/
def number? : Reader Value := fun text =>
  match moment? text with
  | some read => some read
  | none =>
      match real? text with
      | some read => some read
      | none => integer? text

end Clipper.Toml
