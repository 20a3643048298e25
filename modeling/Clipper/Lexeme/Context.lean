import Clipper.Source.Text
/-!
# What the surrounding line decides

Whether a `*`, a `;` or a `.` opens something is decided by the text around it.
Each test here looks at the text after a cut, and where needed at the text
before it, nearest character first.

A star opens a comment only where nothing but blanks stands before it on its
line.  A semicolon continues its line if nothing but blanks and a comment
follows it and the next line is not blank.  A dot is a fraction behind digits
if a digit follows it.  Only ASCII letters, digits and the underscore make
names.
-/

namespace Clipper.Lexeme

open Clipper.Source

/-- Blanks inside a line: every skipped character except the line feed. -/
def isBlank (character : Char) : Bool :=
  character == ' ' || character == '\t' || character == '\r' ||
    character == '\x0c'

/-- The characters that separate tokens and are skipped. -/
def isSpace (character : Char) : Bool :=
  isBlank character || character == '\n'

/-- The characters that may begin a name. -/
def isNameStart (character : Char) : Bool :=
  character.isAlpha || character == '_'

/-- The characters that may go on a name. -/
def isNamePart (character : Char) : Bool :=
  character.isAlphanum || character == '_'

/-- Two slashes or two ampersands open a comment up to the end of the line. -/
def opensLineComment : List Char → Bool
  | '/' :: '/' :: _ => true
  | '&' :: '&' :: _ => true
  | _ => false

/-- Only blanks stand between the cut and the beginning of its line. -/
def atLineStart (before : List Char) : Bool :=
  match before.dropWhile isBlank with
  | [] => true
  | character :: _ => character == '\n'

/--
A star comments out its line when only blanks stand before it on the line.
-/
def opensStarComment
    (before after : List Char) :
    Bool :=
  match after with
  | '*' :: _ => atLineStart before
  | _ => false

/--
What is left after the blanks and the line comment at the beginning of a text.
-/
def afterBlanksAndComment (text : List Char) : List Char :=
  let rest := text.dropWhile isBlank
  if opensLineComment rest then rest.dropWhile (· != '\n') else rest

/--
A semicolon continues its statement when nothing but blanks and a line comment
follows it on its line, and the next line is not blank.
-/
def continuesLine : List Char → Bool
  | ';' :: rest =>
      match afterBlanksAndComment rest with
      | '\n' :: next =>
          (firstLine next).any (fun character => !isBlank character)
      | _ => false
  | _ => false

/-- A dot after digits belongs to the number when a digit follows it. -/
def opensFraction : List Char → Bool
  | '.' :: digit :: _ => digit.isDigit
  | _ => false

end Clipper.Lexeme
