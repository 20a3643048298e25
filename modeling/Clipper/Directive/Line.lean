import Clipper.Source.Text
import Clipper.Text.Blank
/-!
# Directive lines

A preprocessor directive is a line whose first text is `#` and the name of a
directive.  A directive that ends in a semicolon goes on with the next line.
Here a source text is cut into its lines, and each line is marked as kept or
removed.

Nothing of this looks at tokens: a line inside a block comment or a string may
be marked as well.  A line keeps its line feed, so the lines of a text put
together are the text; and the lines that are kept, put together, are the text
that is left without the directives.
-/

namespace Clipper.Directive

/-- The names of directives, in lower case. -/
def names : List String :=
  ["include", "define", "undef", "ifdef", "ifndef", "if", "elif", "else",
    "endif", "command", "xcommand", "translate", "xtranslate", "pragma",
    "error", "stdout"]

/-- The lines of a text, each with its line feed; only the last may lack one. -/
def lines : List Char → List (List Char)
  | [] => []
  | character :: rest =>
      if character = '\n' then [character] :: lines rest
      else
        match lines rest with
        | [] => [[character]]
        | line :: later => (character :: line) :: later

/--
A line opens a directive when `#` and a directive's name are its first text.
-/
def opensDirective (line : List Char) : Bool :=
  match Text.trimStart line with
  | '#' :: rest =>
      let word := (Text.trimStart rest).takeWhile Char.isAlpha
      names.contains (Source.lowerCase (String.ofList word))
  | _ => false

/-- A line goes on with the next when a semicolon is its last text. -/
def isContinued (line : List Char) : Bool :=
  (Text.trimEnd line).getLast? == some ';'

/-- A line of a source text, and whether it is kept. -/
structure Line where
  text : List Char
  kept : Bool
deriving DecidableEq

/--
Marks lines; `inside` tells whether the line before is a directive that goes on.
-/
def markFrom
    (inside : Bool) :
    List (List Char) → List Line
  | [] => []
  | text :: rest =>
      if inside || opensDirective text then
        ⟨text, false⟩ :: markFrom (isContinued text) rest
      else ⟨text, true⟩ :: markFrom false rest

/-- The lines of a source text, each marked as kept or removed. -/
def mark (source : List Char) : List Line :=
  markFrom false (lines source)

end Clipper.Directive
