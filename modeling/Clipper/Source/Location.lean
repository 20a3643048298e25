import Clipper.Source.Text
/-!
# Lines and columns

A line begins at offset zero and after every line feed.  A line table holds the
offsets of all line beginnings in increasing order, and turns a byte offset into
a line and a column, both counted from one.

Columns count bytes and not characters, as offsets do.  An offset past the end
of the text is on the last line, in a column past the end of it.  The line of
an offset is found by counting the beginnings at or before it, and its column
is the distance from the last of these.
-/

namespace Clipper

/-- A line and a column, counted from one; columns count bytes. -/
structure Location where
  line : Nat
  column : Nat
deriving DecidableEq

/-- A location is written `line:column`. -/
def Location.text (location : Location) : String :=
  toString location.line ++ ":" ++ toString location.column

/-- The offsets at which lines after the first begin. -/
structure LineTable where
  laterStarts : List Nat

namespace LineTable

/-- The offsets just after each line feed of a text that begins at `offset`. -/
def startsAfter (offset : Nat) : List Char → List Nat
  | [] => []
  | character :: rest =>
      let next := offset + character.utf8Size
      if character = '\n' then next :: startsAfter next rest
      else startsAfter next rest

/-- The line table of a text. -/
def ofText (text : List Char) : LineTable :=
  ⟨startsAfter 0 text⟩

/-- Walks along the line beginnings up to the line that holds an offset. -/
def locate
    (offset line start : Nat) :
    List Nat → Location
  | [] => ⟨line, offset - start + 1⟩
  | next :: rest =>
      if next ≤ offset then locate offset (line + 1) next rest
      else ⟨line, offset - start + 1⟩

/--
The line and column of an offset; offsets
past the end count on along the last line.
-/
def location
    (table : LineTable)
    (offset : Nat) :
    Location :=
  locate offset 1 0 table.laterStarts

end LineTable

end Clipper
