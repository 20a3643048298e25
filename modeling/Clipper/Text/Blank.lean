/-!
# White space

The characters that the Unicode standard calls white space.  They are trimmed
from the ends of a line when it is tested for a preprocessor directive.

They are given as ranges of code points.  Tokens are told apart by another and
smaller set of blanks, so a line may be a directive with blanks in front of it
that no token could follow.
-/

namespace Clipper.Text

/-- The ranges of code points with the property White_Space. -/
def blankRanges : List (Nat × Nat) :=
  [(0x09, 0x0D), (0x20, 0x20), (0x85, 0x85), (0xA0, 0xA0), (0x1680, 0x1680),
    (0x2000, 0x200A), (0x2028, 0x2029), (0x202F, 0x202F), (0x205F, 0x205F),
    (0x3000, 0x3000)]

/-- A character is blank when it is white space. -/
def isBlank (character : Char) : Bool :=
  blankRanges.any
    (fun (first, last) =>
      decide (first ≤ character.toNat) && decide (character.toNat ≤ last))

/-- A text without the blanks at its beginning. -/
def trimStart (text : List Char) : List Char :=
  text.dropWhile isBlank

/-- A text without the blanks at its end. -/
def trimEnd (text : List Char) : List Char :=
  (text.reverse.dropWhile isBlank).reverse

end Clipper.Text
