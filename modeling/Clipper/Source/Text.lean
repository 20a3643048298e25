/-!
# Source text with byte offsets

A source text is a list of characters.  Offsets count the bytes of its UTF-8
form, so a character has a width between one and four.  This module measures
pieces of text, cuts a text at an offset and finds the end of a line.

A cut keeps what stands before it in reverse, so that the next character on
either side is at hand.  To go to an offset is a walk from the beginning; the
offset may fall inside a character, and then there is no cut at it.
-/

namespace Clipper.Source

/-- The number of bytes of a piece of text in UTF-8. -/
def byteWidth : List Char → Nat
  | [] => 0
  | character :: rest => character.utf8Size + byteWidth rest

@[simp]
theorem byteWidth_append
    (first second : List Char) :
    byteWidth (first ++ second) = byteWidth first + byteWidth second := by
  induction first with
  | nil => simp [byteWidth]
  | cons character rest hypothesis =>
      simp only [List.cons_append, byteWidth, hypothesis]
      omega

/--
A text cut in two: the part before the cut is kept nearest character first.
-/
structure Cut where
  /-- The characters before the cut, the nearest first. -/
  before : List Char
  /-- The characters after the cut. -/
  after : List Char
  /-- The byte offset of the cut. -/
  offset : Nat

namespace Cut

/-- The cut before the first character. -/
def ofText (text : List Char) : Cut :=
  ⟨[], text, 0⟩

/-- Moves the cut over one character, or leaves it at the end. -/
def next (cut : Cut) : Cut :=
  match cut.after with
  | [] => cut
  | character :: rest =>
      ⟨character :: cut.before, rest, cut.offset + character.utf8Size⟩

/-- Moves the cut over `count` characters, or to the end. -/
def skip : Nat → Cut → Cut
  | 0, cut => cut
  | count + 1, cut => cut.next.skip count

end Cut

/-- Looks for the first cut at or after an offset, along the rest of a text. -/
def seek
    (offset : Nat)
    (before : List Char)
    (position : Nat) :
    List Char → Cut
  | [] => ⟨before, [], position⟩
  | character :: rest =>
      if offset ≤ position then ⟨before, character :: rest, position⟩
      else seek offset (character :: before)
        (position + character.utf8Size) rest

/--
The first place between two characters at or after an offset.  An offset past
the end leads to the end.
-/
def cutFrom
    (text : List Char)
    (offset : Nat) :
    Cut :=
  seek offset [] 0 text

/--
The cut exactly at an offset, if the offset
is between two characters of the text.
-/
def cutAt?
    (text : List Char)
    (offset : Nat) :
    Option Cut :=
  let cut := cutFrom text offset
  if cut.offset = offset then some cut else none

/-- The part of a text up to its first line feed. -/
def firstLine (text : List Char) : List Char :=
  text.takeWhile (· != '\n')

/--
The offset of the first line feed at or
after `offset`, or of the end of the text.
-/
def lineEnd
    (text : List Char)
    (offset : Nat) :
    Nat :=
  let cut := cutFrom text offset
  cut.offset + byteWidth (firstLine cut.after)

/-- The offset of the last occurrence of a character, counted from `offset`. -/
def lastOffset?
    (character : Char)
    (offset : Nat) :
    List Char → Option Nat
  | [] => none
  | head :: rest =>
      match lastOffset? character (offset + head.utf8Size) rest with
      | some found => some found
      | none => if head = character then some offset else none

/--
The ASCII lower-case form of a text; characters outside ASCII keep their form.
-/
def lowerCase (text : String) : String :=
  text.map Char.toLower

/-- Two texts that differ at most in the case of their ASCII letters. -/
def sameIgnoringCase (first second : String) : Bool :=
  lowerCase first == lowerCase second

end Clipper.Source
