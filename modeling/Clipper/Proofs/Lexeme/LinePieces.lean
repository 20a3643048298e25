import Clipper.Proofs.Lexeme.RespelledPieces

/-!
# Pieces that are told by their line

Most pieces do not look behind the end of their line: they are the same before
every text that begins with the same line.  Spaces and block comments go on
behind it, and a semicolon looks at the next line.

So a lemma about the pieces of one line, such as that a respelling or a
carriage return does nothing to them, can be proved for a text of one line and
then used in every text.  An opening tells whether its piece is of this sort:
`isOnLine` is false for the three sorts that look further, and the lemma for
each other sort is a short one, about a run on the line.
-/

namespace Clipper.Lexeme

open Clipper.Source

@[simp]
theorem firstLine_firstLine (text : List Char) :
    firstLine (firstLine text) = firstLine text :=
  List.takeWhile_idem ..

/--
To keep the first line of a text alone is to
respell the ends of its lines, and no letter.
-/
def lineAlone : Respelling where
  text := firstLine
  letter := id
  text_nil := rfl
  text_cons _ rest inLine := firstLine_cons inLine rest
  text_newline _ _ member := by cases member
  letter_cases := Respelling.letter_cases_id

/-- The openings of pieces that are told by their line. -/
def Opening.isOnLine : Opening → Bool
  | .space | .blockComment | .semicolon => false
  | _ => true

variable {before other rest following : List Char} {first : Char}
    {offset place : Nat}

/-- How a piece opens is told by its line and by the line before it. -/
theorem Opening.of_firstLine
    (sameStart : first = '*' → atLineStart other = atLineStart before) :
    Opening.of other first (firstLine rest) = Opening.of before first rest :=
  Opening.of_respelled lineAlone sameStart

/--
A piece on its line is the same in a text that is cut off behind the line.
The place does not matter, and what stands before it matters to a star only.
-/
theorem cutPiece_firstLine
    (visible : first ≠ '\n')
    (sameStart : first = '*' → atLineStart other = atLineStart before)
    (onLine : (Opening.of before first rest).isOnLine = true) :
    (cutPiece .plain () other place first (firstLine rest)).1 =
      (cutPiece .plain () before offset first rest).1 := by
  have opensAlike : Opening.of other first (firstLine rest) =
      Opening.of before first rest :=
    Opening.of_firstLine sameStart
  cases opening : Opening.of before first rest with
  | space | blockComment | semicolon =>
      rw [opening] at onLine
      cases onLine
  | lineComment | starComment =>
      rw [cutPiece, cutPiece, opensAlike, opening]
      simp only [lineCommentPiece, firstLine_firstLine]
  | _ =>
      have noGap : (Opening.of before first rest).isGap = false := by
        rw [opening]
        rfl
      have noSemicolon : Opening.of before first rest ≠ .semicolon := by
        rw [opening]
        decide
      calc
        (cutPiece .plain () other place first (firstLine rest)).1 =
            (cutPiece .plain () before offset first rest).1.respelled id :=
          cutPiece_respelled lineAlone visible sameStart noGap noSemicolon
        _ = (cutPiece .plain () before offset first rest).1 :=
          Piece.respelled_id _

/--
A piece that is told by its line is the same
before texts that begin with the same line.
-/
theorem cutPiece_of_line
    (sameLine : firstLine following = firstLine rest)
    (visible : first ≠ '\n')
    (sameStart : first = '*' → atLineStart other = atLineStart before)
    (onLine : (Opening.of before first rest).isOnLine = true) :
    (cutPiece .plain () other place first following).1 =
      (cutPiece .plain () before offset first rest).1 := by
  have sameOpening : Opening.of other first following =
      Opening.of before first rest :=
    calc
      Opening.of other first following =
        Opening.of other first (firstLine following) :=
          (Opening.of_firstLine fun _ => rfl).symm
      _ = Opening.of other first (firstLine rest) := by rw [sameLine]
      _ = Opening.of before first rest := Opening.of_firstLine sameStart
  calc
    (cutPiece .plain () other place first following).1 =
        (cutPiece .plain () other place first (firstLine following)).1 :=
      (cutPiece_firstLine visible (fun _ => rfl) (sameOpening ▸ onLine)).symm
    _ = (cutPiece .plain () other place first (firstLine rest)).1 := by
      rw [sameLine]
    _ = (cutPiece .plain () before offset first rest).1 :=
      cutPiece_firstLine visible sameStart onLine

end Clipper.Lexeme
