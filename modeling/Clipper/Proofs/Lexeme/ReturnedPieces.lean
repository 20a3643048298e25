import Clipper.Proofs.Lexeme.RespelledPieces
import Clipper.Proofs.Source.Returned

/-!
# Pieces and line ends

A carriage return before a line feed is a blank at the end of a line.  A piece
that opens neither space nor comment ends before it, and is the same with and
without the returns; space and block comments grow by the returns among them;
and a comment up to the end of its line takes the return of that end.

The lemmas compare a text with itself after every line feed was given its
return.  `pastReturn` is the text with returns, but for a return at its very
beginning, and it stands for the text that is ahead once the scanner has
passed such a return.  The rules that look for the end of a line look for its
line feed or for a return, so they stop at one of the two, which have only
blanks between them.
-/

namespace Clipper.Lexeme

open Clipper.Source

/-- A line that ends at once has its carriage return. -/
theorem eq_return_of_mem_firstLine
    (rest : List Char)
    (character : Char)
    (member : character ∈ firstLine (withReturns ('\n' :: rest))) :
    character = '\r' := by
  rw [withReturns_newline, firstLine_cons (by decide)] at member
  exact List.mem_singleton.mp member

/--
Carriage returns before line feeds respell the ends of lines, and no letter.
-/
def returning : Respelling where
  text := withReturns
  letter := id
  text_nil := withReturns_nil
  text_cons _ rest visible := withReturns_cons visible rest
  text_newline := eq_return_of_mem_firstLine
  letter_cases := Respelling.letter_cases_id

variable {text rest : List Char} {first : Char}

/-! ## Openings -/

/--
Whether a line begins at the end of a text does not depend on the line ends.
-/
theorem atLineStart_withReturns (done : List Char) :
    atLineStart (withReturns done).reverse = atLineStart done.reverse := by
  have stop (before : List Char) :
      atLineStart before =
        (before.dropWhile isBlank).head?.all (· == '\n') := by
    unfold atLineStart
    split
    · next none => rw [none, List.head?_nil, Option.all_none]
    · next some => rw [some, List.head?_cons, Option.all_some]
  rw [stop, stop, head?_dropWhile_reverse_withReturns rfl]

theorem head?_withReturns
    {mark : Char}
    (noLetter : mark.isAlpha = false)
    (visible : isSpace mark = false) :
    (withReturns text).head? = some mark ↔ text.head? = some mark :=
  head?_text_of_visible returning noLetter visible

/-- A text that begins with something visible still does so with its returns. -/
theorem isSpace_head?_withReturns
    (visible : ∀ character ∈ text.head?, isSpace character = false) :
    ∀ character ∈ (withReturns text).head?, isSpace character = false := by
  cases text with
  | nil => exact fun character member => by cases member
  | cons first rest =>
      have isVisible : isSpace first = false := visible first rfl
      have noNewline : first ≠ '\n' := by
        rintro rfl
        cases isVisible
      rw [withReturns_cons noNewline]
      exact visible

/-- How a piece opens does not depend on the line ends behind it. -/
theorem Opening.of_withReturns
    {before other : List Char}
    (sameStart : first = '*' → atLineStart other = atLineStart before) :
    Opening.of other first (withReturns rest) = Opening.of before first rest :=
  Opening.of_respelled returning sameStart

/-! ## Block comments -/

/-- A block comment grows by the carriage returns in it. -/
theorem commentLength?_withReturns (text : List Char) :
    commentLength? (withReturns text) =
      (commentLength? text).map
        (fun length => (withReturns (text.take length)).length) := by
  fun_induction commentLength? text with
  | case1 => rfl
  | case2 rest =>
      rw [withReturns_cons (by decide), withReturns_cons (by decide)]
      rfl
  | case3 first rest goesOn hypothesis =>
      by_cases isNewline : first = '\n'
      · subst isNewline
        rw [withReturns_newline, commentLength?_cons (by simp),
          commentLength?_cons (by simp), hypothesis, Option.map_map,
          Option.map_map, Option.map_map]
        rfl
      · have open_ : first = '*' → (withReturns rest).head? ≠ some '/' := by
          rintro rfl ends
          rw [head?_withReturns rfl rfl] at ends
          obtain ⟨later, rfl⟩ := List.head?_eq_some_iff.mp ends
          exact goesOn later rfl rfl
        rw [withReturns_cons isNewline, commentLength?_cons open_, hypothesis,
          Option.map_map, Option.map_map]
        refine congrArg (fun grow => Option.map grow _)
          (funext fun length => ?_)
        simp [withReturns_cons isNewline]

/--
A block comment grows by the returns among its line feeds,
and keeps its content.
-/
theorem blockCommentPiece_withReturns (star : rest.head? = some '*') :
    blockCommentPiece (withReturns rest) =
      ⟨(withReturns (rest.take (blockCommentPiece rest).extra)).length,
        (blockCommentPiece rest).content⟩ := by
  obtain ⟨inside, rfl⟩ := List.head?_eq_some_iff.mp star
  have visible : '*' ≠ '\n' := by decide
  simp only [blockCommentPiece, withReturns_cons visible, List.drop_one,
    List.tail_cons, commentLength?_withReturns]
  cases commentLength? inside with
  | none => simp [withReturns_cons visible]
  | some length => simp [withReturns_cons visible, Nat.add_comm 1]

/-! ## Semicolons -/

/-- A return at the beginning of a text opens no comment and hides none. -/
theorem opensLineComment_pastReturn (text : List Char) :
    opensLineComment (pastReturn text) = opensLineComment text := by
  cases text with
  | nil => rfl
  | cons first rest =>
      by_cases isNewline : first = '\n'
      · subst isNewline
        rfl
      · rw [pastReturn_cons isNewline, Bool.eq_iff_iff, opensLineComment_cons,
          opensLineComment_cons, head?_withReturns rfl rfl,
          head?_withReturns rfl rfl]

/--
The carriage return of a line is a blank, or belongs to the comment at its end.
-/
theorem afterBlanksAndComment_withReturns (text : List Char) :
    afterBlanksAndComment (withReturns text) =
      pastReturn (afterBlanksAndComment text) := by
  have blanks : (withReturns text).dropWhile isBlank =
      pastReturn (text.dropWhile isBlank) :=
    dropWhile_withReturns_of_stops rfl rfl text
  simp only [afterBlanksAndComment, blanks, opensLineComment_pastReturn]
  generalize text.dropWhile isBlank = line
  split
  · next opens =>
      cases line with
      | nil => cases opens
      | cons first rest =>
          have visible : first ≠ '\n' := by
            rintro rfl
            cases opens
          rw [pastReturn_cons visible, ← withReturns_cons visible,
            dropWhile_withReturns_of_stops (by decide) (by decide)]
  · rfl

/--
A semicolon continues its line with returns if and only if it
does so without them.
-/
theorem continuesLine_withReturns (text : List Char) :
    continuesLine (';' :: withReturns text) = continuesLine (';' :: text) := by
  rw [continuesLine, continuesLine, afterBlanksAndComment_withReturns]
  cases afterBlanksAndComment text with
  | nil => rfl
  | cons first next =>
      by_cases isNewline : first = '\n'
      · subst isNewline
        change (firstLine (withReturns next)).any _ = (firstLine next).any _
        rw [firstLine_withReturns, List.any_append]
        split <;> simp [isBlank]
      · rw [pastReturn_cons isNewline]
        split
        · next shape => exact absurd (List.cons.inj shape).1 isNewline
        · split
          · next shape => exact absurd (List.cons.inj shape).1 isNewline
          · rfl

/-! ## Pieces -/

/--
A piece that opens neither space nor comment
does not depend on the line ends behind it.
-/
theorem cutPiece_withReturns
    {before other : List Char}
    {offset place : Nat}
    (visible : first ≠ '\n')
    (sameStart : first = '*' → atLineStart other = atLineStart before)
    (noGap : (Opening.of before first rest).isGap = false) :
    (cutPiece .plain () other place first (withReturns rest)).1 =
      (cutPiece .plain () before offset first rest).1 := by
  by_cases semicolon : Opening.of before first rest = .semicolon
  · rw [cutPiece, cutPiece, Opening.of_withReturns sameStart, semicolon]
    simp only [semicolonPiece, continuesLine_withReturns]
  · calc
      (cutPiece .plain () other place first (withReturns rest)).1 =
          (cutPiece .plain () before offset first rest).1.respelled id :=
        cutPiece_respelled returning visible sameStart noGap semicolon
      _ = (cutPiece .plain () before offset first rest).1 :=
        Piece.respelled_id _

end Clipper.Lexeme
