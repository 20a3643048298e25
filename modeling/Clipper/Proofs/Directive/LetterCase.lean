import Clipper.Analysis
import Clipper.Proofs.Lexeme.LetterCase

/-!
# Directives and letter case

The lines of a text in lower case are marked as before, since the names of
directives are looked up in lower case and no letter is a blank.  So the lines
that are kept stand at the same offsets, and lead back to the same spans of the
source text.

The lines of the text in lower case are those of the text, each in lower case,
because a line feed is no letter.  A line in lower case keeps its mark, and
the width of its text.  So both texts have the same segments, and the scanner
finds the lowered text where it found the text.
-/

namespace Clipper.Directive

open Clipper.Source

/-! ## Lines -/

theorem ignoresCase_isBlank : IgnoresCase Text.isBlank :=
  .of_capitals (by decide)

/-- The lines of a text in lower case are its lines in lower case. -/
theorem lines_lowered (source : List Char) :
    lines (lowered source) = (lines source).map lowered := by
  induction source with
  | nil => rfl
  | cons character rest hypothesis =>
      rw [lowered_cons, lines, lines, hypothesis]
      by_cases feed : character = '\n'
      · subst feed
        rfl
      · have noFeed : character.toLower ≠ '\n' := by
          rwa [ne_eq, toLower_eq_iff rfl]
        rw [if_neg feed, if_neg noFeed]
        cases lines rest <;> rfl

theorem trimStart_lowered (line : List Char) :
    Text.trimStart (lowered line) = lowered (Text.trimStart line) :=
  dropWhile_lowered ignoresCase_isBlank line

theorem trimEnd_lowered (line : List Char) :
    Text.trimEnd (lowered line) = lowered (Text.trimEnd line) := by
  rw [Text.trimEnd, Text.trimEnd, reverse_lowered,
    dropWhile_lowered ignoresCase_isBlank, reverse_lowered]

/--
A line opens a directive in any case of letters: the name behind the `#` is
compared in lower case, and blanks have no case.
-/
theorem opensDirective_lowered (line : List Char) :
    opensDirective (lowered line) = opensDirective line := by
  rw [opensDirective, opensDirective, trimStart_lowered]
  cases Text.trimStart line with
  | nil => rfl
  | cons first rest =>
      by_cases opens : first = '#'
      · subst opens
        change names.contains (lowerCase (String.ofList
          ((Text.trimStart (lowered rest)).takeWhile Char.isAlpha))) = _
        rw [trimStart_lowered, takeWhile_lowered ignoresCase_isAlpha,
          lowerCase_ofList_lowered]
        rfl
      · have opensNot : first.toLower ≠ '#' := by
          rwa [ne_eq, toLower_eq_iff rfl]
        simp [opens, opensNot]

theorem isContinued_lowered (line : List Char) :
    isContinued (lowered line) = isContinued line := by
  rw [isContinued, isContinued, trimEnd_lowered, Bool.eq_iff_iff,
    beq_iff_eq, beq_iff_eq, ← List.head?_reverse, ← List.head?_reverse,
    reverse_lowered, head?_lowered_iff rfl]

/-- The line in lower case. -/
def Line.inLowerCase (line : Line) : Line :=
  { line with text := lowered line.text }

/--
Lines in lower case are marked as they were, whether or not the line before
them is a directive that goes on.
-/
theorem markFrom_lowered
    (inside : Bool)
    (texts : List (List Char)) :
    markFrom inside (texts.map lowered) =
      (markFrom inside texts).map Line.inLowerCase := by
  induction texts generalizing inside with
  | nil => rfl
  | cons text rest hypothesis =>
      rw [List.map_cons, markFrom, markFrom, opensDirective_lowered,
        isContinued_lowered, hypothesis, hypothesis]
      split <;> rfl

theorem mark_lowered (source : List Char) :
    mark (lowered source) = (mark source).map Line.inLowerCase := by
  rw [mark, mark, lines_lowered, markFrom_lowered]

/-! ## Kept lines -/

theorem keptText_inLowerCase (lines : List Line) :
    keptText (lines.map Line.inLowerCase) = lowered (keptText lines) := by
  rw [keptText, keptText, List.filter_map, List.flatMap_map, lowered,
    List.map_flatMap]
  rfl

/-- Lines in lower case are as long as the lines. -/
theorem segmentsFrom_inLowerCase
    (filtered original : Nat)
    (lines : List Line) :
    segmentsFrom filtered original (lines.map Line.inLowerCase) =
      segmentsFrom filtered original lines := by
  induction lines generalizing filtered original with
  | nil => rfl
  | cons line rest hypothesis =>
      have width : byteWidth line.inLowerCase.text = byteWidth line.text :=
        byteWidth_lowered line.text
      rw [List.map_cons, segmentsFrom, segmentsFrom, width,
        hypothesis, hypothesis]
      rfl

/--
The text without its directives is in lower
case, and comes from the same places.
-/
theorem ofSource_lowered (source : List Char) :
    Filtered.ofSource (lowered source) =
      { Filtered.ofSource source
        with text := lowered (Filtered.ofSource source).text } := by
  rw [Filtered.ofSource, Filtered.ofSource, mark_lowered, keptText_inLowerCase,
    segmentsFrom_inLowerCase, byteWidth_lowered]

theorem place_lowered
    (filtered : Filtered)
    (span : Span) :
    Filtered.place { filtered with text := lowered filtered.text } span =
      filtered.place span := by
  rw [Filtered.place, Filtered.place, Filtered.place?,
    Filtered.place?, byteWidth_lowered]
  rfl

/--
Outside directives, the lexemes of a text in lower case are those of the text.
-/
theorem allOutsideDirectives_lowered (source : List Char) :
    Lexeme.allOutsideDirectives (lowered source) =
      (Lexeme.allOutsideDirectives source).map Lexeme.inLowerCase := by
  simp only [Lexeme.allOutsideDirectives, ofSource_lowered]
  rw [Lexeme.all_lowered, List.map_map, List.map_map]
  refine List.map_congr_left fun lexeme _ => ?_
  exact congrArg lexeme.inLowerCase.moveTo (place_lowered _ _)

end Clipper.Directive
