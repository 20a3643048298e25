import Clipper.Proofs.Directive.LetterCase
import Clipper.Proofs.Grammar.RelabelledReadings

/-!
# Letter case does not matter

A text in lower case has the same lexemes at the same places, with their texts
in lower case; and a program is read from the kinds of its tokens and from names
that are compared without regard to case.  So two texts that differ in the case
of letters have analyses that differ in the case of the texts which they quote.

To lower a text is a respelling of its characters that keeps line feeds and
widths, and the scanner, the directives and the grammar each commute with it.
The statement about two texts comes from this by a step through the lowered
text, which is the same for both.  Quoted strings are lowered too, since the
statement does not tell them from other text.
-/

namespace Clipper

open Grammar Source
open Relabelled (relabel)

namespace Analysis

/--
Two analyses that find the same, but for the case of the texts which they quote.
-/
structure SameButCase (analysis other : Analysis) : Prop where
  tokens :
    List.Forall₂
      (fun one another : Token =>
        one.kind = another.kind ∧ one.span = another.span ∧
          sameIgnoringCase one.lexeme another.lexeme = true)
      analysis.tokens other.tokens
  faults :
    List.Forall₂
      (fun one another : Fault × Span =>
        one.1.respelled Char.toLower = another.1.respelled Char.toLower ∧
        one.2 = another.2)
      analysis.faults other.faults
  reports :
    List.Forall₂
      (fun one another : Report =>
        relabel .lowered one.cause = relabel .lowered another.cause ∧
        one.span = another.span)
      analysis.reading.reports other.reading.reports
  program : relabel .lowered analysis.reading.value =
    relabel .lowered other.reading.value

theorem lexemes_ofText_lowered
    (stripDirectives : Bool)
    (text : List Char) :
    (ofText stripDirectives (lowered text)).lexemes =
      (ofText stripDirectives text).lexemes.map Lexeme.inLowerCase := by
  cases stripDirectives with
  | false => exact Lexeme.all_lowered text
  | true => exact Directive.allOutsideDirectives_lowered text

theorem tokens_ofText_lowered
    (stripDirectives : Bool)
    (text : List Char) :
    (ofText stripDirectives (lowered text)).tokens =
      (ofText stripDirectives text).tokens.map (relabel .lowered) := by
  rw [tokens, lexemes_ofText_lowered, Lexeme.tokens, List.map_map, tokens,
    Lexeme.tokens, List.map_map]
  rfl

/--
A text in lower case has the faults of the text, at the same places, which
quote it in lower case.
-/
theorem faults_ofText_lowered
    (stripDirectives : Bool)
    (text : List Char) :
    (ofText stripDirectives (lowered text)).faults =
      (ofText stripDirectives text).faults.map
        (fun fault => (fault.1.respelled Char.toLower, fault.2)) := by
  rw [faults, lexemes_ofText_lowered, Lexeme.faults, List.filterMap_map, faults,
    Lexeme.faults, List.map_filterMap]
  refine List.filterMap_congr fun lexeme _ => ?_
  obtain ⟨token, fault?⟩ := lexeme
  cases fault? <;> rfl

/--
What is read of a text in lower case is what is read of the text, in lower case.
-/
theorem reading_ofText_lowered
    (stripDirectives : Bool)
    (text : List Char) :
    (ofText stripDirectives (lowered text)).reading =
      relabel .lowered (ofText stripDirectives text).reading := by
  change readProgram (ofText stripDirectives (lowered text)).tokens = _
  rw [tokens_ofText_lowered, readProgram_relabel]
  rfl

end Analysis

/--
Lists with the same images under a function correspond element by element.
-/
theorem forall₂_of_map_eq
    {α β : Type}
    {image : α → β}
    {first second : List α}
    (same : first.map image = second.map image) :
    List.Forall₂ (fun one other => image one = image other) first second := by
  rw [← List.forall₂_eq_eq_eq, List.forall₂_map_left_iff,
    List.forall₂_map_right_iff] at same
  exact same

/--
Letter case does not matter, with or without the directives removed: the
analyses of two texts that differ in the case of ASCII letters at most have
tokens of the same kinds at the same spans, the same faults at the same spans,
reports of the same causes at the same spans, and the same program at the same
spans.  They differ in the case of the texts of tokens, of the words that faults
and reports quote, and of names and literals at most.
-/
theorem letterCase_immaterial
    (stripDirectives : Bool)
    (first second : List Char)
    (alike : lowered first = lowered second) :
    (Analysis.ofText stripDirectives first).SameButCase
      (Analysis.ofText stripDirectives second) := by
  have tokens := Analysis.tokens_ofText_lowered stripDirectives first
  have faults := Analysis.faults_ofText_lowered stripDirectives first
  have reading := Analysis.reading_ofText_lowered stripDirectives first
  rw [alike, Analysis.tokens_ofText_lowered] at tokens
  rw [alike, Analysis.faults_ofText_lowered] at faults
  rw [alike, Analysis.reading_ofText_lowered] at reading
  have reports : (Analysis.ofText stripDirectives first).reading.reports.map
      (relabel .lowered) =
      (Analysis.ofText stripDirectives second).reading.reports.map
        (relabel .lowered) :=
    (congrArg Reading.reports reading).symm
  refine ⟨?_, ?_, ?_, (congrArg Reading.value reading).symm⟩
  · refine (forall₂_of_map_eq tokens.symm).imp fun one another same => ?_
    obtain ⟨kind, span, lexeme⟩ := Token.mk.inj same
    exact ⟨kind, span, beq_iff_eq.mpr lexeme⟩
  · exact (forall₂_of_map_eq faults.symm).imp fun _ _ same => Prod.mk.inj same
  · exact (forall₂_of_map_eq reports).imp fun _ _ same => Report.mk.inj same

/--
A directive, a loop with its counter named
again, and a dot word without a meaning.
-/
theorem letterCase_immaterial_counter :
    (Analysis.ofText true
      "#Define A\nFOR i := .T. TO .X.\nNEXT I".toList).SameButCase
      (Analysis.ofText true "#DEFINE a\nfor I := .t. to .x.\nNext i".toList) :=
  letterCase_immaterial true _ _ (by decide)

end Clipper
