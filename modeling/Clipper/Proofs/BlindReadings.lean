import Clipper.Analysis
import Clipper.Proofs.Grammar.Handover

/-!
# What is read does not depend on places

Tokens that agree in kinds and lexemes are the same after the blind relabelling,
which moves all offsets to zero.  A relabelling commutes with reading, so such
tokens give the same program and the same causes of reports, wherever they
stand. Directives that are cut out of a text before its analysis move tokens,
and do nothing else.

The analysis of a text without its directives is the case of interest.  It is
read from tokens that were moved back to the source text, and the filtered
text read by itself gives the tokens at their own places.  Both lists agree in
kinds and lexemes, one by one, so the two programs have the same outline and
the two readings the same causes.
-/

namespace Clipper

open Relabelled (relabel)
open Grammar

/-! ## Tokens -/

/-- Two tokens that differ in their places at most. -/
structure Token.Alike (first second : Token) : Prop where
  kind_eq : first.kind = second.kind
  lexeme_eq : first.lexeme = second.lexeme

namespace Token.Alike

variable {first second : Token}

theorem relabel_blind_eq (alike : first.Alike second) :
    relabel .blind first = relabel .blind second := by
  rcases first with ⟨kind, span, lexeme⟩
  rcases second with ⟨otherKind, otherSpan, otherLexeme⟩
  cases alike.kind_eq
  cases alike.lexeme_eq
  rfl

/-- Tokens that agree one by one are the same after the blind relabelling. -/
theorem map_relabel_blind_eq
    {first second : List Token}
    (alike : List.Forall₂ Token.Alike first second) :
    first.map (relabel .blind) = second.map (relabel .blind) := by
  induction alike with
  | nil => rfl
  | cons head _ hypothesis =>
      rw [List.map_cons, List.map_cons, head.relabel_blind_eq, hypothesis]

end Token.Alike

/-! ## Readings -/

/-- Two readings that differ in places at most. -/
structure Grammar.Reading.Alike (first second : Reading Program) : Prop where
  program_eq : relabel .blind first.value = relabel .blind second.value
  outline_eq : first.value.outline = second.value.outline
  listing_eq : first.value.listing = second.value.listing
  causes_eq : first.reports.map Report.cause = second.reports.map Report.cause

namespace Grammar.Reading.Alike

/-- What is the same after the blind relabelling differs in places at most. -/
theorem of_blind
    {first second : Reading Program}
    (same : relabel .blind first = relabel .blind second) :
    first.Alike second := by
  have program : relabel .blind first.value = relabel .blind second.value :=
    congrArg Reading.value same
  have statements :
      first.value.statements.map (relabel .blind) =
        second.value.statements.map (relabel .blind) :=
    congrArg Program.statements program
  have reports : first.reports.map (relabel .blind) =
      second.reports.map (relabel .blind) :=
    congrArg Reading.reports same
  constructor
  · exact program
  · exact outlines_eq_of_blind statements 0
  · exact listing_eq_of_blind program
  · exact causes_eq_of_blind reports

end Grammar.Reading.Alike

/-- Tokens that agree one by one are read alike. -/
theorem Grammar.readProgram_alike
    {first second : List Token}
    (alike : List.Forall₂ Token.Alike first second) :
    (readProgram first).Alike (readProgram second) := by
  apply Reading.Alike.of_blind
  rw [← readProgram_relabel, ← readProgram_relabel,
    Token.Alike.map_relabel_blind_eq alike]

/-! ## Analyses -/

/-- Two analyses that differ in places at most. -/
structure Analysis.Alike (first second : Analysis) : Prop where
  tokens_alike : List.Forall₂ Token.Alike first.tokens second.tokens
  faults_eq : first.faults.map Prod.fst = second.faults.map Prod.fst
  reading_alike : first.reading.Alike second.reading

/--
Lexemes that are moved to other places have tokens that agree with theirs.
-/
theorem Lexeme.alike_of_moved
    (place : Span → Span)
    (lexemes : List Lexeme) :
    List.Forall₂ Token.Alike
      (tokens (lexemes.map
        (fun lexeme => lexeme.moveTo (place lexeme.token.span))))
      (tokens lexemes) := by
  rw [tokens, tokens, List.map_map, List.forall₂_map_left_iff,
    List.forall₂_map_right_iff]
  exact List.forall₂_same.mpr fun lexeme _ => ⟨rfl, rfl⟩

/-- Moved lexemes have the same faults. -/
theorem Lexeme.faults_of_moved
    (place : Span → Span)
    (lexemes : List Lexeme) :
    (faults (lexemes.map
      (fun lexeme => lexeme.moveTo (place lexeme.token.span)))).map Prod.fst =
      (faults lexemes).map Prod.fst := by
  have same (lexeme : Lexeme) (span : Span) :
      (lexeme.moveTo span).spannedFault?.map Prod.fst =
        lexeme.spannedFault?.map Prod.fst := by
    rw [spannedFault?, spannedFault?, Option.map_map, Option.map_map]
    rfl
  rw [faults, faults, List.map_filterMap, List.map_filterMap,
    List.filterMap_map]
  exact List.filterMap_congr fun lexeme _ => same lexeme _

/--
Cutting the directives out before the analysis
moves what is found, and does nothing else.
-/
theorem Analysis.ofText_alike (text : List Char) :
    (ofText true text).Alike
      (ofText false (Directive.Filtered.ofSource text).text) := by
  have moved :
      List.Forall₂ Token.Alike (ofText true text).tokens
        (ofText false (Directive.Filtered.ofSource text).text).tokens :=
    Lexeme.alike_of_moved _ _
  constructor
  · exact moved
  · exact Lexeme.faults_of_moved _ _
  · exact readProgram_alike moved

/--
Reading does not look at places: tokens that agree in kinds and lexemes give
programs that are equal up to places and the same causes of reports.  So an
analysis that strips directives finds, up to places, what an analysis of the
text without its directives finds.
-/
theorem reading_ignores_places :
    (∀ first second : List Token, List.Forall₂ Token.Alike first second →
        (readProgram first).Alike (readProgram second)) ∧
      ∀ text : List Char,
        (Analysis.ofText true text).Alike
          (Analysis.ofText false (Directive.Filtered.ofSource text).text) := by
  constructor
  · intro first second alike
    exact readProgram_alike alike
  · intro text
    exact Analysis.ofText_alike text

end Clipper
