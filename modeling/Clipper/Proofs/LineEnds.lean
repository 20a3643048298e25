import Clipper.Check
import Clipper.Proofs.Diagnostics
import Clipper.Proofs.Directive.ReturnedLines
import Clipper.Proofs.Grammar.RelabelledReadings
import Clipper.Proofs.Syntax.Blind

/-!
# Line ends do not matter

An analysis finds in a text with carriage returns what it finds in the text
without them: its lexemes have moved with their text, and so has all that is
read from them.  As every offset keeps its line and column when it moves, the
diagnostics are printed alike. Only a block comment without an end is quoted
with its line ends.

A relabelling moves the offsets of the text to the offsets in the text with
returns: each return that comes before an offset adds one byte.  Every part of
the analysis commutes with it, from the lexemes over the reports to the
diagnostics.  As the lines begin behind line feeds and returns are counted at
their ends, the column of an offset is kept too.
-/

namespace Clipper

open Grammar Source
open Relabelled (relabel)

instance (text : List Char) : (Relabelling.returned text).KeepsTexts :=
  ⟨fun _ lexeme sound => Relabelling.lexeme_returned sound text lexeme⟩

/-! ## Analyses -/

instance : Relabelled Analysis where
  relabel change analysis :=
    ⟨relabel change analysis.lexemes, relabel change analysis.reading⟩

instance : Relabelled Diagnostic where
  relabel change diagnostic :=
    { diagnostic with span := relabel change diagnostic.span }

namespace Analysis

/--
With the returns, an analysis finds the same
at the places to which the text has moved.
-/
theorem ofText_withReturns
    (stripDirectives : Bool)
    (text : List Char) :
    ofText stripDirectives (withReturns text) =
      relabel (.returned text) (ofText stripDirectives text) := by
  have lexemes :
      (ofText stripDirectives (withReturns text)).lexemes =
        (ofText stripDirectives text).lexemes.map
          (relabel (.returned text)) := by
    cases stripDirectives with
    | false => exact Lexeme.all_withReturns text
    | true => exact Directive.allOutsideDirectives_withReturns text
  have tokens :
      Lexeme.tokens
        ((ofText stripDirectives text).lexemes.map (relabel (.returned text))) =
        (ofText stripDirectives text).tokens.map
          (relabel (.returned text)) := by
    rw [Lexeme.tokens, List.map_map, Analysis.tokens, Lexeme.tokens,
      List.map_map]
    rfl
  have reading :
      (ofText stripDirectives (withReturns text)).reading =
        relabel (.returned text) (ofText stripDirectives text).reading := by
    change readProgram
      (Lexeme.tokens (ofText stripDirectives (withReturns text)).lexemes) = _
    rw [lexemes, tokens, readProgram_relabel]
    rfl
  change Analysis.mk _ _ = Analysis.mk _ _
  exact congrArg₂ Analysis.mk lexemes reading

section

variable (change : Relabelling) (analysis : Analysis)

theorem faults_relabel :
    (relabel change analysis).faults =
      analysis.faults.map (fun fault => (fault.1, relabel change fault.2)) := by
  change (analysis.lexemes.map (relabel change)).filterMap
    Lexeme.spannedFault? = _
  rw [List.filterMap_map, faults, Lexeme.faults, List.map_filterMap]
  refine List.filterMap_congr fun lexeme _ => ?_
  rw [Lexeme.spannedFault?, Option.map_map]
  exact rfl

theorem ofReport?_relabel (report : Report) :
    ofReport? (relabel change report) =
      (ofReport? report).map (relabel change) := by
  obtain ⟨cause, span⟩ := report
  cases cause <;> rfl

/--
Where offsets keep their order, the
diagnostics are those of the analysis, moved.
-/
theorem diagnostics_relabel (strict : StrictMono change.offset) :
    (relabel change analysis).diagnostics =
      analysis.diagnostics.map (relabel change) := by
  have recorded :
      (relabel change analysis).faults.map ofFault ++
          (relabel change analysis).reading.reports.filterMap ofReport? =
        (analysis.faults.map ofFault ++
          analysis.reading.reports.filterMap ofReport?).map
          (relabel change) := by
    rw [List.map_append, faults_relabel, List.map_map, List.map_map,
      List.map_filterMap]
    refine congrArg₂ (· ++ ·) rfl ?_
    change (analysis.reading.reports.map (relabel change)).filterMap ofReport? =
      _
    rw [List.filterMap_map]
    exact List.filterMap_congr fun report _ => ofReport?_relabel change report
  rw [diagnostics, diagnostics, recorded, List.map_mergeSort]
  intro first _ second _
  exact decide_eq_decide.mpr strict.le_iff_le.symm

end

/-! ## Texts with line feeds -/

/-- Of all lexemes only a comment without an end has line feeds in its text. -/
theorem lexeme_withReturns
    {stripDirectives : Bool}
    {text : List Char}
    {lexeme : Lexeme}
    (member : lexeme ∈ (ofText stripDirectives text).lexemes)
    (closed : lexeme.fault? ≠ some .openComment) :
    (Relabelling.returned text).lexeme lexeme.token.kind lexeme.token.lexeme =
      lexeme.token.lexeme := by
  have inText
      {text : List Char}
      {lexeme : Lexeme}
      (member : lexeme ∈ Lexeme.all text)
      (closed : lexeme.fault? ≠ some .openComment)
      (error : lexeme.token.kind = .error) :
      withReturns lexeme.token.lexeme.toList = lexeme.token.lexeme.toList := by
    have notEnd : lexeme.token.kind ≠ .endOfFile := by
      rw [error]
      decide
    obtain ⟨before, first, tail, after, madeOf⟩ :=
      Lexeme.exists_madeOf member notEnd
    rw [madeOf.fits.asFault error, String.toList_ofList]
    exact withReturns_of_oneLine (madeOf.oneLine fun _ => closed)
  by_cases error : lexeme.token.kind = .error
  · have same : withReturns lexeme.token.lexeme.toList =
        lexeme.token.lexeme.toList := by
      cases stripDirectives with
      | false => exact inText member closed error
      | true =>
          obtain ⟨inner, isInner, rfl⟩ := List.mem_map.mp member
          have kept := inText isInner closed error
          exact kept
    rw [error, Relabelling.lexeme_returned_error, same, String.ofList_toList]
  · exact Relabelling.lexeme_returned error text _

/-- A report quotes the same text, unless it quotes a comment without an end. -/
theorem cause_withReturns
    {stripDirectives : Bool}
    {text : List Char}
    {report : Report}
    (member : report ∈ (ofText stripDirectives text).reading.reports) :
    relabel (.returned text) report.cause = report.cause ∨
      ∃ comment ∈ (ofText stripDirectives text).lexemes,
        comment.fault? = some .openComment ∧
          report.cause = .invalidToken comment.token.lexeme := by
  obtain ⟨cause, span⟩ := report
  cases invalid : cause.invalidLexeme? with
  | none =>
      refine .inl ?_
      cases cause with
      | invalidToken lexeme => cases invalid
      | _ => rfl
  | some quoted =>
      obtain rfl : cause = .invalidToken quoted := by
        cases cause <;> cases invalid
        rfl
      have isInvalid :
          (span, quoted) ∈ invalidTokens
          (ofText stripDirectives text).reading.reports :=
        List.mem_filterMap.mpr ⟨_, member, rfl⟩
      have isText := (invalidTokens_readProgram _).subset isInvalid
      obtain ⟨token, isError, same⟩ := List.mem_map.mp isText
      obtain ⟨isAhead, error⟩ := mem_errorTokens.mp isError
      obtain ⟨lexeme, isLexeme, rfl⟩ :=
        List.mem_map.mp ((List.takeWhile_prefix _).subset isAhead)
      obtain ⟨rfl, rfl⟩ := Prod.mk.inj same
      by_cases open_ : lexeme.fault? = some .openComment
      · exact .inr ⟨lexeme, isLexeme, open_, rfl⟩
      · have kept := lexeme_withReturns isLexeme open_
        rw [error] at kept
        exact .inl (congrArg Cause.invalidToken kept)

end Analysis

/--
The line end does not matter, with or without the directives removed: put a
carriage return before every line feed of a text, and its analysis finds lexemes
of the same kinds and texts with the same faults, the same outline, and reports
of the same causes in the same order, except that a comment without an end is
quoted with its returns.  The diagnostics of both texts come in the same order
with the same messages, at the same lines and columns of their texts, and so
they are printed alike.
-/
theorem lineEnds_immaterial (stripDirectives : Bool) (text : List Char) :
    let plain := Analysis.ofText stripDirectives text
    let returned := Analysis.ofText stripDirectives (withReturns text)
    returned.tokens.map Token.kind = plain.tokens.map Token.kind ∧
      List.Forall₂
        (fun lexeme other : Lexeme =>
          other.fault? = lexeme.fault? ∧
            other.token.lexeme =
              if lexeme.fault? = some .openComment then
                String.ofList (withReturns lexeme.token.lexeme.toList)
              else lexeme.token.lexeme)
        plain.lexemes returned.lexemes ∧
      returned.reading.value.outline = plain.reading.value.outline ∧
      List.Forall₂
        (fun report other : Report =>
          other.cause = report.cause ∨
            ∃ comment ∈ plain.lexemes,
              comment.fault? = some .openComment ∧
                report.cause = .invalidToken comment.token.lexeme ∧
                other.cause =
                  .invalidToken
                    (String.ofList (withReturns comment.token.lexeme.toList)))
        plain.reading.reports returned.reading.reports ∧
      returned.diagnostics.map
          (fun diagnostic =>
            ((LineTable.ofText (withReturns text)).location
              diagnostic.span.start,
              diagnostic.stage, diagnostic.message)) =
        plain.diagnostics.map
          (fun diagnostic =>
            ((LineTable.ofText text).location diagnostic.span.start,
              diagnostic.stage, diagnostic.message)) ∧
      ∀ path limit,
        Check.diagnosticLines path (withReturns text)
          returned.diagnostics limit =
          Check.diagnosticLines path text plain.diagnostics limit := by
  intro plain returned
  have same : returned = relabel (.returned text) plain :=
    Analysis.ofText_withReturns stripDirectives text
  have diagnostics : returned.diagnostics =
      plain.diagnostics.map (relabel (.returned text)) := by
    rw [same]
    exact Analysis.diagnostics_relabel _ _ (returnedOffset_strictMono text)
  have lexemes : returned.lexemes =
      plain.lexemes.map (relabel (.returned text)) :=
    congrArg Analysis.lexemes same
  have reports : returned.reading.reports =
      plain.reading.reports.map (relabel (.returned text)) :=
    congrArg (fun analysis => analysis.reading.reports) same
  have program : returned.reading.value =
      relabel (.returned text) plain.reading.value :=
    congrArg (fun analysis => analysis.reading.value) same
  refine ⟨?_, ?_, ?_, ?_, ?_, ?_⟩
  · rw [Analysis.tokens, Lexeme.tokens, lexemes, Analysis.tokens, Lexeme.tokens,
      List.map_map, List.map_map, List.map_map]
    rfl
  · rw [lexemes, List.forall₂_map_right_iff]
    refine List.forall₂_same.mpr fun lexeme member => ⟨rfl, ?_⟩
    split
    · next open_ =>
        have error : lexeme.token.kind = .error :=
          (Analysis.marked_lexemes stripDirectives text lexeme member).mp
            (by rw [open_]; rfl)
        rw [← Relabelling.lexeme_returned_error text, ← error]
        rfl
    · next closed => exact Analysis.lexeme_withReturns member closed
  · rw [program, Program.outline, Program.outline]
    exact outlines_relabel_stmts
      (.returned text) 0 plain.reading.value.statements
  · rw [reports, List.forall₂_map_right_iff]
    refine List.forall₂_same.mpr fun report member => ?_
    refine (Analysis.cause_withReturns member).imp_right ?_
    rintro ⟨comment, isLexeme, open_, isQuoted⟩
    refine ⟨comment, isLexeme, open_, isQuoted, ?_⟩
    change relabel (.returned text) report.cause = _
    rw [isQuoted]
    rfl
  · rw [diagnostics, List.map_map]
    refine List.map_congr_left fun diagnostic _ => ?_
    exact Prod.ext (location_withReturns text diagnostic.span.start) rfl
  · intro path limit
    have line (diagnostic : Diagnostic) :
        Check.diagnosticLine path (LineTable.ofText (withReturns text))
            (relabel (.returned text) diagnostic) =
          Check.diagnosticLine path (LineTable.ofText text) diagnostic := by
      have located := location_withReturns text diagnostic.span.start
      rw [Check.diagnosticLine, Check.diagnosticLine, ← located]
      rfl
    simp only [Check.diagnosticLines, diagnostics, List.length_map,
      ← List.map_take, List.map_map, Function.comp_def, line]

/--
A comment without an end is quoted with
its line ends, and reported at one place.
-/
example :
    let text := withReturns "x = 1\n/* y\n".toList
    let analysis := Analysis.ofText false text
    analysis.tokens.map Token.lexeme = ["x", "=", "1", "/* y\r\n", ""] ∧
      Check.diagnosticLines "a.prg" text analysis.diagnostics 0 =
        ["a.prg:2:1: unterminated block comment"] := by
  decide +kernel

end Clipper
