import Mathlib.Data.List.Sort
import Clipper.Proofs.Grammar.InvalidTokens
import Clipper.Proofs.Grammar.SpelledPhrase
import Clipper.Proofs.Grammar.StatementSound

/-!
# The two channels of errors

The faults of an analysis stand at its error tokens, and the reports of invalid
tokens repeat some of them.  An error token has no place in a program, so where
there is a fault there is a report.  Therefore the diagnostics leave nothing out
when they drop the reports of invalid tokens: they are the other errors of both
channels, sorted stably by their beginnings.

The proof that every fault has a report goes over the words of a program: the
spelled tokens of what was read are among the tokens in order, none of them is
an error token, and a reading without reports drops only semicolons.  The
sorting is the stable one of the library, so errors at one place keep the
order of their channels.
-/

namespace Clipper

open Grammar Rule

namespace Grammar

/-- A reading without reports takes spelled tokens only. -/
theorem allSpelled_of_clean
    {tokens : List Token}
    (clean : (readProgram tokens).reports = []) :
    AllSpelled (tokens.takeWhile (·.kind != .endOfFile)) := by
  obtain ⟨next, reads⟩ := reads_of_clean clean
  have round {state : State} {made? : Option Stmt} {next : State}
      (_ : false = false)
      (read : Reads (statement nestingLimit) state made? next) :
      ∃ tokens, state.rest = tokens ++ next.rest ∧
        ItemPhrase (fun tokens _ => tokens ≠ [] ∧ AllSpelled tokens)
          tokens made? := by
    obtain ⟨tokens, taken, phrased | ⟨-, phrased⟩⟩ :=
      sound_statement nestingLimit read
    · refine ⟨tokens, taken, phrased.mono fun tokens made isStatement => ?_⟩
      exact ⟨nonempty_statement _ _ _ isStatement,
        (spelled_statement _).all isStatement⟩
    · refine ⟨tokens, taken, phrased.mono fun tokens made isRoutine => ?_⟩
      exact ⟨nonempty_routineForm isRoutine,
        (spelled_routineForm (spelled_block _)).all isRoutine⟩
  obtain ⟨taken, shape, phrased, atEnd | impossible⟩ :=
    sound_sequence (fun _ _ phrased => phrased.1) round reads
  · have all : (State.ofTokens tokens).rest = taken := by
      rw [shape, atEnd, List.append_nil]
    have spelled : Spelled
        (fun tokens (_ : Stmt) => tokens ≠ [] ∧ AllSpelled tokens) :=
      fun _ _ phrased => phrased.2
    rw [← all] at phrased
    exact spelled.statements.all phrased
  · cases impossible

/-- A reading without reports has no error token before it. -/
theorem errorTokens_of_clean
    {tokens : List Token}
    (clean : (readProgram tokens).reports = []) :
    errorTokens (tokens.takeWhile (·.kind != .endOfFile)) = [] := by
  refine List.eq_nil_iff_forall_not_mem.mpr fun token member => ?_
  obtain ⟨ahead, error⟩ := mem_errorTokens.mp member
  exact (allSpelled_of_clean clean token ahead).2 error

end Grammar

/-! ## Reports of other causes -/

/-- The reports that do not speak of an invalid token. -/
def otherReports (reports : List Report) : List Report :=
  reports.filter (fun report => report.invalidToken?.isNone)

namespace Analysis

/-- The diagnostic of a report of any cause. -/
def ofReport (report : Report) : Diagnostic :=
  ⟨.syntactic, report.span, report.cause.message⟩

theorem filterMap_ofReport? (reports : List Report) :
    reports.filterMap ofReport? = (otherReports reports).map ofReport := by
  induction reports with
  | nil => rfl
  | cons report reports hypothesis =>
      obtain ⟨cause, span⟩ := report
      rw [List.filterMap_cons, hypothesis]
      cases cause with
      | _ => rfl

end Analysis

/-- Every report is one of an invalid token or one of the others. -/
theorem reports_eq_nil
    {reports : List Report}
    (noInvalid : invalidTokens reports = [])
    (noOther : otherReports reports = []) :
    reports = [] := by
  refine List.eq_nil_iff_forall_not_mem.mpr fun report member => ?_
  have invalid := List.filter_eq_nil_iff.mp noOther report member
  rw [Option.isNone_iff_eq_none] at invalid
  exact invalid (List.filterMap_eq_nil_iff.mp noInvalid report member)

/-! ## Sorting by a key -/

section

variable {α : Type} (key : α → Nat)

/-- The order of the keys, as a test. -/
def keyTest (first second : α) : Bool :=
  decide (key first ≤ key second)

theorem keyTest_trans
    (first second third : α)
    (earlier : keyTest key first second = true)
    (later : keyTest key second third = true) :
    keyTest key first third = true := by
  rw [keyTest, decide_eq_true_iff] at *
  exact Nat.le_trans earlier later

theorem keyTest_total (first second : α) :
    (keyTest key first second || keyTest key second first) = true := by
  simp only [keyTest, Bool.or_eq_true, decide_eq_true_iff]
  exact Nat.le_total _ _

theorem pairwise_mergeSort_key (items : List α) :
    (items.mergeSort (keyTest key)).Pairwise
      (fun first second => key first ≤ key second) :=
  (List.pairwise_mergeSort (keyTest_trans key) (keyTest_total key) items).imp
    of_decide_eq_true

/-- Items of one key are in the sorted list as they were before. -/
theorem filter_mergeSort_key
    (place : Nat)
    (items : List α) :
    (items.mergeSort (keyTest key)).filter (fun item => key item == place) =
      items.filter (fun item => key item == place) := by
  have sorted :
      (items.filter (fun item => key item == place)).Pairwise
        (fun first second => keyTest key first second = true) := by
    refine List.pairwise_of_forall_mem_list fun first isFirst second isSecond =>
      ?_
    rw [List.mem_filter, beq_iff_eq] at isFirst isSecond
    rw [keyTest, isFirst.2, isSecond.2, decide_eq_true_iff]
  -- Sorting keeps a sublist that is in order, and this one is all that has the
  -- key.
  have kept :=
    (List.sublist_mergeSort (keyTest_trans key) (keyTest_total key) sorted
      List.filter_sublist).filter (fun item => key item == place)
  rw [List.filter_filter] at kept
  simp only [Bool.and_self] at kept
  exact (kept.eq_of_length
    ((List.mergeSort_perm items _).filter _).length_eq.symm).symm

end

/-! ## Both channels -/

namespace Analysis

/--
The errors of an analysis as they are recorded:
the faults, and the reports of other causes.
-/
def recorded (analysis : Analysis) : List Diagnostic :=
  analysis.faults.map ofFault ++
    (otherReports analysis.reading.reports).map ofReport

theorem diagnostics_eq (analysis : Analysis) :
    analysis.diagnostics =
      analysis.recorded.mergeSort
        (keyTest (fun diagnostic => diagnostic.span.start)) := by
  rw [recorded, ← filterMap_ofReport?]
  rfl

/--
A text has no diagnostics if and only if it has no faults and no reports but
those that repeat a fault.
-/
theorem diagnostics_eq_nil_iff (analysis : Analysis) :
    analysis.diagnostics = [] ↔
      analysis.faults = [] ∧ otherReports analysis.reading.reports = [] := by
  have same : analysis.diagnostics = [] ↔ analysis.recorded = [] := by
    rw [diagnostics_eq]
    exact ⟨fun none =>
      (none ▸ List.mergeSort_perm analysis.recorded _).nil_eq.symm,
        fun none => by rw [none, List.mergeSort_nil]⟩
  rw [same, recorded, List.append_eq_nil_iff, List.map_eq_nil_iff,
    List.map_eq_nil_iff]

theorem hasErrors_iff (analysis : Analysis) :
    analysis.hasErrors = true ↔
    ¬ (analysis.faults = [] ∧ analysis.reading.reports = []) := by
  rw [not_and_or]
  simp [hasErrors, Reading.hasErrors]

variable (stripDirectives : Bool) (text : List Char)

/-- All error tokens stand before the end of the text. -/
theorem errorTokens_ahead :
    errorTokens ((ofText stripDirectives text).tokens.takeWhile
      (·.kind != .endOfFile)) =
      errorTokens (ofText stripDirectives text).tokens := by
  obtain ⟨earlier, lexeme, shape, notEnd⟩ := endsAt_tokens stripDirectives text
  rw [shape, List.takeWhile_append_of_pos fun token member =>
    bne_iff_ne.mpr (notEnd token member)]
  simp [errorTokens_cons_of_ne]

/-- The reports of invalid tokens speak of error tokens, in order. -/
theorem invalidTokens_sublist :
    (invalidTokens (ofText stripDirectives text).reading.reports).Sublist
      (errorTexts (ofText stripDirectives text).tokens) := by
  have among := invalidTokens_readProgram (ofText stripDirectives text).tokens
  rwa [errorTexts, errorTokens_ahead] at among

theorem faults_eq_nil_iff :
    (ofText stripDirectives text).faults = [] ↔
      errorTokens (ofText stripDirectives text).tokens = [] := by
  rw [← List.map_eq_nil_iff, faults_spans, List.map_eq_nil_iff]

/--
An analysis has errors where it has diagnostics:
no dropped report is the only error.
-/
theorem hasErrors_iff_diagnostics :
    (ofText stripDirectives text).hasErrors = true ↔
      (ofText stripDirectives text).diagnostics ≠ [] := by
  rw [hasErrors_iff, ne_eq, not_iff_not, diagnostics_eq_nil_iff]
  refine and_congr_right fun none =>
    ⟨fun clean => by rw [clean]; rfl, fun noOther => ?_⟩
  refine reports_eq_nil ?_ noOther
  have noText : errorTexts (ofText stripDirectives text).tokens = [] := by
    rw [errorTexts, (faults_eq_nil_iff stripDirectives text).mp none,
      List.map_nil]
  exact List.sublist_nil.mp
    (noText ▸ invalidTokens_sublist stripDirectives text)

end Analysis

/--
The two channels of errors of an analysis agree, and its diagnostics lose
nothing.

The faults are in order those of the error tokens, at the same spans.  The
reports of invalid tokens have the spans and lexemes of error tokens, in order,
and no two of them are of one token.  Where there is a fault there is a report.

The diagnostics are in the order of their beginnings; they are all faults and
all reports of other causes, each as often as it was recorded; at one beginning
the faults come first, and both channels keep their order.  There are
diagnostics if and only if the analysis has errors.
-/
theorem channels_agree (stripDirectives : Bool) (text : List Char) :
    let analysis := Analysis.ofText stripDirectives text
    let reports := analysis.reading.reports
    analysis.faults.map Prod.snd =
      (errorTokens analysis.tokens).map Token.span ∧
      ((invalidTokens reports).Sublist (errorTexts analysis.tokens) ∧
        ((invalidTokens reports).map Prod.fst).Nodup) ∧
      (analysis.faults ≠ [] → reports ≠ []) ∧
      (analysis.diagnostics.Pairwise
          (fun first second => first.span.start ≤ second.span.start) ∧
        analysis.diagnostics.Perm
          (analysis.faults.map Analysis.ofFault ++
            (otherReports reports).map Analysis.ofReport) ∧
        ∀ offset,
          let here := fun diagnostic : Diagnostic =>
              diagnostic.span.start == offset
          analysis.diagnostics.filter here =
            (analysis.faults.map Analysis.ofFault).filter here ++
              ((otherReports reports).map Analysis.ofReport).filter here) ∧
      (analysis.hasErrors = true ↔ analysis.diagnostics ≠ []) := by
  intro analysis reports
  have spans : analysis.faults.map Prod.snd =
      (errorTokens analysis.tokens).map Token.span :=
    Analysis.faults_spans stripDirectives text
  have ahead := Analysis.errorTokens_ahead stripDirectives text
  have repeated := Analysis.invalidTokens_sublist stripDirectives text
  have noFault := Analysis.faults_eq_nil_iff stripDirectives text
  have covered (clean : reports = []) : analysis.faults = [] :=
    noFault.mpr (ahead.symm.trans (errorTokens_of_clean clean))
  refine ⟨spans, ⟨repeated, ?_⟩, fun faults clean =>
    faults (covered clean), ⟨?_, ?_, ?_⟩, ?_⟩
  · have increasing := Analysis.tokens_increasing stripDirectives text
    have distinct : ((errorTexts analysis.tokens).map Prod.fst).Nodup := by
      rw [errorTexts, List.map_map, List.nodup_iff_pairwise_ne,
        List.pairwise_map]
      refine (increasing.sublist List.filter_sublist).imp fun order same => ?_
      exact Nat.ne_of_lt order (congrArg Span.start same)
    exact distinct.sublist (repeated.map Prod.fst)
  · rw [Analysis.diagnostics_eq]
    exact pairwise_mergeSort_key _ _
  · rw [Analysis.diagnostics_eq]
    exact List.mergeSort_perm _ _
  · intro offset here
    rw [Analysis.diagnostics_eq, ← List.filter_append]
    exact filter_mergeSort_key _ offset _
  · exact Analysis.hasErrors_iff_diagnostics stripDirectives text

end Clipper
