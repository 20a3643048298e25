import Clipper.Grammar.Program
import Clipper.Proofs.Grammar.StatementTogether

/-!
# Readings of relabelled tokens

A reading looks at offsets and texts only to copy them: relabelled tokens are
read like the tokens themselves, and the program and the reports come out
relabelled.

This is the case of two readings side by side in which nothing stands behind
the seam, so the two never differ in what they look at.  The relabelling may
be any that keeps the order of offsets and the equality of names, up to case:
the blind one, a shift behind another text, the case of letters, or the
returns of a text.  The theorem is used for all of these.
-/

namespace Clipper.Grammar

open Relabelled (relabel)
open Rule

instance : Relabelled State where
  relabel change state :=
    { rest := relabel change state.rest
      stop := relabel change state.stop
      final := relabel change state.final
      reached := relabel change state.reached
      reports := relabel change state.reports
      recovering := state.recovering
      cutShort := state.cutShort }

instance {α : Type} [Relabelled α] : Relabelled (Reading α) where
  relabel change reading :=
    ⟨relabel change reading.value, relabel change reading.reports⟩

attribute [ext] State

variable {change : Relabelling}

@[simp]
theorem relabel_program (program : Program) :
    relabel change program =
      ⟨relabel change program.statements, relabel change program.span⟩ :=
  rfl

namespace State

variable (state : State)

@[simp]
theorem rest_relabel : (relabel change state).rest =
    state.rest.map (relabel change) :=
  rfl

@[simp]
theorem stop_relabel : (relabel change state).stop =
    relabel change state.stop :=
  rfl

@[simp]
theorem final_relabel : (relabel change state).final =
    relabel change state.final :=
  rfl

@[simp]
theorem reached_relabel : (relabel change state).reached =
    relabel change state.reached :=
  rfl

@[simp]
theorem reports_relabel : (relabel change state).reports =
    state.reports.map (relabel change) :=
  rfl

@[simp]
theorem recovering_relabel :
    (relabel change state).recovering = state.recovering :=
  rfl

@[simp]
theorem cutShort_relabel : (relabel change state).cutShort = state.cutShort :=
  rfl

/-- The end of a list of tokens is relabelled with the tokens. -/
theorem final_ofTokens_relabel
    (change : Relabelling)
    (tokens : List Token) :
    (ofTokens (tokens.map (relabel change))).final =
      relabel change (ofTokens tokens).final := by
  rw [ofTokens, ofTokens, List.getLast?_map]
  cases tokens.getLast? with
  | none => exact congrArg Span.empty relabel_zero.symm
  | some last =>
      change (if last.kind = .endOfFile then _ else _) =
        relabel change (if last.kind = .endOfFile then _ else _)
      split <;> rfl

/--
The state before relabelled tokens is the relabelled state before the tokens.
-/
theorem ofTokens_relabel (tokens : List Token) :
    ofTokens (tokens.map (relabel change)) =
      relabel change (ofTokens tokens) := by
  have found :
      (tokens.map (relabel change)).find? (·.kind == .endOfFile) =
        (tokens.find? (·.kind == .endOfFile)).map (relabel change) :=
    List.find?_map
  have stop :
      (ofTokens (tokens.map (relabel change))).stop =
        relabel change (ofTokens tokens).stop := by
    have final := final_ofTokens_relabel change tokens
    rw [ofTokens] at final ⊢
    dsimp only at final ⊢
    rw [found, ofTokens]
    cases tokens.find? (·.kind == .endOfFile) with
    | none => exact final
    | some token => rfl
  ext1
  · exact List.takeWhile_map
  · exact stop
  · exact final_ofTokens_relabel change tokens
  · exact relabel_zero.symm
  · rfl
  · rfl
  · rfl

end State

/--
The seam of two readings to the end of which the second one is relabelled and
had made some reports before.
-/
def Seam.ofPast
    (change : Relabelling)
    (past : List Report) :
    Seam where
  change := change
  kind := .ending
  tail := []
  past := past
  fits := rfl

/--
At the end of the tokens nothing comes after
the seam, so the first state fixes the second.
-/
theorem Seam.beside_ofPast
    (change : Relabelling)
    (past : List Report)
    (left right : State) :
    (ofPast change past).Beside left right ↔
      right = { relabel change left
        with reports := relabel change left.reports ++ past } := by
  have noHead : (ofPast change past).kind ≠ .routine := SeamKind.noConfusion
  constructor
  · intro beside
    obtain ⟨reports, shape, each⟩ := beside.reports
    rw [sameReports_iff _ noHead] at each
    ext1
    · exact beside.rest.trans (List.append_nil _)
    · exact beside.stop
    · exact beside.final
    · exact beside.reached
    · rw [shape, each]
      rfl
    · exact beside.recovering
    · exact beside.cutShort
  · rintro rfl
    exact
      { rest := (List.append_nil _).symm
        stop := rfl
        final := rfl
        reached := rfl
        reports := ⟨_, rfl, (sameReports_iff _ noHead).mpr rfl⟩
        recovering := rfl
        cutShort := rfl
        place := fun _ member => by cases member
        last := fun _ _ => trivial
        resting := SeamKind.noConfusion }

/-- The seam of two readings that differ by a relabelling only. -/
def Seam.ofRelabelling (change : Relabelling) : Seam :=
  ofPast change []

/--
Such readings are side by side where their
states are the same up to the relabelling.
-/
theorem Seam.beside_ofRelabelling
    (change : Relabelling)
    (left right : State) :
    (ofRelabelling change).Beside left right ↔ right = relabel change left := by
  rw [ofRelabelling, beside_ofPast, List.append_nil]
  rfl

section Readings

variable {α : Type} [Relabelled α] {rule : Rule α}

/--
A rule that goes together with itself reads
what is relabelled like the original.
-/
theorem Seam.Together.run_relabel
    {state : State}
    (both : (Seam.ofRelabelling change).Together rule rule state
      (relabel change state)) :
    rule.run (relabel change state) = relabel change (rule.run state) := by
  obtain ⟨value, beside⟩ := both (Or.inl rfl)
  exact Prod.ext value ((Seam.beside_ofRelabelling change _ _).mp beside)

end Readings

/-- Where a token is ahead, relabelling commutes with reading a statement. -/
theorem run_statement_relabel
    (change : Relabelling)
    (levels : Nat)
    {state : State}
    (ahead : state.rest ≠ []) :
    (statement levels).run (relabel change state) =
      relabel change ((statement levels).run state) :=
  (Seam.together_statement SeamKind.noConfusion levels _ _
    ((Seam.beside_ofRelabelling change _ _).mpr rfl) ahead).run_relabel

/--
A sequence of statements to the end of the file goes together with itself.
-/
theorem Seam.together_toEnd
    (change : Relabelling)
    (levels : Nat)
    (state : State) :
    (Seam.ofRelabelling change).Together
      (sequence (fun _ => false) (statement levels))
      (sequence (fun _ => false) (statement levels)) state
      (relabel change state) :=
  Seam.together_sequence SeamKind.noConfusion (fun _ _ _ _ => rfl)
    (fun _ ended => Or.inl ended)
    (Seam.together_statement SeamKind.noConfusion levels)
    ((Seam.beside_ofRelabelling change _ _).mpr rfl)

theorem runSequence_relabel
    (change : Relabelling)
    (levels : Nat)
    (state : State) :
    runSequence (fun _ => false) (statement levels) (relabel change state) =
      relabel change (runSequence (fun _ => false) (statement levels) state) :=
  (Seam.together_toEnd change levels state).run_relabel

/-- The reading of relabelled tokens is the relabelled reading of the tokens. -/
theorem readProgram_relabel
    (change : Relabelling)
    (tokens : List Token) :
    readProgram (tokens.map (relabel change)) =
      relabel change (readProgram tokens) := by
  have both :
      (Seam.ofRelabelling change).Together program program
        (State.ofTokens tokens)
          (relabel change (State.ofTokens tokens)) := by
    refine Seam.together_bind (Seam.together_toEnd change nestingLimit _)
      fun statements _ _ _ after => ?_
    exact Seam.together_ask_bind
      (Seam.together_pure after (by simp [after.span_current]))
  rw [readProgram, Rule.readTokens, State.ofTokens_relabel, both.run_relabel]
  exact congrArg (Reading.mk _) (List.map_reverse).symm

end Clipper.Grammar
