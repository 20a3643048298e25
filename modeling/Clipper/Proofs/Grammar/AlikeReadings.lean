import Clipper.Proofs.BlindReadings
import Clipper.Proofs.Grammar.NextStatement
import Clipper.Proofs.Grammar.ProgramPlaces
import Clipper.Proofs.Grammar.ProgramSpans
import Clipper.Proofs.Listing.ExpressionReading

/-!
# Readings of the tokens under a node

Tokens that agree with the tokens under an expression or a statement are read as
it, wherever they stand: what is read has the outline of the node, and nothing
is reported.

The statement is the bridge from the tree to the text under its spans.
Completeness gives a reading of the tokens under the node; agreeing tokens
give the same reading, as no rule looks at a place; and the text under the
span of the node is cut into tokens that agree with them.  A statement that
ends only with the text may have semicolons behind it, and they are read as
nothing.
-/

namespace Clipper.Grammar

open Relabelled (relabel)
open Rule

/-- Up to places, a state without reports is given by the tokens ahead of it. -/
theorem relabel_blind_state_eq
    {state other : State}
    (alike : List.Forall₂ Token.Alike other.rest state.rest)
    (calm : state.Calm)
    (calmOther : other.Calm)
    (clean : state.reports = [])
    (cleanOther : other.reports = []) :
    relabel .blind other = relabel .blind state := by
  ext1
  · exact Token.Alike.map_relabel_blind_eq alike
  · rfl
  · rfl
  · rfl
  · rw [State.reports_relabel, State.reports_relabel, clean, cleanOther]
  · exact calmOther.steady.trans calm.steady.symm
  · exact calmOther.whole.trans calm.whole.symm

/--
Tokens that agree with tokens none of which ends the text
do not end it either.
-/
theorem noEnd_of_alike
    {first second : List Token}
    (alike : List.Forall₂ Token.Alike first second)
    (each : ∀ token ∈ second, token.kind ≠ .endOfFile) :
    ∀ token ∈ first, token.kind ≠ .endOfFile := by
  induction alike with
  | nil => exact List.forall_mem_nil _
  | cons same _ hypothesis =>
      rw [List.forall_mem_cons] at each ⊢
      exact ⟨same.kind_eq ▸ each.1, hypothesis each.2⟩

/-! ## Programs of one statement -/

/--
Tokens that are read as a statement are not empty, since
nothing is read from none.
-/
theorem ReadAs.nonempty
    {made : Stmt}
    {tokens : List Token}
    (readAs : ReadAs made tokens) :
    tokens ≠ [] := by
  obtain ⟨state, other, next, rfl, -, reads, -⟩ := readAs
  intro ended
  have taken := Curtailment.takes_statement reads
  rw [ended] at taken
  exact Nat.not_lt_zero _ taken

/-- What is read as a statement does not begin with a star. -/
theorem ReadAs.head_notMem
    {made : Stmt}
    {tokens : List Token}
    (readAs : ReadAs made tokens) :
    headKind tokens ∉ [.star, .starEqual] := by
  obtain ⟨state, other, next, rfl, -, reads, -⟩ := readAs
  rw [← State.kind_eq_headKind]
  intro star
  have isStar : state.kind = .star ∨ state.kind = .starEqual := by
    simpa using star
  refine not_reads_statement_of_closed ?_ ?_ reads
  · rcases isStar with here | here
    · rw [StatementForm.of, here]
    · rw [StatementForm.of, here]
  · rcases isStar with here | here
    · rw [here]
      rfl
    · rw [here]
      rfl

theorem reads_sequence_of_statement
    {state next : State}
    {made : Stmt}
    (reads : Reads (statement nestingLimit) state (some made) next)
    (ended : next.rest = []) :
    Reads (sequence (fun _ => false) (statement nestingLimit)) state
      [made] next :=
  reads_sequence_of_round rfl reads (Curtailment.takes_statement reads)
    (reads_sequence_of_closed reads.calm_next (.inl ended))

/--
What is read as a statement is a program of
one statement, also on tokens elsewhere.
-/
theorem readProgram_of_readAs
    {made : Stmt}
    {tokens others : List Token}
    {last : Token}
    (readAs : ReadAs made tokens)
    (alike : List.Forall₂ Token.Alike others tokens)
    (noEnd : ∀ token ∈ others, token.kind ≠ .endOfFile)
    (ended : last.kind = .endOfFile) :
    (readProgram (others ++ [last])).reports = [] ∧
      (readProgram (others ++ [last])).value.outline =
        Stmt.outlines 0 [made] := by
  obtain ⟨state, other, next, rfl, clean, reads, finished, outline⟩ := readAs
  have start := ofTokens_concat noEnd ended
  have sameRest :
      (State.ofTokens (others ++ [last])).rest.map (relabel .blind) =
        state.rest.map (relabel .blind) := by
    rw [start]
    exact Token.Alike.map_relabel_blind_eq alike
  have sameCut : (State.ofTokens (others ++ [last])).cutShort =
      state.cutShort := by
    rw [start]
    exact reads.calm.whole.symm
  have whole := reads_sequence_of_statement reads finished
  obtain ⟨values, reports⟩ :=
    runSequence_blind nestingLimit state (State.ofTokens (others ++ [last]))
      clean sameRest sameCut
  have run : runSequence (fun _ => false) (statement nestingLimit) state =
      ([other], next) :=
    whole.run
  rw [run] at values reports
  constructor
  · have none : next.reports = [] := whole.quiet.trans clean
    rw [none, show (State.ofTokens (others ++ [last])).reports = [] from rfl]
      at reports
    exact List.reverse_eq_nil_iff.mpr (List.map_eq_nil_iff.mp reports)
  · have same := outlines_eq_of_blind values 0
    exact same.trans (congrArg (· ++ []) outline)

/-! ## Expressions -/

theorem run_expression_relabel
    (change : Relabelling)
    (levels : Nat)
    (state : State) :
    (expression levels).run (relabel change state) =
      relabel change ((expression levels).run state) :=
  (Seam.always_expression levels _ _
    ((Seam.beside_ofRelabelling change _ _).mpr rfl)).run_relabel

theorem outline_of_bare
    {first second : Expr}
    (same : first.bare = second.bare) :
    first.outline = second.outline := by
  rw [← outline_relabel_expr .blind, relabel_blind_expr, same,
    ← relabel_blind_expr, outline_relabel_expr]

/--
A reading of an expression that takes all tokens is a reading of
the expression alone.
-/
theorem reads_loneExpression
    {state next : State}
    {value : Expr}
    (reads : Reads (expression nestingLimit) state value next)
    (ended : next.rest = []) :
    Reads loneExpression state value next := by
  have atEnd : next.current.kind = .endOfFile := by
    rw [State.current, ended]
  have noSemicolon : next.kind ≠ .semicolon := by
    rw [State.kind, atEnd]
    exact TokenKind.noConfusion
  have ate : Reads (eat .semicolon) next false next :=
    reads_eat.mpr ⟨reads.calm_next, .inr ⟨noSemicolon, rfl, rfl⟩⟩
  refine reads_bind.mpr
    ⟨value, next, reads, reads_bind.mpr ⟨false, next, ate, ?_⟩⟩
  rw [reads_ask_bind, if_pos atEnd, reads_pure]
  exact ⟨reads.calm_next, rfl, rfl⟩

/--
What spells an expression is read as it up to spans, also on tokens elsewhere.
-/
theorem bare_loneExpression_of_spelled
    {value : Expr}
    {tokens others : List Token}
    {last : Token}
    (spelled : ExpressionPhrase nestingLimit tokens value)
    (alike : List.Forall₂ Token.Alike others tokens)
    (noEnd : ∀ token ∈ others, token.kind ≠ .endOfFile)
    (ended : last.kind = .endOfFile) :
    (loneExpression.readTokens (others ++ [last])).reports = [] ∧
      (loneExpression.readTokens (others ++ [last])).value.bare =
        value.bare := by
  let state : State := ⟨tokens, last.span, last.span, 0, [], false, false⟩
  let other : State := State.ofTokens (others ++ [last])
  have calm : state.Calm := ⟨rfl, rfl⟩
  obtain ⟨result, next, reads, finished, same⟩ :=
    complete_expression nestingLimit calm (List.append_nil tokens).symm spelled
      (stops_of_delimiter rfl rfl 1)
  have rest : other.rest = others :=
    congrArg State.rest (ofTokens_concat noEnd ended)
  have sameState : relabel .blind other = relabel .blind state :=
    relabel_blind_state_eq (rest ▸ alike) calm (State.calm_ofTokens _) rfl rfl
  have run := run_expression_relabel .blind nestingLimit other
  rw [sameState, run_expression_relabel, reads.run] at run
  generalize outcome : (expression nestingLimit).run other = made at run
  have sameValue : relabel .blind result = relabel .blind made.1 :=
    congrArg Prod.fst run
  have sameNext : relabel .blind next = relabel .blind made.2 :=
    congrArg Prod.snd run
  have quiet : made.2.reports.map (relabel .blind) = [] := by
    rw [← State.reports_relabel, ← sameNext, State.reports_relabel, reads.quiet]
    rfl
  have overToo : made.2.rest.map (relabel .blind) = [] := by
    rw [← State.rest_relabel, ← sameNext, State.rest_relabel, finished]
    rfl
  have readsToo : Reads (expression nestingLimit) other made.1 made.2 :=
    ⟨State.calm_ofTokens _, outcome, List.map_eq_nil_iff.mp quiet⟩
  have lone := reads_loneExpression readsToo (List.map_eq_nil_iff.mp overToo)
  have whole : loneExpression.readTokens (others ++ [last]) =
      ⟨made.1, made.2.reports.reverse⟩ := by
    change (⟨(loneExpression.run other).1,
      (loneExpression.run other).2.reports.reverse⟩ :
      Reading Expr) = _
    rw [lone.run]
  rw [whole]
  constructor
  · exact List.reverse_eq_nil_iff.mpr (List.map_eq_nil_iff.mp quiet)
  · rw [← same, ← relabel_blind_expr, ← relabel_blind_expr, sameValue]

/--
What spells an expression is read with its outline, also on tokens elsewhere.
-/
theorem loneExpression_of_spelled
    {value : Expr}
    {tokens others : List Token}
    {last : Token}
    (spelled : ExpressionPhrase nestingLimit tokens value)
    (alike : List.Forall₂ Token.Alike others tokens)
    (noEnd : ∀ token ∈ others, token.kind ≠ .endOfFile)
    (ended : last.kind = .endOfFile) :
    (loneExpression.readTokens (others ++ [last])).reports = [] ∧
      (loneExpression.readTokens (others ++ [last])).value.outline =
        value.outline := by
  obtain ⟨quiet, same⟩ :=
    bare_loneExpression_of_spelled spelled alike noEnd ended
  exact ⟨quiet, outline_of_bare same⟩

end Clipper.Grammar
