import Clipper.Proofs.Grammar.PhraseEnds
import Clipper.Proofs.Grammar.StatementCurtailment

/-!
# Statements with no other tokens

The tokens that a statement takes are read as this statement also where no
tokens stand behind them, and with all levels left.  The semicolon after a
simple statement is not among them.

The statement puts the curtailing of readings to use.  Inside a program, a
statement is read with what comes after it in view, and a block in it with
fewer levels left.  Alone there is nothing after it and every level; what was
read without a report stays the same in both respects.  For a routine without
a closing word this holds only if nothing came after it, as an empty body ends
at the next token.
-/

namespace Clipper.Grammar

open Rule

theorem sound_blocks
    (levels : Nat)
    (closers : List TokenKind) :
    Sound (blocks levels closers) (BlockPhrase levels) := by
  cases levels with
  | zero => exact sound_blockTooDeep
  | succ levels =>
      exact sound_blockOf (nonempty_statement levels)
        (sound_statement levels) closers

/--
A statement takes tokens that do not end in
a word understood by the token after it.
-/
theorem clear_proper
    {levels : Nat}
    {form : StatementForm}
    {rule : Rule Stmt}
    {state next : State}
    {made : Stmt}
    (there : form.Ahead state)
    (isRule : form.proper? (expression levels) (blocks levels) = some rule)
    (reads : Reads rule state made next) :
    ∃ tokens, state.rest = tokens ++ next.rest ∧ tokens ≠ [] ∧
      EndsClear tokens := by
  have sound := sound_expression levels
  have soundBlock := sound_blocks levels
  have closes := closes_expression levels
  have ofSimple
      (phrased :
        ∃ tokens, state.rest = tokens ++ next.rest ∧
          SimplePhrase (ExpressionPhrase levels) tokens made) :
      ∃ tokens, state.rest = tokens ++ next.rest ∧ tokens ≠ [] ∧
        EndsClear tokens := by
    obtain ⟨tokens, taken, simple⟩ := phrased
    exact ⟨tokens, taken, closes_simple closes simple⟩
  have ofCompound
      (phrased :
        ∃ tokens, state.rest = tokens ++ next.rest ∧
          StatementFormPhrase (ExpressionPhrase levels) (BlockPhrase levels)
            tokens made) :
      ∃ tokens, state.rest = tokens ++ next.rest ∧ tokens ≠ [] ∧
        EndsClear tokens := by
    obtain ⟨tokens, taken, compound⟩ := phrased
    exact ⟨tokens, taken, closes_statementForm closes _ compound⟩
  cases form with
  | empty | strayCloser => cases isRule
  | conditional =>
      cases isRule
      exact ofCompound (sound_conditional sound soundBlock there reads)
  | whileLoop =>
      cases isRule
      exact ofCompound (sound_whileLoop sound soundBlock there reads)
  | forLoop =>
      cases isRule
      exact ofCompound (sound_forLoop sound soundBlock there reads)
  | routine =>
      cases isRule
      obtain ⟨tokens, taken, phrased⟩ := sound_routine soundBlock there reads
      exact ⟨tokens, taken,
        closes_routineForm (fun _ _ => endsClear_block) phrased⟩
  | declaration =>
      cases isRule
      exact ofSimple (sound_declaration sound there reads)
  | result =>
      cases isRule
      exact ofSimple (sound_resultStatement sound there reads)
  | control =>
      cases isRule
      exact ofSimple (sound_loopControl there reads)
  | print =>
      cases isRule
      exact ofSimple (sound_printStatement sound there reads)
  | expression =>
      cases isRule
      exact ofSimple (sound_expressionStatement sound _ _ _ reads)

/--
A statement is read by the rule of its form, and then a semicolon may be taken.
-/
theorem reads_proper
    {expression : Rule Expr}
    {block : List TokenKind → Rule Block}
    {form : StatementForm}
    {state next : State}
    {made : Stmt}
    (reads : Reads (statementOfForm expression block form) state
      (some made) next) :
    ∃ rule middle, form.proper? expression block = some rule ∧
      Reads rule state made middle ∧
      next.rest <:+ middle.rest := by
  cases isRule : form.proper? expression block with
  | none =>
      cases form with
      | empty =>
          rw [statementOfForm, reads_advance_bind, reads_pure] at reads
          cases reads.2.1
      | strayCloser =>
          rw [statementOfForm, strayCloser, reads_ask_bind] at reads
          obtain ⟨_, _, reported, -⟩ := reads_bind.mp reads
          exact absurd reported not_reads_reportHere
      | _ => cases isRule
  | some rule =>
      rw [form.rule_of_proper isRule] at reads
      split at reads
      · obtain ⟨other, middle, read, continued⟩ := reads_bind.mp reads
        have within := (eat .semicolon >>= fun _ => pure (some other)).suffix
            middle
        obtain ⟨_, _, -, ended⟩ := reads_bind.mp continued
        obtain ⟨-, ⟨⟩, -⟩ := reads_pure.mp ended
        rw [continued.run] at within
        exact ⟨rule, middle, rfl, read, within⟩
      · obtain ⟨other, read, ⟨⟩⟩ := reads_map.mp reads
        exact ⟨rule, next, rfl, read, List.suffix_refl _⟩

/-- At the end of the tokens, no semicolon is taken after a statement. -/
theorem reads_form_of_ended
    {expression : Rule Expr}
    {block : List TokenKind → Rule Block}
    {form : StatementForm}
    {rule : Rule Stmt}
    {state next : State}
    {made : Stmt}
    (isRule : form.proper? expression block = some rule)
    (reads : Reads rule state made next)
    (ended : next.rest = []) :
    Reads (statementOfForm expression block form) state (some made) next := by
  rw [form.rule_of_proper isRule]
  split
  · refine reads_bind.mpr ⟨made, next, reads, ?_⟩
    have noSemicolon : next.kind ≠ .semicolon := by
      rw [State.kind_eq_headKind, ended]
      exact TokenKind.noConfusion
    have ate : Reads (eat .semicolon) next false next :=
      reads_eat.mpr ⟨reads.calm_next, .inr ⟨noSemicolon, rfl, rfl⟩⟩
    exact reads_bind.mpr
      ⟨false, next, ate, reads_pure.mpr ⟨reads.calm_next, rfl, rfl⟩⟩
  · exact reads_map.mpr ⟨made, reads, rfl⟩

/--
What a statement's rule takes is read as
the statement with no other tokens ahead.
-/
theorem alone_of_proper
    {levels : Nat}
    (le : levels ≤ nestingLimit)
    {rule : Rule Stmt}
    {state next : State}
    {made : Stmt}
    {tokens : List Token}
    (isRule :
      (StatementForm.of state).proper? (expression levels) (blocks levels) =
        some rule)
    (reads : Reads rule state made next)
    (taken : state.rest = tokens ++ next.rest) :
    ∃ left last, left.rest = tokens ∧ left.reports = [] ∧
      Reads (statement nestingLimit) left (some made) last ∧
      last.rest = [] := by
  obtain ⟨others, othersTaken, nonempty, clear⟩ :=
    clear_proper (StatementForm.ahead_of state) isRule reads
  rw [taken] at othersTaken
  rw [← List.append_cancel_right othersTaken] at nonempty clear
  let cut : Curtailment := ⟨next.rest, [], false, fun _ => rfl⟩
  have keepsExpression (state : State) :
      cut.Keeps (expression levels) (expression nestingLimit) state :=
    Curtailment.keeps_expression le
  have keepsBlocks (closers : List TokenKind) (state : State) :
      cut.Keeps (blocks levels closers) (blocks nestingLimit closers) state :=
    Curtailment.keeps_blocks le (fun _ => rfl) closers
  have ahead := StatementForm.ahead_of state
  have keepsRoutine (isRoutine : StatementForm.of state = .routine) :
      cut.Keeps (routine (blocks levels))
        (routine (blocks nestingLimit)) state := by
    rw [isRoutine] at ahead
    exact Curtailment.keeps_routine keepsBlocks (fun _ => rfl) ahead
  obtain ⟨further, isFurther, keeps⟩ :=
    Curtailment.keeps_proper keepsExpression Curtailment.takes_expression
      (fun closers state => (keepsBlocks closers state).within) keepsRoutine
        ahead isRule
  obtain ⟨later, shape, kept⟩ :=
    keeps reads taken (.of_full rfl (List.suffix_refl _)) clear
  have ended : later = [] := List.self_eq_append_left.mp shape
  obtain ⟨token, front, rfl⟩ := List.exists_cons_of_ne_nil nonempty
  have sameForm : StatementForm.of (cut.state state (token :: front)) =
      StatementForm.of state :=
    Curtailment.form_state taken clear
  refine ⟨cut.state state (token :: front), cut.state next later, ?_,
    rfl, ?_, ?_⟩
  · exact List.append_nil _
  · rw [statement_eq, statementOf, reads_recovered_bind,
      reads_ask_bind, sameForm]
    apply reads_form_of_ended isFurther kept
    rw [ended]
    rfl
  · rw [ended]
    rfl

end Clipper.Grammar
