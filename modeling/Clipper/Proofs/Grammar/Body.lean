import Clipper.Proofs.Grammar.Sparing

/-!
# The body of a program

All moves of a reading but those at the head of a routine leave the heads of
routines alone: statements of every other form do, and so do blocks, which end
before such a head.  Unlike expressions and simple statements, they take and
report closing words.

`InBody` says of a rule at a state what its moves are: tokens are taken and
skipped, reports are made, and the head of a routine is never taken.  Whoever
wants to know what such moves leave alone has to look at each sort of move
only once.  At the end of the program stands the exception, the rule for
routines, which is a statement form of its own.
-/

namespace Clipper.Grammar

open Rule

/-! ## Compound statements -/

/-- Inside the body of a program, a rule spares the heads of routines. -/
abbrev Rule.InBody
    {α : Type}
    (rule : Rule α)
    (state : State) :
    Prop :=
  rule.Spares (fun _ => false) state

theorem Rule.Spares.inBody
    {α : Type}
    {spared : TokenKind → Bool}
    {rule : Rule α}
    {state : State}
    (spares : rule.Spares spared state) :
    rule.InBody state :=
  spares.mono fun _ _ => rfl

/-- The forms of statements without blocks. -/
def StatementForm.isSimple : StatementForm → Bool
  | empty | declaration | result | control | print | expression => true
  | strayCloser | conditional | whileLoop | forLoop | routine => false

section Compound

variable {state : State}

/--
The forms of simple statements move as an expression does: they take no
closing word and report none.
-/
theorem inner_simpleForm
    {expression : Rule Expr}
    {block : List TokenKind → Rule Block}
    (innerExpression : ∀ state : State, expression.Inner state)
    {form : StatementForm}
    (simple : form.isSimple = true)
    (ahead : form.Ahead state)
    (opensNothing : opensRoutine state.rest = false) :
    (statementOfForm expression block form).Inner state := by
  cases form with
  | empty =>
      have free : isFree TokenKind.isCloser state.kind = true := by
        rw [show state.kind = .semicolon from ahead]
        rfl
      exact (spares_advance free).bind (spares_pure none)
  | declaration =>
      exact inner_terminated
        (inner_declaration innerExpression ahead opensNothing)
  | result =>
      exact inner_terminated (inner_resultStatement innerExpression ahead)
  | control => exact inner_terminated (inner_loopControl ahead)
  | print => exact inner_terminated (inner_printStatement innerExpression ahead)
  | expression =>
      exact inner_terminated (inner_expressionStatement innerExpression)
  | strayCloser | conditional | whileLoop | forLoop | routine => cases simple

theorem inBody_close
    {closer opener : TokenKind}
    (free : isFree (fun _ => false) closer = true) :
    (close closer opener).InBody state := by
  refine (spares_eat free).bind
    (spares_ite (fun _ => spares_pure ()) (fun _ => ?_))
  exact spares_ask_bind
    (spares_ite (fun _ => spares_pure ()) (fun _ => spares_reportHere rfl))

/-- After the `DO` that may open a loop stands its `WHILE`. -/
theorem kind_afterDo
    (words : state.kind = .whileWord ∨ state.kind = .doWord ∧
      state.secondKind = .whileWord) :
    ((eat .doWord).run state).2.kind = .whileWord := by
  rw [eat]
  dsimp only
  split
  · next isDo =>
      rw [isDo] at words
      obtain isWhile | isDoWhile := words
      · cases isWhile
      · rw [State.kind_advance, isDoWhile.2]
  · next noDo =>
      obtain isWhile | isDoWhile := words
      · exact isWhile
      · exact absurd isDoWhile.1 noDo

theorem ahead_of_opensRoutine
    {state : State}
    (opens : opensRoutine state.rest = true) :
    state.rest ≠ [] := by
  intro ended
  rw [ended] at opens
  cases opens

/-- After the `STATIC` that may open a routine stands the word for its kind. -/
theorem isRoutineWord_afterStatic (opens : opensRoutine state.rest = true) :
    isRoutineWord ((eat .static).run state).2.kind = true := by
  rw [opensRoutine_rest, Bool.or_eq_true, Bool.and_eq_true, beq_iff_eq] at opens
  rw [eat]
  dsimp only
  split
  · next isStatic =>
      rw [isStatic] at opens
      obtain isWord | isStaticRoutine := opens
      · cases isWord
      · rw [State.kind_advance, isStaticRoutine.2]
  · next noStatic =>
      obtain isWord | isStaticRoutine := opens
      · exact isWord
      · exact absurd isStaticRoutine.1 noStatic

theorem inner_trailingDo : trailingDo.Inner state := by
  refine spares_ask_bind
    (spares_ask_bind (spares_ite (fun isDo => ?_) (fun _ => spares_pure ())))
  have free : isFree TokenKind.isCloser state.kind = true := by rw [isDo.1]; rfl
  exact (spares_advance free).bind (spares_pure ())

theorem inner_counterAgain (counter : Identifier) :
    (counterAgain counter).Inner state := by
  refine spares_ask_bind
    (spares_ite (fun again => ?_) (fun _ => spares_pure ()))
  have free : isFree TokenKind.isCloser state.kind = true := by
    rw [State.kind, again.1]; rfl
  exact (spares_advance free).bind (spares_pure ())

theorem inner_counterSign : counterSign.Inner state := by
  refine (spares_eat rfl).bind
    (spares_ite (fun _ => spares_pure ()) (fun _ => ?_))
  exact (spares_eat rfl).bind
    (spares_ite (fun _ => spares_pure ()) (fun _ => spares_fail rfl))

theorem inner_parameters : parameters.Inner state := by
  refine (spares_eat rfl).bind
    (spares_ite (fun _ => ?_) (fun _ => spares_pure []))
  exact spares_enclosed rfl (fun _ => spares_expectName rfl _) rfl _

theorem inBody_closeFor (counter : Identifier) :
    (closeFor counter).InBody state := by
  refine (spares_eat rfl).bind
    (spares_ite (fun _ => (inner_counterAgain counter).inBody) (fun _ => ?_))
  exact spares_ask_bind
    (spares_ite (fun _ => spares_pure ()) (fun _ => spares_reportHere rfl))

theorem inBody_closeRoutine : closeRoutine.InBody state := by
  refine (spares_eat rfl).bind
    (spares_ite (fun _ => spares_pure ()) (fun _ => ?_))
  exact (spares_eat rfl).bind (spares_pure ())

theorem inBody_strayCloser (opensNothing : opensRoutine state.rest = false) :
    strayCloser.InBody state := by
  refine spares_ask_bind (Spares.bind (spares_reportHere rfl) ?_)
  have taken : (state.addHere (.unexpected state.kind)).Spares (fun _ => false)
      (state.addHere (.unexpected state.kind)).advance :=
    .single (.advance _ rfl opensNothing)
  exact Spares.bind taken (spares_pure none)

variable {expression : Rule Expr} {block : List TokenKind → Rule Block}
variable (innerExpression : ∀ state : State, expression.Inner state)
variable (bodyBlock : ∀ closers (state : State), (block closers).InBody state)

include innerExpression bodyBlock

theorem inBody_arm (start : Nat) :
    (arm expression block start).InBody state := by
  refine (innerExpression state).inBody.bind ((spares_eat rfl).bind ?_)
  exact (bodyBlock _ _).bind (spares_pure _)

/--
A conditional leaves the heads of routines alone, given that its blocks do.
-/
theorem inBody_conditional (word : state.kind = .ifWord) :
    (conditional expression block).InBody state := by
  have free : isFree (fun _ => false) state.kind = true := by rw [word]; rfl
  refine (spares_advance free).bind
    ((inBody_arm innerExpression bodyBlock _).bind ?_)
  refine (spares_many fun token rule opened => ?_).bind ?_
  · rw [furtherArm?] at opened
    split at opened
    · next isElseIf =>
        cases opened
        rw [isElseIf]
        exact ⟨rfl, fun _ => inBody_arm innerExpression bodyBlock _⟩
    · cases opened
  · refine (spares_optionalAfter rfl (bodyBlock _)).bind (spares_ask_bind ?_)
    exact (inBody_close rfl).bind (spares_ask_bind (spares_pure _))

/--
A loop with a condition leaves the heads of routines alone, with its word `DO`
before `WHILE` or without.
-/
theorem inBody_whileLoop
    (words : state.kind = .whileWord ∨ state.kind = .doWord ∧
      state.secondKind = .whileWord) :
    (whileLoop expression block).InBody state := by
  have free : isFree (fun _ => false) ((eat .doWord).run state).2.kind =
      true := by
    rw [kind_afterDo words]
    rfl
  refine spares_ask_bind ((spares_eat rfl).bind ((spares_advance free).bind ?_))
  refine (innerExpression _).inBody.bind
    (inner_trailingDo.inBody.bind ((bodyBlock _ _).bind ?_))
  exact (inBody_close rfl).bind (spares_ask_bind (spares_pure _))

/-- A counting loop leaves the heads of routines alone. -/
theorem inBody_forLoop (word : state.kind = .forWord) :
    (forLoop expression block).InBody state := by
  have free : isFree (fun _ => false) state.kind = true := by rw [word]; rfl
  refine (spares_advance free).bind
    ((spares_expectName rfl _).bind (inner_counterSign.inBody.bind ?_))
  refine (innerExpression _).inBody.bind ((spares_expect rfl _).bind ?_)
  refine (innerExpression _).inBody.bind
    (Spares.bind ?_ ((bodyBlock _ _).bind ?_))
  · exact spares_optionalAfter rfl fun _ => (innerExpression _).inBody
  · exact (inBody_closeFor _).bind (spares_ask_bind (spares_pure _))

/-- A statement of any form but a routine's spares the heads of routines. -/
theorem inBody_statementOfForm
    {form : StatementForm}
    (ahead : form.Ahead state)
    (opensNothing : opensRoutine state.rest = false) :
    (statementOfForm expression block form).InBody state := by
  cases simple : form.isSimple with
  | true =>
      exact (inner_simpleForm innerExpression simple ahead opensNothing).inBody
  | false =>
      cases form with
      | strayCloser => exact inBody_strayCloser opensNothing
      | conditional => exact inBody_conditional innerExpression bodyBlock ahead
      | whileLoop => exact inBody_whileLoop innerExpression bodyBlock ahead
      | forLoop => exact inBody_forLoop innerExpression bodyBlock ahead
      | routine => exact absurd ahead (Bool.eq_false_iff.mp opensNothing)
      | _ => cases simple

theorem inBody_statementOf (opensNothing : opensRoutine state.rest = false) :
    (statementOf expression block).InBody state :=
  Spares.bind spares_recovered
    (spares_ask_bind
      (inBody_statementOfForm innerExpression bodyBlock
        (StatementForm.ahead_of _) opensNothing))

end Compound

/-! ## Blocks -/

theorem inBody_blockTooDeep {state : State} : blockTooDeep.InBody state :=
  spares_ask_bind (spares_cutOff.bind (spares_pure _))

/--
A block leaves the heads of routines alone: before such a head it has ended.
-/
theorem inBody_blockOf
    {statement : Rule (Option Stmt)}
    (body : ∀ state : State, opensRoutine state.rest = false →
      statement.InBody state)
    (closers : List TokenKind)
    (state : State) :
    (blockOf statement closers).InBody state := by
  refine spares_ask_bind
    (Spares.bind (spares_sequence fun state inside => ?_) ?_)
  · rw [endsBlock, Bool.or_eq_false_iff] at inside
    refine ⟨body state inside.2, fun still => .single (.advance _ rfl ?_)⟩
    rw [still, inside.2]
  · exact Spares.bind spares_recovered (spares_ask_bind (spares_pure _))

/--
A block spares the heads of routines, and
so does every statement that is no routine.
-/
theorem inBody_statement
    (levels : Nat)
    (state : State)
    (opensNothing : opensRoutine state.rest = false) :
    (statement levels).InBody state := by
  induction levels generalizing state with
  | zero =>
      exact inBody_statementOf (inner_expression 0)
        (fun _ _ => inBody_blockTooDeep) opensNothing
  | succ levels hypothesis =>
      exact inBody_statementOf (inner_expression (levels + 1))
        (inBody_blockOf hypothesis) opensNothing

/--
At every level, statements are of the same
forms; what differs are the blocks in them.
-/
theorem exists_statementOf (levels : Nat) :
    ∃ block : List TokenKind → Rule Block,
      (∀ closers state, (block closers).InBody state) ∧
        statement levels = statementOf (expression levels) block := by
  cases levels with
  | zero => exact ⟨_, fun _ _ => inBody_blockTooDeep, rfl⟩
  | succ levels => exact ⟨_, inBody_blockOf (inBody_statement levels), rfl⟩

end Clipper.Grammar
