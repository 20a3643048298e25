import Clipper.Proofs.Grammar.TakenElsewhere

/-!
# Recovery before a block

Where a semicolon stands in the place of a header, the reading reports this
once, takes the semicolon and recovers.  It goes on to try the words of the
header, and they are taken if they stand there; an expression is not even tried.
A block ends the recovery: it is read as if nothing had been missing.

The reading ends its recovery at the block because a block reads statements,
and every attempt at a statement begins with the recovery over.  So between
the semicolon and the block no second error can be reported.  What the head of
the statement is then made of are placeholders, at the place of the token that
was ahead, and the block is the one that would be read without any fault.
-/

namespace Clipper

open Grammar Rule

namespace Grammar

/-! ## Recovering at a semicolon -/

/--
What is missing was reported at a semicolon,
which is taken, and the reading recovers.
-/
structure Recovers
    (report : Report)
    (rest : List Token)
    (reports : List Report)
    (after : State) : Prop where
  rest : after.rest = rest
  reports : after.reports = report :: reports
  recovering : after.recovering = true
  whole : after.cutShort = false

section

variable
  {state : State}
  {semicolon : Token}
  {rest : List Token}
  (calm : state.Calm)
  (shape : state.rest = semicolon :: rest)
  (isSemicolon : semicolon.kind = .semicolon)

include calm shape isSemicolon

/--
A failure at a semicolon makes one report there, takes the semicolon,
and has the rest ahead.
-/
theorem recovers_fail (cause : Cause) :
    Recovers ⟨cause, semicolon.span⟩ rest state.reports (state.fail cause) := by
  have skipped (reached : Nat) :
      skipToBoundary reached (semicolon :: rest) =
        (reached, semicolon :: rest) := by
    rw [skipToBoundary, isSemicolon]
    rfl
  have failed :
      state.fail cause =
        { state with
          rest := rest
          reached := semicolon.span.stop
          reports := ⟨cause, semicolon.span⟩ :: state.reports
          recovering := true } := by
    rcases state
      with ⟨tokens, stop, final, reached, reports, recovering, cutShort⟩
    cases shape
    cases calm.steady
    simp [State.fail, State.addHere, State.add, State.recover, skipped,
      State.kind, State.current, State.advance, isSemicolon]
  rw [failed]
  exact ⟨rfl, rfl, rfl, calm.whole⟩

omit calm in
/--
At a semicolon no primary begins: it is reported and skipped, and a
placeholder is made.
-/
theorem run_primary_semicolon (nested : Rule Expr) :
    (primary nested).run state =
      (.placeholder state.start,
        state.fail (.expectedExpression .semicolon)) := by
  have isCurrent : state.current = semicolon := State.current_of_rest shape
  have noLiteral : literal? semicolon = none := by rw [literal?, isSemicolon]
  have run : (primary nested).run state = noExpression.run state := by
    rw [primary, run_ask_bind, isCurrent, noLiteral]
    dsimp only
    rw [isSemicolon]
  rw [run, noExpression, run_ask_bind, State.start, isCurrent, isSemicolon]
  rfl

/--
At a semicolon the same holds of an operand with suffixes, as none
follows in a recovery.
-/
theorem run_suffixed_semicolon (nested : Rule Expr) :
    (suffixed nested).run state =
      (.placeholder state.start,
        state.fail (.expectedExpression .semicolon)) := by
  have recovers := recovers_fail calm shape isSemicolon
      (.expectedExpression .semicolon)
  have noSuffix : (many (suffix? nested)).run _ = _ :=
    runMany_closed (.inl recovers.recovering)
  rw [suffixed, run_bind, run_primary_semicolon shape isSemicolon,
    run_bind, noSuffix]
  rfl

/--
At a semicolon the same holds of an operand, with any number of levels left.
-/
theorem run_operand_semicolon (levels : Nat) :
    (operand levels).run state =
      (.placeholder state.start,
        state.fail (.expectedExpression .semicolon)) := by
  have noOperator : UnaryOperator.ofKind? state.kind = none := by
    rw [State.kind_of_rest shape, isSemicolon]
    rfl
  cases levels with
  | zero =>
      rw [operand, run_ask_bind, noOperator]
      exact run_suffixed_semicolon calm shape isSemicolon _
  | succ levels =>
      rw [operand, run_ask_bind, noOperator]
      exact run_suffixed_semicolon calm shape isSemicolon _

end

/-- No operator is looked for while the reading recovers. -/
theorem run_chain_of_recovering
    {operand : Rule Expr}
    {state next : State}
    {value : Expr}
    (run : operand.run state = (value, next))
    (recovering : next.recovering = true)
    (level : Nat) :
    (chain level operand).run state = (value, next) := by
  have noOperator : (many (rightOperand? level operand)).run next =
      ([], next) :=
    runMany_closed (.inl recovering)
  rw [chain, run_bind, run, run_bind, noOperator]
  rfl

/-- A reading that recovers behind the first operand takes no operator. -/
theorem run_binary_of_recovering
    {operand : Rule Expr}
    {state next : State}
    {value : Expr}
    (run : operand.run state = (value, next))
    (recovering : next.recovering = true) :
    (binary operand).run state = (value, next) := by
  have further {operand : Rule Expr} (level : Nat)
      (run : operand.run state = (value, next)) :=
    run_chain_of_recovering run recovering level
  exact further 1
    (further 2 (further 3 (further 4 (further 5 (further 6 run)))))

/--
A semicolon in the place of an expression is
reported, and a placeholder stands for it.
-/
theorem run_expression_semicolon
    {state : State}
    {semicolon : Token}
    {rest : List Token}
    (calm : state.Calm)
    (shape : state.rest = semicolon :: rest)
    (isSemicolon : semicolon.kind = .semicolon)
    (levels : Nat) :
    (expression (levels + 1)).run state =
      (.placeholder state.start,
        state.fail (.expectedExpression .semicolon)) := by
  have recovers := recovers_fail calm shape isSemicolon
      (.expectedExpression .semicolon)
  rw [expression, unlessRecovering, run_ask_bind, calm.steady,
    if_neg Bool.false_ne_true]
  exact run_binary_of_recovering
    (run_operand_semicolon calm shape isSemicolon levels) recovers.recovering

/--
A semicolon in the place of a name is reported,
and a placeholder stands for the name.
-/
theorem run_expectName_semicolon
    {state : State}
    (isSemicolon : state.kind = .semicolon)
    (place : NamePlace) :
    (expectName place).run state =
      (.placeholder state.start, state.fail (.expectedName place)) := by
  have noName : state.current.kind ≠ .identifier := by
    rw [show state.current.kind = .semicolon from isSemicolon]
    exact TokenKind.noConfusion
  rw [expectName, run_ask_bind, if_neg noName]
  rfl

/-! ## The words of a header while the reading recovers -/

section

variable {state : State} (recovering : state.recovering = true)

include recovering

theorem run_expression_recovering (levels : Nat) :
    (expression levels).run state = (.placeholder state.start, state) := by
  cases levels <;> rw [expression, unlessRecovering, run_ask_bind, recovering,
    if_pos rfl] <;> rfl

theorem run_fail_recovering (cause : Cause) :
    (fail cause).run state = ((), state) := by
  change ((), state.fail cause) = _
  rw [State.fail, if_pos recovering]

theorem run_expect_recovering
    {kind : TokenKind}
    (other : state.kind ≠ kind)
    (part : Part) :
    (expect kind part).run state = ((), state) := by
  rw [expect, run_bind, eat_elsewhere other]
  exact run_fail_recovering recovering _

theorem run_counterSign_recovering
    (noAssign : state.kind ≠ .assign)
    (noEqual : state.kind ≠ .equal) :
    counterSign.run state = ((), state) := by
  rw [counterSign, run_bind, eat_elsewhere noAssign]
  change (eat .equal >>= _).run state = _
  rw [run_bind, eat_elsewhere noEqual]
  exact run_fail_recovering recovering _

end

theorem run_optionalAfter_elsewhere
    {α : Type}
    {kind : TokenKind}
    {state : State}
    (other : state.kind ≠ kind)
    (rule : Rule α) :
    (optionalAfter kind rule).run state = (none, state) := by
  rw [optionalAfter, run_bind, eat_elsewhere other]
  rfl

/-! ## Blocks after a recovery -/

/-- It does not matter to a rule whether the reading recovers. -/
def Rule.EndsRecovery {α : Type} (rule : Rule α) : Prop :=
  ∀ (state : State) (recovering : Bool),
    rule.run { state with recovering := recovering } = rule.run state

theorem Rule.EndsRecovery.bind
    {α β : Type}
    {rule : Rule α}
    (ends : rule.EndsRecovery)
    (next : α → Rule β) :
    (rule >>= next).EndsRecovery := by
  intro state recovering
  rw [run_bind, run_bind, ends]

/--
The first statement of a block ends a
recovery, and so does the end of the block.
-/
theorem endsRecovery_blockOf
    (levels : Nat)
    (closers : List TokenKind) :
    (blockOf (statement levels) closers).EndsRecovery := by
  intro state recovering
  let lines := sequence (endsBlock closers) (statement levels)
  have start : { state with recovering := recovering }.start = state.start :=
    rfl
  rw [blockOf, run_ask_bind, run_ask_bind, start, run_bind lines,
    run_bind lines]
  by_cases closed : state.rest = [] ∨ endsBlock closers state = true
  · have stays : lines.run state = ([], state) := runSequence_closed closed
    have staysToo : lines.run { state with recovering := recovering } = _ :=
      runSequence_closed closed
    rw [stays, staysToo]
    rfl
  · rw [not_or, Bool.not_eq_true] at closed
    have opened : lines.run state = _ := runSequence_opened closed.1 closed.2
    have openedToo : lines.run { state with recovering := recovering } = _ :=
      runSequence_opened closed.1 closed.2
    rw [run_statement_recovering] at openedToo
    rw [opened, openedToo]
    rfl

/-! ## Compound statements from their blocks on -/

/-- A conditional from its first block on. -/
def conditionalBody
    (expression : Rule Expr)
    (block : List TokenKind → Rule Block)
    (start : Nat)
    (condition : Expr) :
    Rule Stmt := do
  let positive ← block armClosers
  let others ← many (furtherArm? expression block)
  let last? ← optionalAfter .elseWord (block [.endIf])
  let reached ← ask State.reached
  let negative? := others.foldr (Arm.nest reached) last?
  close .endIf .ifWord
  let span ← spanFrom start
  let inner :=
    (Arm.conditional reached ⟨start, condition, positive⟩ negative?).span
  pure (.conditional condition positive negative? (span.merge inner))

/-- A loop with a condition from its block on. -/
def whileBody
    (block : List TokenKind → Rule Block)
    (start : Nat)
    (condition : Expr) :
    Rule Stmt := do
  let body ← block [.endDo]
  close .endDo .whileWord
  let span ← spanFrom start
  pure (.whileLoop condition body ((span.merge body.span).merge condition.span))

/-- A counting loop from its block on. -/
def forBody
    (block : List TokenKind → Rule Block)
    (start : Nat)
    (counter : Identifier)
    (first last : Expr)
    (step? : Option Expr) :
    Rule Stmt := do
  let body ← block [.next]
  closeFor counter
  let span ← spanFrom start
  let span := ((span.merge counter.span).merge first.span).merge last.span
  let span := step?.elim span (fun step => span.merge step.span)
  pure (.forLoop counter first last step? body (span.merge body.span))

/-- A routine from its block on. -/
def routineBody
    (block : List TokenKind → Rule Block)
    (start : Nat)
    (head : RoutineHead) :
    Rule Stmt := do
  let body ← block [.endFunction, .endProcedure]
  closeRoutine
  routineOf start head body

section

variable
  {state : State}
  {word semicolon : Token}
  {rest : List Token}
  (calm : state.Calm)
  (shape : state.rest = word :: semicolon :: rest)
  (isSemicolon : semicolon.kind = .semicolon)
  (levels : Nat)
  (block : List TokenKind → Rule Block)

include calm shape isSemicolon

/--
A conditional without its condition makes one report, and its block is read as
if the condition were there.  The word `THEN` would be taken.
-/
theorem run_conditional_missing (noThen : headKind rest ≠ .thenWord) :
    ∃ start place after,
      Recovers ⟨.expectedExpression .semicolon, semicolon.span⟩ rest
        state.reports after ∧
        (conditional (expression (levels + 1)) block).run state =
          (conditionalBody (expression (levels + 1)) block start
            (.placeholder place)).run
            after := by
  have ahead := State.rest_advance shape
  have recovers := recovers_fail calm.advance ahead isSemicolon
      (.expectedExpression .semicolon)
  have other : (state.advance.fail (.expectedExpression .semicolon)).kind ≠
      .thenWord := by
    rwa [State.kind_eq_headKind, recovers.rest]
  rw [State.reports_advance] at recovers
  refine ⟨state.current.span.start, state.advance.start, _, recovers, ?_⟩
  change (expression (levels + 1) >>= fun condition =>
    eat .thenWord >>= fun _ =>
      conditionalBody (expression (levels + 1)) block state.current.span.start
        condition).run state.advance = _
  rw [run_bind, run_expression_semicolon calm.advance ahead isSemicolon,
    run_bind, eat_elsewhere other]

/--
A loop without its condition makes one report, and its body is read as
if the condition were there.  A word `DO` that does not open a loop of
its own would be taken.
-/
theorem run_whileLoop_missing
    (isWhile : word.kind = .whileWord)
    (noDo : ∀ state : State, state.rest = rest → state.kind = .doWord →
      state.secondKind = .whileWord) :
    ∃ start place after,
      Recovers ⟨.expectedExpression .semicolon, semicolon.span⟩ rest
        state.reports after ∧
        (whileLoop (expression (levels + 1)) block).run state =
          (whileBody block start (.placeholder place)).run after := by
  have ahead := State.rest_advance shape
  have recovers := recovers_fail calm.advance ahead isSemicolon
      (.expectedExpression .semicolon)
  have other : state.kind ≠ .doWord := by
    rw [State.kind_of_rest shape, isWhile]
    exact TokenKind.noConfusion
  have noTrailing : trailingDo.run
      (state.advance.fail (.expectedExpression .semicolon)) =
      ((), state.advance.fail (.expectedExpression .semicolon)) := by
    rw [trailingDo, run_ask_bind, run_ask_bind]
    rw [if_neg fun both => both.2 (noDo _ recovers.rest both.1)]
    rfl
  rw [State.reports_advance] at recovers
  refine ⟨state.start, state.advance.start, _, recovers, ?_⟩
  rw [whileLoop_eq, run_ask_bind, run_bind, eat_elsewhere other]
  change (expression (levels + 1) >>= fun condition => trailingDo >>= fun _ =>
    whileBody block state.start condition).run state.advance = _
  rw [run_bind, run_expression_semicolon calm.advance ahead isSemicolon,
    run_bind, noTrailing]

/--
A counting loop without its head makes one report, and its body is read as if
the head were there.  The signs and words of the head would be taken.
-/
theorem run_forLoop_missing
    (noAssign : headKind rest ≠ .assign)
    (noEqual : headKind rest ≠ .equal)
    (noTo : headKind rest ≠ .toWord)
    (noStep : headKind rest ≠ .step) :
    ∃ start counter first last after,
      Recovers ⟨.expectedName .forWord, semicolon.span⟩ rest
        state.reports after ∧
        (forLoop (expression (levels + 1)) block).run state =
          (forBody block start (.placeholder counter) (.placeholder first)
            (.placeholder last)
            none).run after := by
  have ahead := State.rest_advance shape
  have recovers := recovers_fail calm.advance ahead isSemicolon
      (.expectedName .forWord)
  have atSemicolon : state.advance.kind = .semicolon :=
    (State.kind_of_rest ahead).trans isSemicolon
  rw [← recovers.rest, ← State.kind_eq_headKind] at noAssign noEqual noTo noStep
  rw [State.reports_advance] at recovers
  let failed := state.advance.fail (.expectedName .forWord)
  refine ⟨state.current.span.start, state.advance.start, failed.start,
    failed.start, failed, recovers, ?_⟩
  change (expectName .forWord >>= fun counter => counterSign >>= fun _ =>
    expression (levels + 1) >>= fun first =>
      expect .toWord .loopStart >>= fun _ =>
        expression (levels + 1) >>= fun last =>
          optionalAfter .step (expression (levels + 1)) >>= fun step? =>
            forBody block state.current.span.start counter first last step?).run
            state.advance = _
  rw [run_bind, run_expectName_semicolon atSemicolon, run_bind,
    run_counterSign_recovering recovers.recovering noAssign noEqual, run_bind,
    run_expression_recovering recovers.recovering, run_bind,
    run_expect_recovering recovers.recovering noTo, run_bind,
    run_expression_recovering recovers.recovering, run_bind,
    run_optionalAfter_elsewhere noStep]

end

/-- The place that a routine's name has after the word of its kind. -/
def routinePlace : RoutineKind → NamePlace
  | .function => .functionWord
  | .procedure => .procedureWord

theorem run_parameters_elsewhere
    {state : State}
    (noParenthesis : state.kind ≠ .leftParenthesis) :
    parameters.run state = ([], state) := by
  rw [parameters, run_bind, eat_elsewhere noParenthesis]
  rfl

/-- Behind a parenthesis there are parameters, if it is not closed at once. -/
theorem run_parameters_ne_nil
    {state : State}
    (isParenthesis : state.kind = .leftParenthesis)
    (unclosed : state.advance.kind ≠ .rightParenthesis) :
    (parameters.run state).1 ≠ [] := by
  rw [parameters, run_bind, eat_here isParenthesis, if_pos rfl, enclosed,
    run_bind, separatedUnless, run_ask_bind, if_neg unclosed]
  exact List.cons_ne_nil _ _

section

variable
  {state : State}
  {word semicolon : Token}
  {before rest : List Token}
  (calm : state.Calm)
  (isSemicolon : semicolon.kind = .semicolon)
  {kind : RoutineKind}
  (words : word.kind = routineWord kind)

include calm isSemicolon words

/-- The name is missing; parameters are looked for all the same. -/
theorem run_routineHead_missing
    (shape : state.rest = word :: semicolon :: rest)
    (start : Nat)
    (isStatic : Bool) :
    ∃ place after,
      Recovers ⟨.expectedName (routinePlace kind), semicolon.span⟩ rest
        state.reports after ∧ (routineHead start isStatic).run state =
          ((start, ⟨kind, isStatic, .placeholder place,
            (parameters.run after).1⟩), (parameters.run after).2) := by
  have ahead := State.rest_advance shape
  have recovers := recovers_fail calm.advance ahead isSemicolon
      (.expectedName (routinePlace kind))
  have atSemicolon : state.advance.kind = .semicolon :=
    (State.kind_of_rest ahead).trans isSemicolon
  rw [State.reports_advance] at recovers
  refine ⟨state.advance.start, _, recovers, ?_⟩
  have isWord : state.current = word := State.current_of_rest shape
  have place :
      (if word.kind = .function then NamePlace.functionWord
        else .procedureWord) = routinePlace kind := by
    cases kind <;> rw [words] <;> rfl
  have isKind :
      (if word.kind = .function then RoutineKind.function
        else .procedure) = kind := by
    cases kind <;> rw [words] <;> rfl
  rw [routineHead, run_advance_bind, isWord]
  dsimp only
  rw [place, isKind, run_bind, run_expectName_semicolon atSemicolon]
  rfl

/--
A routine without its name makes one report.  Where a parenthesis follows, it
is still read as the beginning of the parameters.
-/
theorem run_routine_missing
    {isStatic : Bool}
    (statics : OptionalToken [.static] before isStatic)
    (shape : state.rest = before ++ word :: semicolon :: rest)
    (block : List TokenKind → Rule Block) :
    ∃ start place after,
      Recovers ⟨.expectedName (routinePlace kind), semicolon.span⟩ rest
        state.reports after ∧ (routine block).run state =
          (routineBody block start
            ⟨kind, isStatic, .placeholder place, (parameters.run after).1⟩).run
              (parameters.run after).2 := by
  have run
      {start : Nat}
      {head : RoutineHead}
      {after : State}
      (ran : routineOpening.run state = ((start, head), after)) :
      (routine block).run state = (routineBody block start head).run after := by
    rw [routine_eq, run_bind, ran]
    rfl
  cases statics with
  | absent =>
      rw [List.nil_append] at shape
      have noStatic : state.kind ≠ .static := by
        rw [State.kind_of_rest shape, words]
        cases kind <;> exact TokenKind.noConfusion
      obtain ⟨place, after, recovers, head⟩ :=
        run_routineHead_missing calm isSemicolon words shape state.start false
      refine ⟨state.start, place, after, recovers, run ?_⟩
      rw [routineOpening, run_ask_bind, run_bind, eat_elsewhere noStatic]
      exact head
  | present isStatic =>
      rw [List.singleton_append] at shape
      have here : state.kind = .static :=
        (State.kind_of_rest shape).trans (List.mem_singleton.mp isStatic)
      obtain ⟨place, after, recovers, head⟩ :=
        run_routineHead_missing calm.advance isSemicolon words
          (State.rest_advance shape) state.start true
      rw [State.reports_advance] at recovers
      refine ⟨state.start, place, after, recovers, run ?_⟩
      rw [routineOpening, run_ask_bind, run_bind, eat_here here]
      exact head

end

end Grammar

end Clipper
