import Mathlib.Data.List.TakeWhile
import Clipper.Proofs.Grammar.Course
import Clipper.Proofs.Grammar.StatementForms
import Clipper.Proofs.Grammar.Together

/-!
# Attempts at a statement

Every attempt at a statement takes a token: a word that no statement begins with
is a closing word, a semicolon or the head of a routine, each of which has a
form of its own; at every other token an expression is read, which takes the
token or skips it.  So the loops over statements need not force the reading on.

To count the attempts of a whole reading, a note is made before each of them, as
a report with a cause that no reading makes.  Between two notes a token is
taken.
-/

namespace Clipper.Grammar

open Rule

/-! ## Notes -/

/-- The cause of a note; it differs from all causes of errors. -/
def noteCause : Cause :=
  .tooDeep 0

/-- Whether a report is a note. -/
def Report.isNote (report : Report) : Bool :=
  report.cause == noteCause

theorem Report.isNote_of_isExpectation
    {cause : Cause}
    (expects : cause.isExpectation = true)
    (span : Span) :
    Report.isNote ⟨cause, span⟩ = false := by
  cases cause with
  | expectedExpression | expectedName | expectedToken => rfl
  | _ => cases expects

/-- A statement, before which a note is made, as before all statements in it. -/
def notedStatement : Nat → Rule (Option Stmt)
  | 0 => do
      reportHere noteCause
      statementOf (expression 0) (fun _ => blockTooDeep)
  | levels + 1 => do
      reportHere noteCause
      statementOf (expression (levels + 1)) (blockOf (notedStatement levels))

/-- A program with a note before each attempt at a statement. -/
def notedProgram : Rule Program := do
  let statements ← sequence (fun _ => false) (notedStatement nestingLimit)
  let final ← ask State.current
  pure ⟨statements, ⟨0, final.span.stop⟩⟩

namespace State

/-- The places of the notes, in the order in which they were made. -/
def notes (state : State) : List Span :=
  ((state.reports.filter Report.isNote).reverse).map Report.span

theorem notes_add
    (state : State)
    {report : Report}
    (noNote : report.isNote = false) :
    (state.add report).notes = state.notes := by
  simp [notes, add, noNote]

theorem notes_note (state : State) :
    (state.addHere noteCause).notes = state.notes ++ [state.current.span] := by
  simp [notes, addHere, add, Report.isNote]

theorem notes_advance (state : State) : state.advance.notes = state.notes := by
  rw [advance]
  split <;> rfl

/--
A failure makes no note: its cause is that something was expected, and no
such cause is a note.
-/
theorem notes_fail
    (state : State)
    {cause : Cause}
    (expects : cause.isExpectation = true) :
    (state.fail cause).notes = state.notes := by
  rw [fail]
  split
  · rfl
  · rw [notes, reports_recover]
    exact state.notes_add (Report.isNote_of_isExpectation expects _)

theorem notes_cutOff (state : State) : state.cutOff.notes = state.notes := by
  change (if state.cutShort then state
    else state.addHere (.tooDeep nestingLimit)).notes = _
  split
  · rfl
  · exact state.notes_add rfl

/-- Whether tokens ahead are all before the end of the file. -/
def EndsLast (state : State) : Prop :=
  ∀ token ∈ state.rest, token.kind ≠ .endOfFile

/--
Some of the tokens ahead are passed, and some notes made, each at another one of
these tokens and in their order; an end-of-file token does not count as one.
-/
def Tallies (before after : State) : Prop :=
  before.EndsLast →
    ∃ passed made,
      before.rest = passed ++ after.rest ∧ after.notes = before.notes ++ made ∧
        made.Sublist (passed.map Token.span)

/-- What makes no notes may pass any tokens. -/
theorem tallies_of_quiet
    {before after : State}
    (suffix : after.rest <:+ before.rest)
    (quiet : after.notes = before.notes) :
    before.Tallies after := by
  intro _
  obtain ⟨passed, shape⟩ := suffix
  exact ⟨passed, [],
    shape.symm, by rw [quiet, List.append_nil], List.nil_sublist _⟩

theorem Tallies.suffix
    {before after : State}
    (tallies : before.Tallies after)
    (endsLast : before.EndsLast) :
    after.rest <:+ before.rest := by
  obtain ⟨passed, made, shape, -⟩ := tallies endsLast
  exact ⟨passed, shape.symm⟩

theorem EndsLast.of_suffix
    {before after : State}
    (endsLast : before.EndsLast)
    (suffix : after.rest <:+ before.rest) :
    after.EndsLast :=
  fun token member => endsLast token (suffix.subset member)

/--
Tallies add up: over two parts of a reading, the notes are at most the tokens
that both parts have taken.
-/
theorem Tallies.trans
    {first second third : State}
    (earlier : first.Tallies second)
    (later : second.Tallies third) :
    first.Tallies third := by
  intro endsLast
  have suffix := earlier.suffix endsLast
  obtain ⟨passed, made, shape, notes, among⟩ := earlier endsLast
  obtain ⟨more, others, laterShape, laterNotes, laterAmong⟩ :=
    later (endsLast.of_suffix suffix)
  refine ⟨passed ++ more, made ++ others, ?_, ?_, ?_⟩
  · rw [shape, laterShape, List.append_assoc]
  · rw [laterNotes, notes, List.append_assoc]
  · rw [List.map_append]
    exact among.append laterAmong

/-- A reading without notes makes none. -/
theorem quiet_course :
    StatementCourse (fun before after => after.notes = before.notes) where
  refl _ := rfl
  trans earlier later := later.trans earlier
  advance := notes_advance
  invalidToken state _ _ := (notes_advance _).trans (state.notes_add rfl)
  fail state _ expects := state.notes_fail expects
  cutOff state _ := state.notes_cutOff
  cutBlock := notes_cutOff
  reportHere state cause misplaced := by
    refine state.notes_add ?_
    cases cause with
    | unexpected | unclosed => rfl
    | _ => cases misplaced
  recovered _ := rfl

/--
Every move of a reading keeps the tally, so it is kept along every
rule of the grammar.
-/
theorem tallies_course : StatementCourse Tallies where
  refl state := tallies_of_quiet (List.suffix_refl _) (quiet_course.refl state)
  trans := Tallies.trans
  advance state := tallies_of_quiet state.advance_suffix
    (quiet_course.advance state)
  invalidToken state steady error :=
    tallies_of_quiet (advance_suffix (state.addHere _))
      (quiet_course.invalidToken state steady error)
  fail state cause expects :=
    tallies_of_quiet (state.fail_suffix cause)
      (quiet_course.fail state cause expects)
  cutOff state steady :=
    tallies_of_quiet List.nil_suffix (quiet_course.cutOff state steady)
  cutBlock state := tallies_of_quiet List.nil_suffix
    (quiet_course.cutBlock state)
  reportHere state cause misplaced :=
    tallies_of_quiet (List.suffix_refl _)
      (quiet_course.reportHere state cause misplaced)
  recovered state :=
    tallies_of_quiet (List.suffix_refl _) (quiet_course.recovered state)

end State

/-! ## The first token -/

namespace State

theorem rest_advance_eq_tail (state : State) :
    state.advance.rest = state.rest.tail := by
  rw [advance]
  cases shape : state.rest with
  | nil => exact shape
  | cons token rest => rfl

/--
States with the same tokens ahead and the same notes pass the next token alike.
-/
theorem tallies_advance_of_same
    {before after : State}
    (ahead : after.rest = before.rest)
    (noted : after.notes = before.notes) :
    before.advance.Tallies after.advance := by
  have same : after.advance.rest = before.advance.rest := by
    rw [rest_advance_eq_tail, rest_advance_eq_tail, ahead]
  refine tallies_of_quiet (same ▸ List.suffix_refl _) ?_
  rw [notes_advance, notes_advance, noted]

/-- The token ahead is one at which a recovery does not stop. -/
structure Skippable (state : State) : Prop where
  steady : state.recovering = false
  inner : isBoundary state.kind = false
  noHead : opensRoutine state.rest = false

/-- A recovery skips the token ahead. -/
theorem Skippable.recover_suffix
    {state : State}
    (skippable : state.Skippable) :
    state.recover.rest <:+ state.rest.tail := by
  have skipped : (skipToBoundary state.reached state.rest).2 <:+
      state.rest.tail := by
    cases shape : state.rest with
    | nil => exact List.suffix_refl _
    | cons token rest =>
        have goesOn : ¬(isBoundary token.kind || opensRoutine (token :: rest)) =
            true := by
          rw [← state.kind_of_rest shape, ← shape, skippable.inner,
            skippable.noHead]
          exact Bool.false_ne_true
        rw [skipToBoundary, if_neg goesOn]
        exact skipToBoundary_suffix _ rest
  rw [recover]
  dsimp only
  split
  · exact (advance_suffix _).trans skipped
  · exact skipped

end State

namespace Rule

variable {state : State}

/-- What leaves fewer tokens ahead and makes no note has taken the one ahead. -/
theorem takesAt_of_quiet
    {α : Type}
    {rule : Rule α}
    (suffix : (rule.run state).2.rest <:+ state.rest.tail)
    (quiet : (rule.run state).2.notes = state.notes) :
    rule.TakesAt State.Tallies state := by
  refine State.tallies_of_quiet ?_ (quiet.trans state.notes_advance.symm)
  rwa [State.rest_advance_eq_tail]

/--
A failure takes a token where one can be skipped, since a semicolon or a
closing word is not ahead.
-/
theorem takesAt_fail
    (skippable : state.Skippable)
    {cause : Cause}
    (expects : cause.isExpectation = true) :
    (fail cause).TakesAt State.Tallies state := by
  refine takesAt_of_quiet ?_ (state.notes_fail expects)
  change (state.fail cause).rest <:+ _
  rw [State.fail, if_neg (Bool.eq_false_iff.mp skippable.steady)]
  have added : (state.addHere cause).Skippable :=
    ⟨skippable.steady, skippable.inner, skippable.noHead⟩
  exact added.recover_suffix

theorem takesAt_cutOff : cutOff.TakesAt State.Tallies state :=
  takesAt_of_quiet List.nil_suffix state.notes_cutOff

end Rule

/-! ## Expressions -/

section

variable {state : State}

theorem takesAt_tooDeep : tooDeep.TakesAt State.Tallies state :=
  takesAt_cutOff.bind State.tallies_course.toCourse fun _ =>
    along_placeholderHere State.tallies_course.toCourse

/-- A token may be reported before it is taken. -/
theorem takesAt_reportHere_bind
    {α : Type}
    {cause : Cause}
    {next : Token → Rule α}
    (noNote : Report.isNote ⟨cause, state.current.span⟩ = false)
    (later : ∀ token, (next token).Along State.Tallies) :
    (reportHere cause >>= fun _ => advance >>= next).TakesAt
      State.Tallies state := by
  have taken : state.advance.Tallies (state.addHere cause).advance :=
    State.tallies_advance_of_same rfl (state.notes_add noNote)
  exact taken.trans (later _ _)

variable (skippable : state.Skippable)

include skippable

theorem takesAt_noExpression : noExpression.TakesAt State.Tallies state := by
  have course := State.tallies_course.toCourse
  exact takesAt_ask_bind
    ((takesAt_fail skippable rfl).bind course fun _ => along_pure course _)

variable {nested : Rule Expr}

/-- A primary takes a token or skips the one that begins no expression. -/
theorem takesAt_primary (along : nested.Along State.Tallies) :
    (primary nested).TakesAt State.Tallies state := by
  have course := State.tallies_course.toCourse
  refine takesAt_ask_bind ?_
  split
  · exact takesAt_advance_bind (fun _ => along_pure course _) state
  · split
    · exact takesAt_advance_bind (fun _ => along_pure course _) state
    · exact takesAt_parenthesized course along state
    · refine takesAt_ask_bind ?_
      split
      · exact takesAt_codeBlock course along state
      · exact takesAt_arrayLiteral course along state
    · refine takesAt_ask_bind
        (takesAt_reportHere_bind rfl fun _ => along_pure course _)
    · exact takesAt_noExpression skippable

theorem takesAt_suffixed (along : nested.Along State.Tallies) :
    (suffixed nested).TakesAt State.Tallies state := by
  have course := State.tallies_course.toCourse
  have suffixes : (many (suffix? nested)).Along State.Tallies :=
    along_many course fun token rule opened =>
      (along_suffix? course along token rule opened).steady
  exact (takesAt_primary skippable along).bind course fun _ =>
    suffixes.bind course fun _ => along_pure course _

omit skippable in
theorem takesAt_chain
    (level : Nat)
    (steady : nested.AlongSteady State.Tallies)
    (takes : nested.TakesAt State.Tallies state) :
    (chain level nested).TakesAt State.Tallies state := by
  have course := State.tallies_course.toCourse
  exact takes.bind course fun _ =>
    (along_rightOperands course steady level).bind course fun _ =>
      along_pure course _

omit skippable in
/-- A chain of operators takes a token if its first operand does. -/
theorem takesAt_binary
    (steady : nested.AlongSteady State.Tallies)
    (takes : nested.TakesAt State.Tallies state) :
    (binary nested).TakesAt State.Tallies state := by
  have course := State.tallies_course.toCourse
  have sixth := steady.chain course 6
  have fifth := sixth.chain course 5
  have fourth := fifth.chain course 4
  have third := fourth.chain course 3
  have second := third.chain course 2
  exact takesAt_chain 1 second (takesAt_chain 2 third (takesAt_chain 3 fourth
    (takesAt_chain 4 fifth
      (takesAt_chain 5 sixth (takesAt_chain 6 steady takes)))))

/-- A prefix operator is a token that is taken. -/
theorem takesAt_prefixed
    (steady : nested.AlongSteady State.Tallies)
    (operator : UnaryOperator) :
    (prefixed nested operator).TakesAt State.Tallies state := by
  have course := State.tallies_course.toCourse
  have later (token : Token) : (do
      let inner ← nested
      let span ← spanFrom token.span.start
      pure (Expr.unary operator inner (span.merge inner.span))).AlongSteady
      State.Tallies :=
    steady.bind course fun _ => along_ask_bind course fun _ =>
      along_pure course _
  exact later _ _ (state.recovering_advance.trans skippable.steady)

/-- An operand takes a token, with any number of levels left. -/
theorem takesAt_operand (levels : Nat) :
    (operand levels).TakesAt State.Tallies state := by
  have course := State.tallies_course.toCourse
  cases levels with
  | zero =>
      refine takesAt_ask_bind ?_
      cases UnaryOperator.ofKind? state.kind with
      | some _ => exact takesAt_tooDeep
      | none =>
          exact takesAt_suffixed skippable
            ((steady_tooDeep course).unlessRecovering course)
  | succ levels =>
      have steady := steady_operand course levels
      refine takesAt_ask_bind ?_
      cases UnaryOperator.ofKind? state.kind with
      | some operator => exact takesAt_prefixed skippable steady operator
      | none =>
          exact takesAt_suffixed skippable
            ((steady.binary course).unlessRecovering course)

/-- An expression takes or skips a token at which a recovery does not stop. -/
theorem takesAt_expression (levels : Nat) :
    (expression levels).TakesAt State.Tallies state := by
  have course := State.tallies_course.toCourse
  have calm : ¬state.recovering = true := Bool.eq_false_iff.mp skippable.steady
  cases levels with
  | zero =>
      refine takesAt_ask_bind ?_
      rw [if_neg calm]
      exact takesAt_tooDeep
  | succ levels =>
      refine takesAt_ask_bind ?_
      rw [if_neg calm]
      exact takesAt_binary (steady_operand course levels)
        (takesAt_operand skippable levels)

end

/-! ## Statements -/

/-- What follows the target of an assignment makes no note. -/
theorem tallies_afterTarget
    (levels start : Nat)
    (target : Expr) :
    (do
      if ← ask State.recovering then standalone start target
      else
        match AssignmentForm.ofKind? (← ask State.kind) with
        | none => standalone start target
        | some form => assignment (expression levels) start target form :
      Rule Stmt).Along State.Tallies := by
  have course := State.tallies_course.toCourse
  have checked : (checkTarget target).Along State.Tallies :=
    along_ite (along_pure course ()) fun state =>
      State.tallies_of_quiet (List.suffix_refl _) (state.notes_add rfl)
  refine along_ask_bind course fun _ =>
    along_ite (along_standalone course start target) ?_
  refine along_ask_bind course fun kind => ?_
  cases AssignmentForm.ofKind? kind with
  | none => exact along_standalone course start target
  | some form =>
      have along := along_expression course levels
      exact fun state =>
        (checked state).trans
          (along_assignment course along start target form state)

theorem tallies_expressionStatement (levels : Nat) :
    (expressionStatement (expression levels)).Along State.Tallies := by
  have course := State.tallies_course.toCourse
  exact along_ask_bind course fun start =>
    (along_expression course levels).bind course fun target =>
      tallies_afterTarget levels start target

theorem takesAt_expressionStatement
    {state : State}
    (skippable : state.Skippable)
    (levels : Nat) :
    (expressionStatement (expression levels)).TakesAt State.Tallies state := by
  have course := State.tallies_course.toCourse
  exact takesAt_ask_bind
    ((takesAt_expression skippable levels).bind course fun target =>
      tallies_afterTarget levels _ target)

theorem takesAt_strayCloser (state : State) :
    strayCloser.TakesAt State.Tallies state :=
  takesAt_ask_bind (takesAt_reportHere_bind rfl fun _ =>
    along_pure State.tallies_course.toCourse none)

/--
The kinds that begin no form but an expression
are none at which a recovery stops.
-/
theorem kind_of_expression
    {state : State}
    (ahead : state.kind ≠ .endOfFile)
    (form : StatementForm.of state = .expression) :
    isBoundary state.kind = false ∧ isRoutineWord state.kind = false ∧
    state.kind ≠ .static := by
  rw [StatementForm.of] at form
  generalize state.kind = kind at ahead form ⊢
  cases kind with
  | endOfFile => exact absurd rfl ahead
  | static =>
      dsimp only at form
      split at form
      · cases form
      · cases form
  | _ =>
      first
        | exact ⟨rfl, rfl, by decide⟩
        | cases form

/-- Where no other form stands ahead, a recovery does not stop. -/
theorem skippable_of_expression
    {state : State}
    (steady : state.recovering = false)
    (ahead : state.kind ≠ .endOfFile)
    (form : StatementForm.of state = .expression) :
    state.Skippable := by
  obtain ⟨inner, noWord, noStatic⟩ := kind_of_expression ahead form
  refine ⟨steady, inner, ?_⟩
  rw [opensRoutine_rest, noWord, beq_eq_false_iff_ne.mpr noStatic]
  rfl

/-- Before anything else, a statement takes or skips the token ahead. -/
theorem takesAt_statementOf
    (levels : Nat)
    {block : List TokenKind → Rule Block}
    (alongBlock : ∀ closers, (block closers).Along State.Tallies)
    {state : State}
    (ahead : state.kind ≠ .endOfFile) :
    (statementOf (expression levels) block).TakesAt State.Tallies state := by
  have course := State.tallies_course
  have onward := course.toCourse
  have along := along_expression onward levels
  have simple {rule : Rule Stmt}
      (takes : ∀ state, rule.TakesAt State.Tallies state) (state : State) :
      (terminated rule).TakesAt State.Tallies state :=
    (takes state).bind onward fun _ => (along_eat onward _).bind onward fun _ =>
      along_pure onward _
  have compound {rule : Rule Stmt}
      (takes : ∀ state, rule.TakesAt State.Tallies state) (state : State) :
      (some <$> rule).TakesAt State.Tallies state :=
    (takes state).bind onward fun _ => along_pure onward _
  -- A statement ends a recovery before its form is asked for.
  let calm : State := { state with recovering := false }
  suffices takes :
      (statementOfForm (expression levels) block (.of calm)).TakesAt
        State.Tallies calm by
    have calmed : state.advance.Tallies calm.advance :=
      State.tallies_advance_of_same rfl rfl
    exact calmed.trans takes
  cases form : StatementForm.of calm with
  | empty => exact takesAt_advance_bind (fun _ => along_pure onward none) calm
  | strayCloser => exact takesAt_strayCloser calm
  | conditional =>
      exact compound (takesAt_conditional course alongBlock along) calm
  | whileLoop => exact compound (takesAt_whileLoop course alongBlock along) calm
  | forLoop => exact compound (takesAt_forLoop course alongBlock along) calm
  | routine => exact compound (takesAt_routine course alongBlock) calm
  | declaration => exact simple (takesAt_declaration onward along) calm
  | result => exact simple (takesAt_resultStatement onward along) calm
  | control => exact simple (takesAt_loopControl onward) calm
  | print => exact simple (takesAt_printStatement onward along) calm
  | expression =>
      have skippable : calm.Skippable := skippable_of_expression rfl ahead form
      exact (takesAt_expressionStatement skippable levels).bind onward fun _ =>
        (along_eat onward _).bind onward fun _ => along_pure onward _

/-- Blocks keep the tally, with any number of levels left. -/
theorem tallies_blocks
    (levels : Nat)
    (closers : List TokenKind) :
    (blocks levels closers).Along State.Tallies := by
  cases levels with
  | zero => exact along_blockTooDeep State.tallies_course
  | succ levels =>
      have along := along_statement State.tallies_course
          tallies_expressionStatement levels
      exact along_blockOf State.tallies_course
        (fun state _ => along state) closers

/-! ## Progress -/

namespace State

theorem endsLast_ofTokens (tokens : List Token) :
    (ofTokens tokens).EndsLast := by
  intro token member
  have ahead : token ∈
      tokens.takeWhile (fun token => token.kind != .endOfFile) := member
  have passes := List.mem_takeWhile_imp ahead
  exact bne_iff_ne.mp passes

theorem Reaches.endsLast
    {tokens : List Token}
    {state : State}
    (reaches : (ofTokens tokens).Reaches state) :
    state.EndsLast :=
  (endsLast_ofTokens tokens).of_suffix reaches.suffix

/-- The end of the file is ahead where no tokens are. -/
theorem EndsLast.kind_eq_endOfFile_iff
    {state : State}
    (endsLast : state.EndsLast) :
    state.kind = .endOfFile ↔ state.rest = [] := by
  cases shape : state.rest with
  | nil => simp [kind, current, shape]
  | cons token rest =>
      rw [state.kind_of_rest shape]
      refine iff_of_false (endsLast token ?_) (List.cons_ne_nil token rest)
      rw [shape]
      exact List.mem_cons_self

end State

/-- A statement takes or skips the token ahead. -/
theorem suffix_tail_statement
    (levels : Nat)
    {state : State}
    (endsLast : state.EndsLast)
    (ahead : state.kind ≠ .endOfFile) :
    ((statement levels).run state).2.rest <:+ state.rest.tail := by
  have takes : (statement levels).TakesAt State.Tallies state := by
    rw [statement_eq]
    exact takesAt_statementOf levels (tallies_blocks levels) ahead
  rw [← state.rest_advance_eq_tail]
  exact takes.suffix (endsLast.of_suffix state.advance_suffix)

/--
An attempt at a statement leaves fewer tokens ahead.  This is what ends the
loop, without a step forward by force.
-/
theorem length_rest_statement
    (levels : Nat)
    {state : State}
    (endsLast : state.EndsLast)
    (ahead : state.kind ≠ .endOfFile) :
    ((statement levels).run state).2.rest.length < state.rest.length := by
  have taken := (suffix_tail_statement levels endsLast ahead).length_le
  have some := List.length_pos_iff.mpr
      (mt endsLast.kind_eq_endOfFile_iff.mpr ahead)
  rw [List.length_tail] at taken
  omega

/-- A loop does not force the reading on behind a statement. -/
theorem forward_statement
    (levels : Nat)
    {state : State}
    (endsLast : state.EndsLast)
    (ahead : state.kind ≠ .endOfFile) :
    state.forward ((statement levels).run state).2 =
      ((statement levels).run state).2 :=
  State.forward_of_taken (length_rest_statement levels endsLast ahead)

/-! ## Rounds -/

/--
A loop that reads items up to the end of the file, or to a state that closes it,
and never forces the reading on: the states from which it reads an item, and the
values that it reads.
-/
inductive Rounds
    (closes : State → Bool)
    (item : Rule (Option Stmt)) :
    State → List State → List Stmt → State → Prop
  | ended {state : State}
      (stops : state.kind = .endOfFile ∨ closes state = true) :
      Rounds closes item state [] [] state
  | round {state after : State} {attempts : List State} {values : List Stmt}
      (ahead : state.kind ≠ .endOfFile) (opened : closes state = false)
      (later : Rounds closes item (item.run state).2 attempts values after) :
      Rounds closes item state (state :: attempts)
        ((item.run state).1.toList ++ values) after

/--
A loop over statements goes round at most once for each token that it takes.
-/
theorem exists_rounds
    (levels : Nat)
    (closes : State → Bool)
    {state : State}
    (endsLast : state.EndsLast) :
    ∃ attempts,
      Rounds closes (statement levels) state attempts
        ((sequence closes (statement levels)).run state).1
        ((sequence closes (statement levels)).run state).2 ∧
      attempts.length +
        ((sequence closes (statement levels)).run state).2.rest.length ≤
        state.rest.length := by
  induction size : state.rest.length using Nat.strongRecOn
    generalizing state with
  | ind length hypothesis =>
      subst size
      by_cases stops : state.kind = .endOfFile ∨ closes state = true
      · have closed : (sequence closes (statement levels)).run state =
            ([], state) :=
          runSequence_closed (stops.imp_left endsLast.kind_eq_endOfFile_iff.mp)
        rw [closed]
        exact ⟨[], .ended stops, by simp⟩
      · rw [not_or] at stops
        have opened : (sequence closes (statement levels)).run state = _ :=
          runSequence_opened (mt endsLast.kind_eq_endOfFile_iff.mpr stops.1)
            (Bool.eq_false_iff.mpr stops.2)
        have taken := length_rest_statement levels endsLast stops.1
        rw [forward_statement levels endsLast stops.1] at opened
        obtain ⟨attempts, rounds, bound⟩ :=
          hypothesis _ taken
            (endsLast.of_suffix ((statement levels).suffix state)) rfl
        rw [opened]
        refine ⟨state :: attempts,
          .round stops.1 (Bool.eq_false_iff.mpr stops.2) rounds, ?_⟩
        rw [List.length_cons, Nat.add_right_comm]
        exact Nat.lt_of_le_of_lt bound taken

/-- The rounds of a loop go on until the loop closes or the tokens end. -/
theorem Rounds.stops
    {closes : State → Bool}
    {item : Rule (Option Stmt)}
    {state after : State}
    {attempts : List State}
    {values : List Stmt}
    (rounds : Rounds closes item state attempts values after) :
    after.kind = .endOfFile ∨ closes after = true := by
  induction rounds with
  | ended stops => exact stops
  | round _ _ _ hypothesis => exact hypothesis

/-! ## One note for a token -/

/--
A note stands at the token that the statement behind it takes or skips first.
-/
theorem tallies_noted
    (levels : Nat)
    {block : List TokenKind → Rule Block}
    (alongBlock : ∀ closers, (block closers).Along State.Tallies)
    {state : State}
    (present : state.rest ≠ []) :
    state.Tallies
      ((reportHere noteCause >>= fun _ =>
        statementOf (expression levels) block).run state).2 := by
  intro endsLast
  have ahead := mt endsLast.kind_eq_endOfFile_iff.mp present
  have takes : (statementOf (expression levels) block).TakesAt State.Tallies
      (state.addHere noteCause) :=
    takesAt_statementOf levels alongBlock ahead
  have split : state.rest = state.current ::
      (state.addHere noteCause).advance.rest := by
    rw [State.rest_advance_eq_tail]
    exact (State.rest_of_kind rfl ahead).trans
      (by rw [State.rest_advance_eq_tail]; rfl)
  obtain ⟨passed, made, shape, notes, among⟩ :=
    takes (State.EndsLast.of_suffix endsLast ⟨[state.current], split.symm⟩)
  refine ⟨state.current :: passed, state.current.span :: made, ?_, ?_,
    among.cons_cons _⟩
  · rw [split, shape]
    rfl
  · rw [State.notes_advance, State.notes_note, List.append_assoc] at notes
    exact notes

/--
An attempt with its note keeps the tally: the note is paid for by the token
that the attempt takes.
-/
theorem tallies_notedStatement
    (levels : Nat)
    {state : State}
    (present : state.rest ≠ []) :
    state.Tallies ((notedStatement levels).run state).2 := by
  have course := State.tallies_course
  induction levels generalizing state with
  | zero => exact tallies_noted 0 (fun _ => along_blockTooDeep course) present
  | succ levels hypothesis =>
      exact tallies_noted (levels + 1)
        (along_blockOf course fun _ => hypothesis) present

theorem tallies_notedProgram : notedProgram.Along State.Tallies := by
  have onward := State.tallies_course.toCourse
  exact (along_sequence onward (fun _ => tallies_notedStatement nestingLimit)
    _).bind onward
    fun _ => along_ask_bind onward fun _ => along_pure onward _

end Clipper.Grammar
