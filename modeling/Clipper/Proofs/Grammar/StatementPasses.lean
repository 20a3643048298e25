import Clipper.Proofs.Grammar.ExpressionPasses

/-!
# The tokens that readings of statements take

The marks of a statement show the tokens that its reading passed.  A block ends
a recovery, so behind a block a cut is known only by the tokens that are not
ahead: without tokens there are no further arms, no closing words and no
statements, and a missing closing word is not reported behind a cut.

A statement that was begun before a cut may have lost its end, and with it the
tokens that its last parts would show.  The marks of the tree are those of the
parts that were read, and they show the tokens that were passed, in order.
The invariant behind a block is weaker than the one behind an expression,
since a block clears the recovery; that is why the three laws about states
without tokens are needed.
-/

namespace Clipper.Grammar

open Rule State

variable {expression : Rule Expr} (tells : expression.Tells Expr.marks)

/-! ## Simple statements -/

section

include tells

/-- A declared name shows its token, and then what its first value shows. -/
theorem tells_binding (place : NamePlace) :
    (binding expression place).Tells Binding.marks := by
  refine (tells_expectName place).bind fun name taken shown => ?_
  refine (passes_eat guard_silent _).bind fun _ sign _ =>
    passes_ite (fun _ => ?_) fun _ => ?_
  · refine tells.bind fun value later shownLater =>
      passes_pure ?_ fun _ silent => silent
    exact shown.append ((shownLater.passing []).after sign)
  · refine passes_pure ?_ fun _ silent => silent
    exact shown.append (.nothing _)

theorem passes_declaration :
    Passes Ahead (declaration expression) (Showing Stmt.marks)
      (fun _ => Silent) := by
  refine passes_form.bind fun word before isForm => ?_
  refine (tells_binding tells _).separated.whole.bind
    fun bindings taken shown => ?_
  refine passes_ask fun span => passes_pure ?_ fun _ silent => silent
  rw [Showing, Stmt.marks]
  exact isForm.append (shown.passing [])

/-- A statement that returns shows its word, and then what its value shows. -/
theorem passes_resultStatement :
    Passes Ahead (resultStatement expression) (Showing Stmt.marks)
      (fun _ => Silent) := by
  refine passes_form.bind fun word before isForm => passes_ask fun kind => ?_
  refine passes_ite (fun _ => ?_) fun _ => passes_ask fun span => ?_
  · refine tells.whole.bind fun value taken shown => passes_ask fun span => ?_
    refine passes_pure ?_ fun _ silent => silent
    rw [Showing, Stmt.marks]
    exact isForm.append (shown.passing [])
  · refine passes_pure ?_ fun _ whole => whole.silent
    rw [Showing, Stmt.marks]
    exact isForm.passing []

theorem tells_printedValues :
    (printedValues expression).Tells (List.flatMap Expr.marks) := by
  refine passes_ask fun kind =>
    passes_ite (fun _ => tells.separated) fun _ => ?_
  exact passes_pure (.nothing []) fun _ silent => silent

theorem passes_printStatement :
    Passes Ahead (printStatement expression) (Showing Stmt.marks)
      (fun _ => Silent) := by
  refine passes_form.bind fun word before isForm => ?_
  refine (tells_printedValues tells).whole.bind fun values taken shown => ?_
  refine passes_ask fun span => passes_pure ?_ fun _ silent => silent
  rw [Showing, Stmt.marks]
  exact isForm.append (shown.passing [])

omit tells in
theorem passes_loopControl :
    Passes Ahead loopControl (Showing Stmt.marks) (fun _ => Silent) := by
  refine passes_form.bind fun word before isForm =>
    passes_pure ?_ fun _ whole => whole.silent
  have either :
      (if word.kind = .exit then Stmt.exit word.span
        else .loop word.span).marks = [.form] := by
    split <;> rfl
  rw [Showing, either]
  exact isForm.passing []

omit tells in
/--
An expression that stands as a statement shows what it shows as an expression.
-/
theorem tells_standalone
    (start : Nat)
    (value : Expr)
    {taken : List Token}
    (shown : Shows value.marks taken) :
    Passes Silent (standalone start value)
      (fun statement later => Shows statement.marks (taken ++ later))
      (fun _ => Silent) := by
  refine passes_ask fun span => passes_pure ?_ fun _ silent => silent
  rw [Stmt.marks]
  exact shown.passing []

/-- The mark of the token that makes an expression an assignment. -/
def AssignmentForm.mark : AssignmentForm → Mark
  | .plain => .form
  | .updating operator => .operator operator.kind

omit tells in
/-- The sign of an assignment shows the mark of its form. -/
theorem AssignmentForm.mark_of_token
    {token : Token}
    {form : AssignmentForm}
    (isForm : ofKind? token.kind = some form) :
    Shows [form.mark] [token] := by
  rw [ofKind?] at isForm
  split at isForm
  · next operator isOperator =>
      cases isForm
      exact UpdateOperator.mark_of_token isOperator
  · split at isForm
    · cases isForm
      exact .form token
    · cases isForm

omit tells in
theorem AssignmentForm.marks_statement
    (form : AssignmentForm)
    (target value : Expr)
    (span : Span) :
    (form.statement target value span).marks = target.marks ++ form.mark ::
      value.marks := by
  cases form <;> rfl

/-- An assignment shows its target, the mark of its sign, and its value. -/
theorem passes_assignment
    (start : Nat)
    {target : Expr}
    {form : AssignmentForm}
    {taken : List Token}
    (shown : Shows target.marks taken) :
    Passes (Offers [form.mark]) (assignment expression start target form)
      (fun statement later => Shows statement.marks (taken ++ later))
      (fun _ => Silent) := by
  have check :
      Passes (Offers [form.mark]) (checkTarget target) Anything
        (fun _ => Offers [form.mark]) :=
    passes_ite (fun _ => passes_pure trivial fun _ offers => offers)
      fun _ => passes_report rfl _ _
  refine check.bind fun _ checked _ =>
    passes_offered.bind fun _ sign isForm => ?_
  refine tells.whole.bind fun value later shownLater =>
    passes_ask fun span => ?_
  refine passes_pure ?_ fun _ silent => silent
  rw [AssignmentForm.marks_statement]
  exact shown.append ((isForm.append (shownLater.passing [])).after checked)

/--
A statement that begins as an expression shows the tokens
that it was read from.
-/
theorem passes_expressionStatement :
    Passes Ahead (expressionStatement expression) (Showing Stmt.marks)
      (fun _ => Silent) := by
  refine passes_ask fun start => ?_
  refine (tells.weaken fun _ ahead => Whole.silent ahead.1).bind
    fun target taken shown => ?_
  refine passes_asking fun recovering =>
    passes_ite (fun _ => ?_) fun steady => ?_
  · exact (tells_standalone start target shown).weaken fun _ both => both.1
  · refine passes_asking fun kind => ?_
    split
    · exact (tells_standalone start target shown).weaken fun _ both => both.1.1
    · next form isForm =>
        apply (passes_assignment tells start shown).weaken
        rintro state ⟨⟨silent, rfl⟩, rfl⟩
        refine ⟨silent.dropped.ahead_of_kind ?_,
          AssignmentForm.mark_of_token isForm⟩
        intro ended
        rw [ended] at isForm
        cases isForm

end

theorem Rule.Passes.terminated
    {rule : Rule Stmt}
    (passes : Passes Ahead rule (Showing Stmt.marks) (fun _ => Silent)) :
    Passes Ahead (terminated rule) (Showing (·.toList.flatMap Stmt.marks))
      (fun _ => Dropped) := by
  refine passes.bind fun statement taken shown => ?_
  refine (passes_eat guard_silent _).bind fun _ sign _ => ?_
  refine passes_pure ?_ fun _ silent => silent.dropped
  simpa [Showing] using shown.passing sign

/-! ## Closing words -/

/-- A missing closing word is not reported behind a cut. -/
theorem passes_missing {cause : Cause} (shallow : cause.isTooDeep = false) :
    Passes Dropped (do if ← ask State.cutShort then pure () else
      reportHere cause) Anything
      (fun _ => Dropped) := by
  refine passes_asking fun cut => passes_ite (fun _ => ?_) fun whole => ?_
  · exact passes_pure trivial fun _ both => both.1
  · refine (passes_reportHere shallow).mono ?_ (fun _ _ any => any)
      (fun _ _ => guard_dropped.of_whole _)
    rintro state ⟨dropped, rfl⟩
    exact Bool.eq_false_iff.mpr whole

theorem passes_close (closer opener : TokenKind) :
    Passes Dropped (close closer opener) Anything (fun _ => Dropped) := by
  refine (passes_eat guard_dropped closer).bind fun _ _ _ => passes_ite
    (fun _ => ?_) fun _ => ?_
  · exact passes_pure trivial fun _ dropped => dropped
  · exact passes_missing rfl

theorem passes_counterAgain (counter : Identifier) :
    Passes Dropped (counterAgain counter) Anything (fun _ => Dropped) := by
  refine passes_ask fun token => passes_ite (fun _ => ?_) fun _ => ?_
  · exact (passes_advance guard_dropped).bind fun _ _ _ =>
      passes_pure trivial fun _ dropped => dropped
  · exact passes_pure trivial fun _ dropped => dropped

theorem passes_closeFor (counter : Identifier) :
    Passes Dropped (closeFor counter) Anything (fun _ => Dropped) := by
  refine (passes_eat guard_dropped _).bind fun _ _ _ => passes_ite
    (fun _ => ?_) fun _ => ?_
  · exact passes_counterAgain counter
  · exact passes_missing rfl

theorem passes_closeRoutine :
    Passes Dropped closeRoutine Anything (fun _ => Dropped) := by
  refine (passes_eat guard_dropped _).bind fun _ _ _ => passes_ite
    (fun _ => ?_) fun _ => ?_
  · exact passes_pure trivial fun _ dropped => dropped
  · exact (passes_eat guard_dropped _).bind fun _ _ _ =>
      passes_pure trivial fun _ dropped => dropped

/-! ## Compound statements -/

theorem passes_trailingDo :
    Passes Silent trailingDo Anything (fun _ => Silent) := by
  refine passes_ask fun kind => passes_ask fun second =>
    passes_ite (fun _ => ?_) fun _ => ?_
  · exact (passes_advance guard_silent).bind fun _ _ _ =>
      passes_pure trivial fun _ silent => silent
  · exact passes_pure trivial fun _ silent => silent

theorem passes_counterSign :
    Passes Silent counterSign Anything (fun _ => Silent) := by
  refine (passes_eat guard_silent _).bind fun _ _ _ =>
    passes_ite (fun _ => ?_) fun _ => ?_
  · exact passes_pure trivial fun _ silent => silent
  · refine (passes_eat guard_silent _).bind fun _ _ _ =>
      passes_ite (fun _ => ?_) fun _ => ?_
    · exact passes_pure trivial fun _ silent => silent
    · exact passes_fail rfl

theorem tells_parameters :
    parameters.Tells (List.flatMap Identifier.marks) := by
  refine (passes_eat guard_silent _).bind fun _ opening _ =>
    passes_ite (fun _ => ?_) fun _ => ?_
  · refine ((tells_expectName _).enclosed _ _).mono (fun _ silent => silent) ?_
      (fun _ _ silent => silent)
    exact fun _ _ shown => shown.after opening
  · exact passes_pure (.nothing _) fun _ silent => silent

/-- The marks of an arm of a conditional without that of its first word. -/
def Arm.marks (arm : Arm) : List Mark :=
  arm.condition.marks ++ arm.block.marks

theorem Stmt.marks_conditional
    (condition : Expr)
    (positive : Block)
    (negative? : Option Block)
    (span : Span) :
    (Stmt.conditional condition positive negative? span).marks =
      .form :: (condition.marks ++ positive.marks ++
        negative?.elim [] Block.marks) := by
  cases negative? <;> simp [Stmt.marks]

/-- The arms of a conditional follow each other in its marks. -/
theorem Arm.marks_foldr_nest
    (reached : Nat)
    (arms : List Arm)
    (last? : Option Block) :
    (arms.foldr (Arm.nest reached) last?).elim [] Block.marks =
      arms.flatMap (fun arm => .form :: arm.marks) ++
        last?.elim [] Block.marks := by
  induction arms with
  | nil => rfl
  | cons arm rest hypothesis =>
      rw [List.foldr_cons, nest, Option.elim_some, Block.marks,
        Stmt.allMarks_eq_flatMap, List.flatMap_singleton, conditional,
        Stmt.marks_conditional, hypothesis]
      simp [Arm.marks]

section

variable
  {block : List TokenKind → Rule Block}
  (passes : ∀ closers,
    Passes Dropped (block closers) (Showing Block.marks) (fun _ => Dropped))

include passes

section

include tells

theorem passes_arm (start : Nat) :
    Passes Silent (arm expression block start) (Showing Arm.marks)
      (fun _ => Dropped) := by
  refine tells.bind fun condition taken shown => ?_
  refine (passes_eat guard_silent _).bind fun _ word _ => ?_
  refine ((passes _).weaken fun _ => Silent.dropped).bind
    fun body later shownLater => ?_
  refine passes_pure ?_ fun _ dropped => dropped
  exact shown.append ((shownLater.passing []).after word)

/--
The further arms of a conditional show their words, their
conditions and their blocks.
-/
theorem passes_furtherArms :
    Passes Dropped (many (furtherArm? expression block))
      (Showing (List.flatMap fun arm => .form :: arm.marks))
      (fun _ => Dropped) := by
  refine passes_many guard_dropped fun token rule opened => ?_
  rw [furtherArm?] at opened
  split at opened
  · cases opened
    refine (passes_arm tells passes _).mono (fun _ => Whole.silent) ?_
      (fun _ _ dropped => dropped)
    exact fun _ _ shown => (Shows.form token).append shown
  · cases opened

/--
A conditional shows its word, its condition and its blocks.  Its arms stand in
one another, in the order of the source.
-/
theorem passes_conditional :
    Passes Ahead (conditional expression block) (Showing Stmt.marks)
      (fun _ => Dropped) := by
  refine passes_form.bind fun word before isForm => ?_
  have whole := (passes_arm tells passes word.span.start).weaken fun _ =>
      Whole.silent
  refine whole.bind fun first taken shown => ?_
  refine (passes_furtherArms tells passes).bind
    fun others further shownOthers => ?_
  refine ((passes _).optionalAfter guard_dropped _).bind
    fun last? later shownLast => ?_
  refine passes_ask fun reached => (passes_close _ _).bind fun _ closing _ => ?_
  refine passes_ask fun span => passes_pure ?_ fun _ dropped => dropped
  rw [Showing, Stmt.marks_conditional, Arm.marks_foldr_nest]
  exact isForm.append (shown.append (shownOthers.append (shownLast.passing _)))

/-- A loop with a condition shows its word, its condition and its body. -/
theorem passes_whileLoop :
    Passes Ahead (whileLoop expression block) (Showing Stmt.marks)
      (fun _ => Dropped) := by
  refine passes_ask fun start =>
    (passes_eat_advance_bind _ fun _ _ before isForm => ?_)
  refine tells.whole.bind fun condition taken shown =>
    passes_trailingDo.bind fun _ word _ => ?_
  refine ((passes _).weaken fun _ => Silent.dropped).bind
    fun body later shownLater => ?_
  refine (passes_close _ _).bind fun _ closing _ => passes_ask fun span => ?_
  refine passes_pure ?_ fun _ dropped => dropped
  rw [Showing, Stmt.marks]
  exact isForm.append (shown.append ((shownLater.passing _).after word))

/--
A counting loop shows its word, its counter, its bounds,
its step and its body.
-/
theorem passes_forLoop :
    Passes Ahead (forLoop expression block) (Showing Stmt.marks)
      (fun _ => Dropped) := by
  refine passes_form.bind fun word before isForm => ?_
  refine (tells_expectName _).whole.bind fun counter named shownCounter => ?_
  refine passes_counterSign.bind fun _ sign _ =>
    tells.bind fun first taken shown => ?_
  refine (passes_expect _ _).bind fun _ toward _ =>
    tells.bind fun last further shownLast => ?_
  refine (tells.optionalAfter guard_silent _).bind
    fun step? advancing shownStep => ?_
  refine ((passes _).weaken fun _ => Silent.dropped).bind
    fun body later shownLater => ?_
  refine (passes_closeFor _).bind fun _ closing _ => passes_ask fun span => ?_
  refine passes_pure ?_ fun _ dropped => dropped
  rw [Showing, Stmt.marks]
  simp only [List.append_assoc]
  have behind := shownLast.append
      (shownStep.append (shownLater.passing (closing ++ [])))
  exact isForm.append
    (shownCounter.append ((shown.append (behind.after toward)).after sign))

end

/-- A routine shows its word, its name, its parameters and its body. -/
theorem passes_routine :
    Passes Ahead (routine block) (Showing Stmt.marks) (fun _ => Dropped) := by
  refine passes_ask fun start =>
    passes_eat_advance_bind _ fun isStatic word before isForm => ?_
  refine (tells_expectName _).whole.bind fun name named shownName => ?_
  refine tells_parameters.bind fun parameters taken shown => ?_
  refine ((passes _).weaken fun _ => Silent.dropped).bind
    fun body later shownLater => ?_
  refine passes_closeRoutine.bind fun _ closing _ => passes_ask fun span => ?_
  refine passes_pure ?_ fun _ dropped => dropped
  rw [Showing, Stmt.marks]
  simp only [List.append_assoc]
  exact isForm.append (shownName.append (shown.append (shownLater.passing _)))

/-! ## Blocks and statements -/

omit passes in
theorem passes_strayCloser :
    Passes Ahead strayCloser (Showing (·.toList.flatMap Stmt.marks))
      (fun _ => Dropped) := by
  have reported (kind : TokenKind) :
      Passes Ahead (reportHere (.unexpected kind)) Anything (fun _ => Whole) :=
    (passes_reportHere rfl).weaken fun _ ahead => ahead.1
  refine passes_ask fun kind => (reported kind).bind fun _ _ _ => ?_
  exact (passes_advance guard_whole).bind fun _ _ _ =>
    passes_pure (.nothing _) fun _ whole => guard_dropped.of_whole _ whole

omit passes in
theorem passes_blockTooDeep :
    Passes Dropped blockTooDeep (Showing Block.marks) (fun _ => Dropped) := by
  refine passes_ask fun start => passes_cutOff.bind fun _ taken _ => ?_
  exact passes_pure (.nothing _) fun _ silent => silent.dropped

omit passes in
/-- A block ends a recovery, also one behind a cut. -/
theorem Rule.Passes.blockOf
    {statement : Rule (Option Stmt)}
    (each : Passes Ahead statement (Showing (·.toList.flatMap Stmt.marks))
      (fun _ => Dropped))
    (closers : List TokenKind) :
    Passes Dropped (blockOf statement closers) (Showing Block.marks)
      (fun _ => Dropped) := by
  refine passes_ask fun start =>
    (each.sequence _).bind fun statements taken shown => ?_
  refine passes_recovered.bind fun _ _ _ => passes_ask fun span => ?_
  refine passes_pure ?_ fun _ dropped => dropped
  rw [Showing, Block.marks, Stmt.allMarks_eq_flatMap]
  exact shown.passing _

omit passes in
theorem Rule.Passes.compound
    {rule : Rule Stmt}
    (passes : Passes Ahead rule (Showing Stmt.marks) (fun _ => Dropped)) :
    Passes Ahead (some <$> rule) (Showing (·.toList.flatMap Stmt.marks))
      (fun _ => Dropped) := by
  refine passes.map some fun statement taken shown => ?_
  simpa [Showing] using shown

include tells in
/--
A statement shows the tokens that it was read from, given that its
expressions and blocks do.
-/
theorem passes_statementOf :
    Passes Ahead (statementOf expression block)
      (Showing (·.toList.flatMap Stmt.marks)) (fun _ => Dropped) := by
  have begins : Passes Ahead recovered Anything (fun _ => Ahead) :=
    fun state ahead => ⟨[], state.passes_recovered, trivial, ahead⟩
  refine begins.bind fun _ before _ => passes_ask fun form => ?_
  suffices forms :
      Passes Ahead (statementOfForm expression block form)
        (Showing (·.toList.flatMap Stmt.marks)) (fun _ => Dropped) from
    forms.mono (fun _ ahead => ahead) (fun _ _ shown => shown.after before)
      (fun _ _ dropped => dropped)
  cases form with
  | empty =>
      exact passes_form.bind fun _ _ _ =>
        passes_pure (.nothing _) fun _ whole => guard_dropped.of_whole _ whole
  | strayCloser => exact passes_strayCloser
  | conditional => exact (passes_conditional tells passes).compound
  | whileLoop => exact (passes_whileLoop tells passes).compound
  | forLoop => exact (passes_forLoop tells passes).compound
  | routine => exact (passes_routine passes).compound
  | declaration => exact (passes_declaration tells).terminated
  | result => exact (passes_resultStatement tells).terminated
  | control => exact passes_loopControl.terminated
  | print => exact (passes_printStatement tells).terminated
  | expression => exact (passes_expressionStatement tells).terminated

end

theorem passes_statement (levels : Nat) :
    Passes Ahead (statement levels) (Showing (·.toList.flatMap Stmt.marks))
      (fun _ => Dropped) := by
  induction levels with
  | zero =>
      exact passes_statementOf (tells_expression 0) fun _ => passes_blockTooDeep
  | succ levels hypothesis =>
      exact passes_statementOf (tells_expression (levels + 1))
        hypothesis.blockOf

theorem passes_program :
    Passes Dropped program (Showing (Stmt.allMarks ·.statements))
      (fun _ => Dropped) := by
  refine ((passes_statement nestingLimit).sequence _).bind
    fun statements taken shown => ?_
  refine passes_ask fun final => passes_pure ?_ fun _ dropped => dropped
  rw [Showing, Stmt.allMarks_eq_flatMap]
  exact shown.passing []

/--
A program was made from tokens before the end of the file, in their order.
-/
theorem shows_readProgram (tokens : List Token) :
    Shows (Stmt.allMarks (readProgram tokens).value.statements)
      (tokens.takeWhile (·.kind != .endOfFile)) := by
  have start : (State.ofTokens tokens).Dropped := nofun
  obtain ⟨taken, passed, shown, -⟩ :=
    passes_program (State.ofTokens tokens) start
  obtain ⟨later, ahead⟩ :
      ∃ later, tokens.takeWhile (·.kind != .endOfFile) = taken ++ later := by
    cases passed with
    | whole ahead => exact ⟨_, ahead⟩
    | cut later ahead => exact ⟨later, ahead⟩
  rw [ahead]
  exact shown.passing later

/--
That the program is nested too deeply is reported last and once, at the first of
the tokens that are dropped; nothing in the tree was made from these tokens.
-/
theorem overflow_is_last (tokens : List Token) :
    let reading := readProgram tokens
    reading.Shallow ∨
      ∃ earlier before later,
        reading.reports =
            earlier ++
              [⟨.tooDeep nestingLimit,
                spanAhead (State.ofTokens tokens).stop later⟩] ∧
          (∀ report ∈ earlier, report.cause.isTooDeep = false) ∧
            tokens.takeWhile (·.kind != .endOfFile) = before ++ later ∧
              Shows (Stmt.allMarks reading.value.statements) before := by
  dsimp only
  have start : (State.ofTokens tokens).Dropped := nofun
  obtain ⟨taken, passed, shown, -⟩ :=
    passes_program (State.ofTokens tokens) start
  cases passed with
  | whole ahead stop same reports added shallow =>
      left
      intro report member
      apply shallow
      rw [readProgram, readTokens, List.mem_reverse, added] at member
      simpa [State.ofTokens] using member
  | cut later ahead whole isCut dropped reports added shallow =>
      right
      refine ⟨reports.reverse, taken, later, ?_, ?_, ahead, shown⟩
      · rw [readProgram, readTokens]
        dsimp only
        rw [added]
        simp [State.ofTokens]
      · intro report member
        exact shallow report (List.mem_reverse.mp member)

end Clipper.Grammar
