import Mathlib.Logic.Relation
import Clipper.Proofs.Grammar.Course
import Clipper.Proofs.Grammar.Sparing
import Clipper.Proofs.Lexeme.Faults

/-!
# Reports of invalid tokens

A reading that reports an invalid token takes the token at once.  So the steps
of a reading are its moves with this report and this taking as one step, and
every rule goes in such steps.  A step adds to the invalid tokens that are
reported only the error token that it takes; therefore the reports of invalid
tokens are those of some of the error tokens, in order and each token once.

The list of error tokens that are still ahead, with the list of those reported
so far in front, is compared between two states of the reading; every step
keeps it a sublist of what it was.  As no two tokens of a text share a span, a
report tells which token it is about.  The same steps with other relations are
used for the order of reports and for the number of attempts.
-/

namespace Clipper.Grammar

open Rule

/-- The span and the lexeme of the invalid token that a report speaks of. -/
def Report.invalidToken? (report : Report) : Option (Span × String) :=
  report.cause.invalidLexeme?.map (fun lexeme => (report.span, lexeme))

/-- The spans and lexemes of the invalid tokens that reports speak of. -/
def invalidTokens (reports : List Report) : List (Span × String) :=
  reports.filterMap Report.invalidToken?

namespace State

/--
One step of a reading; an invalid token is reported and taken in one step.
-/
inductive Step : State → State → Prop where
  /-- The token ahead is taken. -/
  | advance (state : State) : Step state state.advance
  /-- An error token is reported and taken. -/
  | invalidToken
      (state : State)
      (error : state.kind = .error) :
      Step state (state.addHere (.invalidToken state.current.lexeme)).advance
  /-- A report of another cause is added. -/
  | report
      (state : State)
      (report : Report)
      (other : report.cause.invalidLexeme? = none) :
      Step state (state.add report)
  /--
  An error of another cause is reported,
  and tokens are skipped up to a boundary.
  -/
  | fail
      (state : State)
      (cause : Cause)
      (other : cause.invalidLexeme? = none) :
      Step state (state.fail cause)
  /-- The tokens ahead are dropped. -/
  | cutOff (state : State) : Step state state.cutOff
  /-- Errors are reported again. -/
  | recovered (state : State) : Step state { state with recovering := false }

/-- The states to which steps lead from a state. -/
abbrev Steps : State → State → Prop :=
  Relation.ReflTransGen Step

end State

/-- Whatever a reading does, it does in steps. -/
theorem State.steps_course : StatementCourse State.Steps where
  refl _ := .refl
  trans := .trans
  advance state := .single (.advance state)
  invalidToken state _ error := .single (.invalidToken state error)
  fail state cause expects :=
    .single (.fail state cause (Cause.invalidLexeme?_of_isExpectation expects))
  cutOff state _ := .single (.cutOff state)
  cutBlock state := .single (.cutOff state)
  reportHere state cause misplaced :=
    .single (.report state ⟨cause, state.current.span⟩
      (Cause.invalidLexeme?_of_isMisplacement misplaced))
  recovered state := .single (.recovered state)

/-- A target that cannot be assigned is reported in a step. -/
theorem steps_expressionStatement (levels : Nat) :
    (expressionStatement (expression levels)).Along State.Steps := by
  have course := State.steps_course.toCourse
  have checked (target : Expr) : (checkTarget target).Along State.Steps :=
    along_ite (along_pure course ()) fun state =>
      .single (.report state ⟨_, _⟩ rfl)
  refine along_ask_bind course fun start =>
    (along_expression course levels).bind course ?_
  intro target
  refine along_ask_bind course fun _ =>
    along_ite (along_standalone course start target) ?_
  refine along_ask_bind course fun kind => ?_
  cases AssignmentForm.ofKind? kind with
  | none => exact along_standalone course start target
  | some form =>
      have along := along_expression course levels
      exact fun state =>
        (checked target state).trans
          (along_assignment course along start target form state)

theorem steps_program : program.Along State.Steps :=
  along_program State.steps_course steps_expressionStatement

/-! ## What steps keep -/

/-- The spans and lexemes of the error tokens among some tokens. -/
def errorTexts (tokens : List Token) : List (Span × String) :=
  (errorTokens tokens).map (fun token => (token.span, token.lexeme))

@[simp]
theorem errorTexts_append (first second : List Token) :
    errorTexts (first ++ second) = errorTexts first ++ errorTexts second := by
  simp [errorTexts]

namespace State

theorem invalidTokens_cons_other
    {report : Report}
    (other : report.cause.invalidLexeme? = none)
    (reports : List Report) :
    invalidTokens (report :: reports) = invalidTokens reports :=
  List.filterMap_cons_none
    (by rw [Report.invalidToken?, other, Option.map_none])

/--
A failure that is not about an invalid token leaves the reports of
invalid tokens as they are.
-/
theorem invalidTokens_fail
    (state : State)
    {cause : Cause}
    (other : cause.invalidLexeme? = none) :
    invalidTokens (state.fail cause).reports = invalidTokens state.reports := by
  rw [fail]
  split
  · rfl
  · rw [reports_recover]
    exact invalidTokens_cons_other other _

theorem invalidTokens_cutOff (state : State) :
    invalidTokens state.cutOff.reports = invalidTokens state.reports := by
  rw [cutOff]
  dsimp only
  split
  · rfl
  · exact invalidTokens_cons_other rfl _

/--
Of the tokens ahead at the beginning some have been passed, and the invalid
tokens that are reported are among the error tokens that have been passed.
-/
def Accounts
    (ahead : List Token)
    (state : State) :
    Prop :=
  ∃ passed,
    ahead = passed ++ state.rest ∧
      (invalidTokens state.reports).reverse.Sublist (errorTexts passed)

variable {ahead : List Token} {before after : State}

/--
Without a new report of an invalid token, passing tokens keeps the account.
-/
theorem Accounts.pass
    (accounts : before.Accounts ahead)
    (suffix : after.rest <:+ before.rest)
    (same : invalidTokens after.reports = invalidTokens before.reports) :
    after.Accounts ahead := by
  obtain ⟨passed, shape, covered⟩ := accounts
  obtain ⟨further, rest⟩ := suffix
  refine ⟨passed ++ further, by rw [shape, ← rest, List.append_assoc], ?_⟩
  rw [same, errorTexts_append]
  exact covered.trans (List.sublist_append_left _ _)

/-- What a step adds to the account is the error token that it takes. -/
theorem Step.accounts
    (step : Step before after)
    (accounts : before.Accounts ahead) :
    after.Accounts ahead := by
  cases step with
  | advance =>
      exact accounts.pass (advance_suffix before) (by rw [reports_advance])
  | invalidToken error =>
      obtain ⟨passed, shape, covered⟩ := accounts
      have taken : before.rest = before.current :: before.advance.rest :=
        rest_of_kind error (by decide)
      have advanced :
          (before.addHere (.invalidToken before.current.lexeme)).advance.rest =
          before.advance.rest :=
        rest_advance taken
      refine ⟨passed ++ [before.current], ?_, ?_⟩
      · rw [shape, taken, advanced, List.append_assoc, List.singleton_append]
      · have here : errorTexts [before.current] =
            [(before.current.span, before.current.lexeme)] := by
          rw [errorTexts, errorTokens_cons_of_error error]
          rfl
        rw [reports_advance, errorTexts_append, here]
        change List.Sublist
          ((before.current.span, before.current.lexeme) ::
            invalidTokens before.reports).reverse _
        rw [List.reverse_cons]
        exact covered.append (.refl _)
  | report report other =>
      exact accounts.pass List.suffix_rfl (invalidTokens_cons_other other _)
  | fail cause other =>
      exact accounts.pass (fail_suffix before cause)
        (invalidTokens_fail _ other)
  | cutOff => exact accounts.pass List.nil_suffix (invalidTokens_cutOff before)
  | recovered => exact accounts.pass List.suffix_rfl rfl

theorem Steps.accounts
    (steps : Steps before after)
    (accounts : before.Accounts ahead) :
    after.Accounts ahead := by
  induction steps with
  | refl => exact accounts
  | tail _ last hypothesis => exact last.accounts hypothesis

end State

/--
The invalid tokens that a program's reading reports are some of the error tokens
ahead, in order and each of them once.
-/
theorem invalidTokens_readProgram (tokens : List Token) :
    (invalidTokens (readProgram tokens).reports).Sublist
      (errorTexts (tokens.takeWhile (·.kind != .endOfFile))) := by
  have begins : (State.ofTokens tokens).Accounts (State.ofTokens tokens).rest :=
    ⟨[], rfl, List.nil_sublist _⟩
  obtain ⟨passed, shape, covered⟩ :=
    (steps_program (State.ofTokens tokens)).accounts begins
  change (invalidTokens
    (program.run (State.ofTokens tokens)).2.reports.reverse).Sublist _
  rw [invalidTokens, List.filterMap_reverse, ← invalidTokens]
  refine covered.trans ?_
  change List.Sublist _ (errorTexts (State.ofTokens tokens).rest)
  rw [shape, errorTexts_append]
  exact List.sublist_append_left _ _

end Clipper.Grammar
