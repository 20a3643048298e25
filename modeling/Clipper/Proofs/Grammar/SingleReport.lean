import Clipper.Proofs.Grammar.InvalidTokens
import Clipper.Proofs.Grammar.ReportOrder
import Clipper.Proofs.Grammar.StatementForms

/-!
# One report for a simple statement

A missing part of a statement is noticed again by everything around it.  It is
reported once: after the report the reading recovers, and while it recovers the
rest of the statement reports nothing.  Before that the reading may go on behind
an error token, which it takes, and behind a target that cannot be assigned.  So
at most one report of another cause is made in a simple statement, and none
comes behind it.

Whether such a report was made is told by the state: the reading recovers if it
was.
-/

namespace Clipper.Grammar

open Rule

/--
Whether behind a report of this cause nothing is reported in a simple statement.
-/
def Cause.isFinal (cause : Cause) : Bool :=
  cause.isExpectation || cause.isTooDeep

/--
Reports behind which a statement is read on: they are of
invalid tokens, each for an error token among those taken,
and of at most some targets that cannot be assigned.
-/
structure Minor
    (taken : List Token)
    (targets : Nat)
    (reports : List Report) :
    Prop where
  causes : ∀ report ∈ reports,
    (∃ lexeme, report.cause = .invalidToken lexeme) ∨
    report.cause = .notAssignable
  tokens : (invalidTokens reports).Sublist (errorTexts taken)
  limited : reports.countP (·.cause = .notAssignable) ≤ targets

namespace Minor

variable {first second taken : List Token} {targets further : Nat}
    {reports later : List Report}

theorem nothing
    (taken : List Token)
    (targets : Nat) :
    Minor taken targets [] :=
  ⟨List.forall_mem_nil _, List.nil_sublist _, Nat.zero_le _⟩

theorem append
    (earlier : Minor first targets reports)
    (behind : Minor second further later) :
    Minor (first ++ second) (targets + further) (reports ++ later) := by
  refine ⟨List.forall_mem_append.mpr ⟨earlier.causes, behind.causes⟩, ?_, ?_⟩
  · rw [invalidTokens, List.filterMap_append, errorTexts_append]
    exact earlier.tokens.append behind.tokens
  · rw [List.countP_append]
    exact Nat.add_le_add earlier.limited behind.limited

theorem mono
    (minor : Minor taken targets reports)
    (fewer : targets ≤ further) :
    Minor taken further reports :=
  { minor with limited := minor.limited.trans fewer }

/-- The report of an error token that is taken. -/
theorem invalidToken
    {token : Token}
    (error : token.kind = .error) :
    Minor [token] 0 [⟨.invalidToken token.lexeme, token.span⟩] := by
  refine ⟨List.forall_mem_singleton.mpr (.inl ⟨_, rfl⟩), ?_, Nat.le_refl 0⟩
  rw [errorTexts, errorTokens_cons_of_error error]
  exact .refl _

/-- The report of a target. -/
theorem target (span : Span) : Minor [] 1 [⟨.notAssignable, span⟩] :=
  ⟨List.forall_mem_singleton.mpr (.inr rfl), List.nil_sublist _, Nat.le_refl 1⟩

end Minor

namespace State

/--
From one state to another a part of a simple statement was read, with at most
some reports of targets.
-/
inductive ReportsOnce
    (targets : Nat)
    (before after : State) :
    Prop where
  /-- The reading recovers and reports nothing. -/
  | silent
      (recovers : before.recovering = true)
      (still : after.recovering = true)
      (same : after.reports = before.reports)
      (suffix : after.rest <:+ before.rest)
  /-- The reading goes on, whatever was reported. -/
  | steady
      (calm : before.recovering = false)
      (still : after.recovering = false)
      (taken : List Token)
      (ahead : before.rest = taken ++ after.rest)
      (reports : List Report)
      (added : after.reports = reports.reverse ++ before.reports)
      (minor : Minor taken targets reports)
  /--
  The reading recovers from now on; what it recovers from was reported last.
  -/
  | broken
      (calm : before.recovering = false)
      (recovers : after.recovering = true)
      (taken later : List Token)
      (ahead : before.rest = taken ++ later)
      (suffix : after.rest <:+ later)
      (reports : List Report)
      (last? : Option Report)
      (added : after.reports = last?.toList ++
        (reports.reverse ++ before.reports))
      (minor : Minor taken targets reports)
      (final : ∀ last ∈ last?, last.cause.isFinal = true)

namespace ReportsOnce

variable {targets further : Nat} {first second third state : State}

theorem refl (state : State) : state.ReportsOnce 0 state := by
  cases recovering : state.recovering with
  | true => exact .silent recovering recovering rfl List.suffix_rfl
  | false => exact .steady recovering recovering [] rfl [] rfl (.nothing [] 0)

/-- What reports once still does so if more reports of targets are granted. -/
theorem mono
    (once : first.ReportsOnce targets second)
    (fewer : targets ≤ further) :
    first.ReportsOnce further second := by
  cases once with
  | silent recovers still same suffix =>
      exact .silent recovers still same suffix
  | steady calm still taken ahead reports added minor =>
      exact .steady calm still taken ahead reports added (minor.mono fewer)
  | broken calm recovers taken later ahead suffix reports last? added minor
      final =>
      exact .broken calm recovers taken later ahead suffix reports last? added
        (minor.mono fewer) final

/-- A report breaks off the reading, if it is made. -/
theorem report
    (calm : first.recovering = false)
    (recovers : second.recovering = true)
    (suffix : second.rest <:+ first.rest)
    (last? : Option Report)
    (added : second.reports = last?.toList ++ first.reports)
    (final : ∀ last ∈ last?, last.cause.isFinal = true) :
    first.ReportsOnce 0 second :=
  .broken calm recovers [] first.rest rfl suffix [] last? added
    (.nothing [] 0) final

/--
Two parts of a statement report once together: where the first has reported,
the reading recovers, and the second reports nothing.
-/
theorem trans
    (earlier : first.ReportsOnce targets second)
    (later : second.ReportsOnce further third) :
    first.ReportsOnce (targets + further) third := by
  cases earlier with
  | silent recovers recovered same suffix =>
      cases later with
      | silent _ still sameLater suffixLater =>
          exact .silent recovers still (sameLater.trans same)
            (suffixLater.trans suffix)
      | steady calm => cases recovered.symm.trans calm
      | broken calm => cases recovered.symm.trans calm
  | steady calm calmBetween taken ahead reports added minor =>
      cases later with
      | silent recovered => cases recovered.symm.trans calmBetween
      | steady _ still takenLater aheadLater reportsLater addedLater
          minorLater =>
          refine .steady calm still (taken ++ takenLater) ?_
            (reports ++ reportsLater) ?_ (minor.append minorLater)
          · rw [ahead, aheadLater, List.append_assoc]
          · rw [addedLater, added, List.reverse_append, List.append_assoc]
      | broken _ recovers takenLater rest aheadLater suffix reportsLater last?
          addedLater minorLater final =>
          refine .broken calm recovers (taken ++ takenLater) rest ?_ suffix
            (reports ++ reportsLater) last? ?_ (minor.append minorLater) final
          · rw [ahead, aheadLater, List.append_assoc]
          · rw [addedLater, added, List.reverse_append, List.append_assoc]
  | broken calm recovered taken rest ahead suffix reports last? added minor
      final =>
      cases later with
      | silent _ still sameLater suffixLater =>
          exact .broken calm still taken rest ahead (suffixLater.trans suffix)
            reports last?
            (sameLater.trans added) (minor.mono (Nat.le_add_right _ _)) final
      | steady calmBetween => cases recovered.symm.trans calmBetween
      | broken calmBetween => cases recovered.symm.trans calmBetween

theorem advance (state : State) : state.ReportsOnce 0 state.advance := by
  cases recovering : state.recovering with
  | true =>
      exact .silent recovering (state.recovering_advance.trans recovering)
        state.reports_advance state.advance_suffix
  | false =>
      obtain ⟨taken, ahead⟩ := state.advance_suffix
      exact .steady recovering (state.recovering_advance.trans recovering) taken
        ahead.symm [] state.reports_advance (.nothing taken 0)

/-- The report of a target, after which the reading goes on. -/
theorem addTarget
    (calm : state.recovering = false)
    (span : Span) :
    state.ReportsOnce 1 (state.add ⟨.notAssignable, span⟩) :=
  .steady calm calm [] rfl [_] rfl (.target span)

end ReportsOnce

/--
Whatever an expression does to a state, what breaks it off is reported once.
-/
theorem reportsOnce_course : Course (ReportsOnce 0) where
  refl := .refl
  trans := .trans
  advance := .advance
  invalidToken state calm error := by
    have ahead : state.rest = [state.current] ++ state.advance.rest :=
      rest_of_kind error (by decide)
    have rest :
        (state.addHere (.invalidToken state.current.lexeme)).advance.rest =
        state.advance.rest :=
      rest_advance ahead
    refine .steady calm ((recovering_advance _).trans calm) [state.current]
      (rest ▸ ahead) [_] ?_ (.invalidToken error)
    exact reports_advance _
  fail state cause expects := by
    cases recovering : state.recovering with
    | true =>
        rw [fail_of_recovering recovering]
        exact .refl state
    | false =>
        have final : cause.isFinal = true := by
          rw [Cause.isFinal, expects, Bool.true_or]
        have shape := fail_of_calm recovering cause
        refine .report recovering ?_ (fail_suffix state cause)
          (some ⟨cause, state.current.span⟩) ?_ ?_
        · rw [shape]
          exact recovering_recover _
        · rw [shape]
          exact reports_recover _
        · exact fun last member => (Option.mem_some_iff.mp member) ▸ final
  cutOff state calm := by
    cases cut : state.cutShort with
    | true =>
        refine .report calm rfl List.nil_suffix none ?_ fun _ member =>
          absurd member (Option.not_mem_none _)
        rw [cutOff, cut, if_pos rfl]
        rfl
    | false =>
        exact .report calm rfl List.nil_suffix (some _) (reports_cutOff cut)
          fun last member => (Option.mem_some_iff.mp member) ▸ rfl

end State

/-! ## Statements -/

/-- The check of a target is the one thing besides that reports. -/
theorem reportsOnce_checkTarget
    {state : State}
    (calm : state.recovering = false)
    (target : Expr) :
    state.ReportsOnce 1 ((checkTarget target).run state).2 := by
  rw [checkTarget]
  split
  · exact (State.ReportsOnce.refl state).mono (Nat.zero_le 1)
  · exact .addTarget calm target.span

/-- An assignment reports its bad target, and once more at most. -/
theorem reportsOnce_assignment
    {state : State}
    (calm : state.recovering = false)
    (levels start : Nat)
    (target : Expr)
    (form : AssignmentForm) :
    state.ReportsOnce 1
      ((assignment (expression levels) start target form).run state).2 := by
  have course := State.reportsOnce_course
  exact (reportsOnce_checkTarget calm target).trans
    (along_assignment course (along_expression course levels) start
      target form state)

/-- A target is checked only if its reading did not end in a recovery. -/
theorem reportsOnce_expressionStatement (levels : Nat) :
    (expressionStatement (expression levels)).Along (State.ReportsOnce 1) := by
  have course := State.reportsOnce_course
  intro state
  have targetRead := along_expression course levels state
  have alone (after : State) (target : Expr) :
      after.ReportsOnce 1 ((standalone state.start target).run after).2 :=
    (along_standalone course state.start target after).mono (Nat.zero_le 1)
  rw [expressionStatement, run_ask_bind, run_bind, run_ask_bind]
  cases recovering : ((expression levels).run state).2.recovering with
  | true =>
      rw [if_pos rfl]
      exact targetRead.trans (alone _ _)
  | false =>
      rw [if_neg Bool.false_ne_true, run_ask_bind]
      cases AssignmentForm.ofKind? ((expression levels).run state).2.kind with
      | none => exact targetRead.trans (alone _ _)
      | some form =>
          exact targetRead.trans
            (reportsOnce_assignment recovering levels _ _ form)

/--
What breaks off a simple statement is reported
once, and one target is checked at most.
-/
theorem reportsOnce_simpleForm
    {form : StatementForm}
    (simple : form.isSimple = true)
    (levels : Nat) :
    (statementOfForm (expression levels) (blocks levels) form).Along
      (State.ReportsOnce 1) := by
  have course := State.reportsOnce_course
  have along := along_expression course levels
  have untargeted {rule : Rule (Option Stmt)}
      (once : rule.Along (State.ReportsOnce 0)) :
      rule.Along (State.ReportsOnce 1) :=
    fun state => (once state).mono (Nat.zero_le 1)
  cases form with
  | empty =>
      exact untargeted ((along_advance course).bind course fun _ =>
        along_pure course none)
  | declaration =>
      exact untargeted ((along_declaration course along).terminated course)
  | result =>
      exact untargeted ((along_resultStatement course along).terminated course)
  | control => exact untargeted ((along_loopControl course).terminated course)
  | print =>
      exact untargeted ((along_printStatement course along).terminated course)
  | expression =>
      intro state
      have semicolon (statement : Stmt) : (do
          let _ ← eat .semicolon
          pure (some statement) : Rule (Option Stmt)).Along
          (State.ReportsOnce 0) :=
        (along_eat course _).bind course fun _ => along_pure course _
      exact (reportsOnce_expressionStatement levels state).trans (semicolon _ _)
  | strayCloser | conditional | whileLoop | forLoop | routine => cases simple

/--
What a simple statement reports, from whatever state and with however many
levels left: first invalid tokens, each for an error token that the statement
takes, and at most one target that cannot be assigned; then, if at all, one
report that something else was expected or that the program is nested too
deeply, and nothing behind it.
-/
theorem reports_simpleStatement
    (levels : Nat)
    (state : State)
    (simple : (StatementForm.of state).isSimple = true) :
    let after := ((statement levels).run state).2
    ∃ (taken later : List Token) (reports : List Report) (last? :
      Option Report),
      state.rest = taken ++ later ∧
        after.rest <:+ later ∧
          after.reports.reverse = state.reports.reverse ++
            (reports ++ last?.toList) ∧
            Minor taken 1 reports ∧
            ∀ last ∈ last?, last.cause.isFinal = true := by
  intro after
  have once : State.ReportsOnce 1 { state with recovering := false } after := by
    have shape : (statement levels).run state =
        (statementOfForm (expression levels) (blocks levels) (.of state)).run
          { state with recovering := false } := by
      rw [statement_eq]
      rfl
    rw [show after = _ from congrArg Prod.snd shape]
    exact reportsOnce_simpleForm simple levels _
  have inOrder (reports : List Report) (last? : Option Report) :
      (last?.toList ++ (reports.reverse ++ state.reports)).reverse =
        state.reports.reverse ++ (reports ++ last?.toList) := by
    cases last? <;> simp
  cases once with
  | silent recovers => cases recovers
  | steady _ _ taken ahead reports added minor =>
      refine ⟨taken, after.rest, reports, none, ahead,
        List.suffix_rfl, ?_, minor, fun _ member =>
          absurd member (Option.not_mem_none _)⟩
      rw [added]
      exact inOrder reports none
  | broken _ _ taken later ahead suffix reports last? added minor final =>
      refine ⟨taken, later, reports, last?, ahead, suffix, ?_, minor, final⟩
      rw [added]
      exact inOrder reports last?

/--
An invalid token and its target are reported
before the expression that is missing.
-/
theorem reports_simpleStatement_allKinds :
    let state := State.ofTokens (Lexeme.tokens (Lexeme.all "f(~) := (".toList))
    let after := ((statement 2).run state).2
    (StatementForm.of state).isSimple = true ∧
      after.reports.reverse =
        [⟨.invalidToken "~", ⟨2, 3⟩⟩, ⟨.notAssignable, ⟨0, 4⟩⟩,
          ⟨.expectedExpression .endOfFile, ⟨9, 9⟩⟩] ∧
        ∃ (taken later : List Token) (reports : List Report) (last? :
          Option Report),
          state.rest = taken ++ later ∧
            after.rest <:+ later ∧
              after.reports.reverse = state.reports.reverse ++
                (reports ++ last?.toList) ∧
                Minor taken 1 reports ∧
                ∀ last ∈ last?, last.cause.isFinal = true :=
  ⟨by decide +kernel, by decide +kernel,
    reports_simpleStatement 2 _ (by decide +kernel)⟩

end Clipper.Grammar
