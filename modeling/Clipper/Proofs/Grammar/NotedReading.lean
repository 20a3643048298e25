import Clipper.Proofs.Grammar.Attempts
import Clipper.Proofs.Grammar.Handover

/-!
# A reading with notes

A reading that makes notes is the reading without them but for the notes: no
rule asks for the reports.  There is one lemma for each thing that a rule may
do, one for each way in which rules are made, and one for each rule with blocks
in it.

`Unnotes` relates a rule that may make notes to one that makes none: from a
state, the first one gives the value that the second one gives from the state
without its notes, and forgetting the notes behind it gives the state behind
the second.  At the end stands the reading of a whole program with a note for
each attempt, which reads the same program and makes the same reports apart
from the notes.
-/

namespace Clipper.Grammar

open Relabelled (relabel)
open Rule

namespace State

/-- The state without its notes. -/
def unnoted (state : State) : State :=
  { state with reports := state.reports.filter (fun report => !report.isNote) }

theorem unnoted_note (state : State) :
    (state.addHere noteCause).unnoted = state.unnoted := by
  simp [unnoted, addHere, add, Report.isNote]

theorem unnoted_add
    (state : State)
    {report : Report}
    (noNote : report.isNote = false) :
    (state.add report).unnoted = state.unnoted.add report := by
  simp [unnoted, add, noNote]

theorem unnoted_advance (state : State) :
    state.advance.unnoted = state.unnoted.advance := by
  rcases state with ⟨_ | ⟨token, rest⟩, stop, final, reached, reports,
    recovering, cutShort⟩
  · rfl
  · rfl

/-- To forget the notes commutes with a recovery, which only skips tokens. -/
theorem unnoted_recover (state : State) :
    state.recover.unnoted = state.unnoted.recover := by
  rw [recover_eq, recover_eq]
  have skipped : state.unnoted.skipped = state.skipped.unnoted := rfl
  rw [skipped]
  split
  · next semicolon =>
      rw [if_pos (show state.skipped.unnoted.kind = .semicolon from semicolon),
        unnoted_advance]
  · next other =>
      rw [if_neg (show ¬state.skipped.unnoted.kind = .semicolon from other)]

/-- To forget the notes commutes with a failure, whose report is no note. -/
theorem unnoted_fail
    (state : State)
    {cause : Cause}
    (expects : cause.isExpectation = true) :
    (state.fail cause).unnoted = state.unnoted.fail cause := by
  rw [fail, fail]
  have same : state.unnoted.recovering = state.recovering := rfl
  rw [same]
  split
  · rfl
  · rw [unnoted_recover]
    exact congrArg recover
      (state.unnoted_add (Report.isNote_of_isExpectation expects _))

/-- To forget the notes commutes with cutting the reading short. -/
theorem unnoted_cutOff (state : State) :
    state.cutOff.unnoted = state.unnoted.cutOff := by
  have reported :
      (if state.cutShort then state
        else state.addHere (.tooDeep nestingLimit)).unnoted =
        if state.cutShort then state.unnoted
        else state.unnoted.addHere (.tooDeep nestingLimit) := by
    split
    · rfl
    · exact state.unnoted_add rfl
  exact congrArg
    (fun before : State =>
      { before with
        rest := [], stop := before.final,
        recovering := true, cutShort := true })
    reported

end State

namespace Rule

variable {α β : Type}

/--
The second rule does what the first one does,
but for the notes that the first one makes.
-/
def Unnotes (noted plain : Rule α) : Prop :=
  ∀ state : State,
    plain.run state.unnoted = ((noted.run state).1, (noted.run state).2.unnoted)

/-! ## What a rule does -/

theorem unnotes_pure (value : α) : (pure value : Rule α).Unnotes (pure value) :=
  fun _ => rfl

theorem Unnotes.bind
    {noted plain : Rule α}
    {next further : α → Rule β}
    (first : noted.Unnotes plain)
    (second : ∀ value, (next value).Unnotes (further value)) :
    (noted >>= next).Unnotes (plain >>= further) := by
  intro state
  rw [run_bind, run_bind, first state]
  exact second _ _

theorem Unnotes.map
    {noted plain : Rule α}
    (both : noted.Unnotes plain)
    (change : α → β) :
    (change <$> noted).Unnotes (change <$> plain) :=
  both.bind fun _ => unnotes_pure _

/-- A choice by a test is the same choice without the notes. -/
theorem unnotes_ite
    {condition : Prop}
    [Decidable condition]
    {noted plain alternative otherwise : Rule α}
    (yes : noted.Unnotes plain)
    (no : alternative.Unnotes otherwise) :
    (if condition then noted else alternative).Unnotes
      (if condition then plain else otherwise) := by
  split
  · exact yes
  · exact no

/-- A question whose answer does not depend on the reports. -/
theorem unnotes_ask_bind
    {question : State → α}
    {next further : α → Rule β}
    (same : ∀ state : State, question state.unnoted = question state)
    (second : ∀ value, (next value).Unnotes (further value)) :
    (ask question >>= next).Unnotes (ask question >>= further) := by
  intro state
  change (further (question state.unnoted)).run state.unnoted = _
  rw [same]
  exact second _ _

theorem unnotes_advance : advance.Unnotes advance :=
  fun state => congrArg (Prod.mk state.current) state.unnoted_advance.symm

theorem unnotes_eat (kind : TokenKind) : (eat kind).Unnotes (eat kind) := by
  intro state
  by_cases here : state.kind = kind
  · have hereToo : state.unnoted.kind = kind := here
    rw [eat_here here, eat_here hereToo, state.unnoted_advance]
  · have elsewhereToo : state.unnoted.kind ≠ kind := here
    rw [eat_elsewhere here, eat_elsewhere elsewhereToo]

theorem unnotes_report
    {cause : Cause}
    (span : Span)
    (noNote : Report.isNote ⟨cause, span⟩ = false) :
    (report cause span).Unnotes (report cause span) :=
  fun state => congrArg (Prod.mk ()) (state.unnoted_add noNote).symm

theorem unnotes_reportHere
    {cause : Cause}
    (noNote : ∀ span, Report.isNote ⟨cause, span⟩ = false) :
    (reportHere cause).Unnotes (reportHere cause) :=
  fun state => congrArg (Prod.mk ()) (state.unnoted_add (noNote _)).symm

theorem unnotes_fail
    {cause : Cause}
    (expects : cause.isExpectation = true) :
    (fail cause).Unnotes (fail cause) :=
  fun state => congrArg (Prod.mk ()) (state.unnoted_fail expects).symm

theorem unnotes_cutOff : cutOff.Unnotes cutOff :=
  fun state => congrArg (Prod.mk ()) state.unnoted_cutOff.symm

theorem unnotes_recovered : recovered.Unnotes recovered :=
  fun _ => rfl

theorem unnotes_expect
    (kind : TokenKind)
    (part : Part) :
    (expect kind part).Unnotes (expect kind part) :=
  (unnotes_eat kind).bind fun _ =>
    unnotes_ite (unnotes_pure ()) (unnotes_fail rfl)

theorem unnotes_expectName (place : NamePlace) :
    (expectName place).Unnotes (expectName place) := by
  refine unnotes_ask_bind (fun _ => rfl) fun token => unnotes_ite ?_ ?_
  · exact unnotes_advance.bind fun _ => unnotes_pure _
  · exact (unnotes_fail rfl).bind fun _ => unnotes_pure _

/-! ## How rules are made -/

section

variable {noted plain : Rule α} (both : noted.Unnotes plain)

include both

theorem Unnotes.optionalAfter (kind : TokenKind) :
    (optionalAfter kind noted).Unnotes (optionalAfter kind plain) :=
  (unnotes_eat kind).bind fun _ =>
    unnotes_ite (both.map some) (unnotes_pure none)

end

/--
A loop with notes is the loop without them, as each of its rounds is.  The
induction follows the rounds.
-/
theorem Unnotes.many
    {open? openToo? : Token → Option (Rule α)}
    (opened : ∀ token, Option.Rel Unnotes (open? token) (openToo? token)) :
    (many open?).Unnotes (many openToo?) := by
  intro state
  change runMany openToo? state.unnoted =
    ((runMany open? state).1, (runMany open? state).2.unnoted)
  fun_induction runMany open? state with
  | case1 state ended =>
      refine runMany_closed (.inr ?_)
      rw [show state.unnoted.rest = state.rest from rfl, ended]
      rintro _ ⟨⟩
  | case2 state token rest ahead recovering =>
      exact runMany_closed (.inl recovering)
  | case3 state token rest ahead calm closed =>
      have closedToo := opened token
      rw [closed] at closedToo
      refine runMany_closed (.inr ?_)
      rw [show state.unnoted.rest = state.rest from rfl, ahead]
      rintro _ ⟨⟩
      cases isOpen : openToo? token with
      | none => rfl
      | some rule =>
          rw [isOpen] at closedToo
          cases closedToo
  | case4 state token rest ahead calm rule isOpen first shorter others
      hypothesis =>
      have openedToo := opened token
      rw [isOpen] at openedToo
      cases isOther : openToo? token with
      | none =>
          rw [isOther] at openedToo
          cases openedToo
      | some other =>
          rw [isOther] at openedToo
          have same : other.run state.unnoted.advance =
              (first.1, first.2.unnoted) := by
            rw [← state.unnoted_advance]
            cases openedToo with
            | some both => exact both state.advance
          have aheadToo : state.unnoted.rest = token :: rest := ahead
          have openedHere :=
            runMany_opened aheadToo (Bool.eq_false_iff.mpr calm) isOther
          rw [openedHere, same, hypothesis]

/--
A loop over statements with notes is the loop without them, if what ends it
does not look at the notes.
-/
theorem Unnotes.sequence
    {noted plain : Rule (Option α)}
    (both : noted.Unnotes plain)
    {closes : State → Bool}
    (same : ∀ state : State, closes state.unnoted = closes state) :
    (sequence closes noted).Unnotes (sequence closes plain) := by
  intro state
  change runSequence closes plain state.unnoted =
    ((runSequence closes noted state).1,
      (runSequence closes noted state).2.unnoted)
  fun_induction runSequence closes noted state with
  | case1 state ended => exact runSequence_closed (.inl ended)
  | case2 state _ closed =>
      exact runSequence_closed (.inr ((same state).trans closed))
  | case3 state ahead opened first shorter others hypothesis =>
      have openedToo : closes state.unnoted = false :=
        (same state).trans (Bool.eq_false_iff.mpr opened)
      have openedHere : runSequence closes plain state.unnoted = _ :=
        runSequence_opened ahead openedToo
      have forward : state.unnoted.forward first.2.unnoted =
          (state.forward first.2).unnoted := by
        rw [State.forward, State.forward]
        change (if first.2.rest == state.rest then _ else _) = _
        split
        · exact first.2.unnoted_advance.symm
        · rfl
      rw [openedHere, both state, forward, hypothesis]

section

variable {noted plain : Rule α} (both : noted.Unnotes plain)

include both

theorem Unnotes.separated : (separated noted).Unnotes (separated plain) := by
  refine both.bind fun first =>
    (Unnotes.many fun token => ?_).bind fun others => unnotes_pure _
  unfold afterComma?
  split
  · exact .some both
  · exact .none

/-- A part between two tokens is the same part without the notes. -/
theorem Unnotes.enclosed
    (closer : TokenKind)
    (part : Part) :
    (enclosed noted closer part).Unnotes (enclosed plain closer part) := by
  have items : (separatedUnless noted closer).Unnotes
      (separatedUnless plain closer) :=
    unnotes_ask_bind (fun _ => rfl) fun _ =>
      unnotes_ite (unnotes_pure []) both.separated
  exact items.bind fun _ => (unnotes_expect closer part).bind fun _ =>
    unnotes_pure _

end

end Rule

/-! ## Expressions -/

/-- What an expression is read as does not depend on the reports made before. -/
theorem run_expression_past
    (levels : Nat)
    (state : State)
    (past : List Report) :
    (expression levels).run { state with reports := state.reports ++ past } =
      (((expression levels).run state).1,
        { ((expression levels).run state).2 with
          reports := ((expression levels).run state).2.reports ++ past }) := by
  have always : (Seam.ofPast .same past).Always (expression levels) :=
    Seam.always_expression levels
  obtain ⟨value, beside⟩ :=
    always _ _ ((Seam.beside_past_iff past state _).mpr rfl) (Or.inl rfl)
  exact Prod.ext (value.trans (relabel_same_expr _))
    ((Seam.beside_past_iff past _ _).mp beside)

/--
An expression makes no notes, so it is the same whether or not notes
stand in the reports.
-/
theorem unnotes_expression (levels : Nat) :
    (expression levels).Unnotes (expression levels) := by
  intro state
  let fresh : State := { state with reports := [] }
  have plain : (expression levels).run state = _ :=
    run_expression_past levels fresh state.reports
  have unnoted : (expression levels).run state.unnoted = _ :=
    run_expression_past levels fresh
      (state.reports.filter (fun report => !report.isNote))
  -- An expression makes no notes of its own.
  have quiet : ((expression levels).run fresh).2.notes = [] :=
    along_expression State.quiet_course.toCourse levels fresh
  have own : ((expression levels).run fresh).2.reports.filter
      (fun report => !report.isNote) =
      ((expression levels).run fresh).2.reports := by
    rw [State.notes, List.map_eq_nil_iff, List.reverse_eq_nil_iff,
      List.filter_eq_nil_iff] at quiet
    refine List.filter_eq_self.mpr fun report member => ?_
    rw [Bool.not_eq_true', Bool.eq_false_iff]
    exact quiet report member
  rw [unnoted, plain, State.unnoted]
  simp only [List.filter_append, own]

/-! ## Simple statements -/

theorem unnotes_spanFrom_bind
    {α : Type}
    (start : Nat)
    {next further : Span → Rule α}
    (second : ∀ span, (next span).Unnotes (further span)) :
    (spanFrom start >>= next).Unnotes (spanFrom start >>= further) :=
  unnotes_ask_bind (fun _ => rfl) second

theorem Rule.Unnotes.terminated
    {noted plain : Rule Stmt}
    (both : noted.Unnotes plain) :
    (terminated noted).Unnotes (terminated plain) :=
  both.bind fun _ => (unnotes_eat _).bind fun _ => unnotes_pure _

theorem unnotes_standalone
    (start : Nat)
    (value : Expr) :
    (standalone start value).Unnotes (standalone start value) :=
  unnotes_spanFrom_bind start fun _ => unnotes_pure _

section

variable (levels : Nat)

/-- A declaration makes no notes. -/
theorem unnotes_declaration :
    (declaration (expression levels)).Unnotes
      (declaration (expression levels)) := by
  have bound (place : NamePlace) :
      (binding (expression levels) place).Unnotes
        (binding (expression levels) place) := by
    refine (unnotes_expectName place).bind fun _ =>
      (unnotes_eat _).bind fun _ => ?_
    refine unnotes_ite ?_ (unnotes_pure _)
    exact (unnotes_expression levels).bind fun _ => unnotes_pure _
  refine unnotes_advance.bind fun _ => (bound _).separated.bind fun _ => ?_
  exact unnotes_spanFrom_bind _ fun _ => unnotes_pure _

theorem unnotes_resultStatement :
    (resultStatement (expression levels)).Unnotes
      (resultStatement (expression levels)) := by
  refine unnotes_advance.bind fun _ =>
    unnotes_ask_bind (fun _ => rfl) fun _ => ?_
  refine unnotes_ite ((unnotes_expression levels).bind fun _ => ?_) ?_
  · exact unnotes_spanFrom_bind _ fun _ => unnotes_pure _
  · exact unnotes_spanFrom_bind _ fun _ => unnotes_pure _

/-- A statement that prints makes no notes. -/
theorem unnotes_printStatement :
    (printStatement (expression levels)).Unnotes
      (printStatement (expression levels)) := by
  have values :
      (printedValues (expression levels)).Unnotes
        (printedValues (expression levels)) :=
    unnotes_ask_bind (fun _ => rfl) fun _ =>
      unnotes_ite (unnotes_expression levels).separated (unnotes_pure [])
  refine unnotes_advance.bind fun _ => values.bind fun _ => ?_
  exact unnotes_spanFrom_bind _ fun _ => unnotes_pure _

/-- An assignment makes no notes.  The report about its target is none. -/
theorem unnotes_assignment
    (start : Nat)
    (target : Expr)
    (form : AssignmentForm) :
    (assignment (expression levels) start target form).Unnotes
      (assignment (expression levels) start target form) := by
  have checked : (checkTarget target).Unnotes (checkTarget target) :=
    unnotes_ite (unnotes_pure ()) (unnotes_report target.span rfl)
  refine checked.bind fun _ => unnotes_advance.bind fun _ => ?_
  refine (unnotes_expression levels).bind fun _ => ?_
  exact unnotes_spanFrom_bind start fun _ => unnotes_pure _

/-- A statement that begins as an expression makes no notes. -/
theorem unnotes_expressionStatement :
    (expressionStatement (expression levels)).Unnotes
      (expressionStatement (expression levels)) := by
  refine unnotes_ask_bind (fun _ => rfl) fun start => ?_
  refine (unnotes_expression levels).bind fun target =>
    unnotes_ask_bind (fun _ => rfl) fun _ => ?_
  refine unnotes_ite (unnotes_standalone start target) ?_
  refine unnotes_ask_bind (fun _ => rfl) fun kind => ?_
  cases AssignmentForm.ofKind? kind with
  | none => exact unnotes_standalone start target
  | some form => exact unnotes_assignment levels start target form

end

/-! ## Compound statements -/

theorem unnotes_close
    (closer opener : TokenKind) :
    (close closer opener).Unnotes (close closer opener) := by
  refine (unnotes_eat closer).bind fun _ => unnotes_ite (unnotes_pure ()) ?_
  refine unnotes_ask_bind (fun _ => rfl) fun _ =>
    unnotes_ite (unnotes_pure ()) ?_
  exact unnotes_reportHere fun _ => rfl

theorem unnotes_counterSign : counterSign.Unnotes counterSign := by
  refine (unnotes_eat _).bind fun _ => unnotes_ite (unnotes_pure ()) ?_
  refine (unnotes_eat _).bind fun _ => unnotes_ite (unnotes_pure ()) ?_
  exact unnotes_fail rfl

/-- The end of a counting loop makes no notes. -/
theorem unnotes_closeFor (counter : Identifier) :
    (closeFor counter).Unnotes (closeFor counter) := by
  have again : (counterAgain counter).Unnotes (counterAgain counter) := by
    refine unnotes_ask_bind (fun _ => rfl) fun _ =>
      unnotes_ite ?_ (unnotes_pure ())
    exact unnotes_advance.bind fun _ => unnotes_pure ()
  refine (unnotes_eat _).bind fun _ => unnotes_ite again ?_
  refine unnotes_ask_bind (fun _ => rfl) fun _ =>
    unnotes_ite (unnotes_pure ()) ?_
  exact unnotes_reportHere fun _ => rfl

theorem unnotes_trailingDo : trailingDo.Unnotes trailingDo := by
  refine unnotes_ask_bind (fun _ => rfl) fun _ =>
    unnotes_ask_bind (fun _ => rfl) fun _ => ?_
  refine unnotes_ite ?_ (unnotes_pure ())
  exact unnotes_advance.bind fun _ => unnotes_pure ()

theorem unnotes_parameters : parameters.Unnotes parameters :=
  (unnotes_eat _).bind fun _ =>
    unnotes_ite ((unnotes_expectName _).enclosed _ _) (unnotes_pure [])

theorem unnotes_closeRoutine : closeRoutine.Unnotes closeRoutine := by
  refine (unnotes_eat _).bind fun _ => unnotes_ite (unnotes_pure ()) ?_
  exact (unnotes_eat _).bind fun _ => unnotes_pure ()

theorem unnotes_strayCloser : strayCloser.Unnotes strayCloser := by
  refine unnotes_ask_bind (fun _ => rfl) fun _ =>
    (unnotes_reportHere fun _ => rfl).bind fun _ => ?_
  exact unnotes_advance.bind fun _ => unnotes_pure none

theorem unnotes_blockTooDeep : blockTooDeep.Unnotes blockTooDeep :=
  unnotes_ask_bind (fun _ => rfl) fun _ => unnotes_cutOff.bind fun _ =>
    unnotes_pure _

theorem Rule.Unnotes.blockOf
    {noted plain : Rule (Option Stmt)}
    (both : noted.Unnotes plain)
    (closers : List TokenKind) :
    (blockOf noted closers).Unnotes (blockOf plain closers) := by
  refine unnotes_ask_bind (fun _ => rfl) fun _ =>
    (both.sequence fun _ => rfl).bind fun _ => ?_
  exact unnotes_recovered.bind fun _ => unnotes_spanFrom_bind _ fun _ =>
    unnotes_pure _

section

variable
  (levels : Nat)
  {block plainBlock : List TokenKind → Rule Block}
  (both : ∀ closers, (block closers).Unnotes (plainBlock closers))

include both

/--
A conditional with notes is the conditional without them, given
that its blocks are.
-/
theorem unnotes_conditional :
    (conditional (expression levels) block).Unnotes
      (conditional (expression levels) plainBlock) := by
  have arms (start : Nat) :
      (arm (expression levels) block start).Unnotes
        (arm (expression levels) plainBlock start) :=
    (unnotes_expression levels).bind fun _ => (unnotes_eat _).bind fun _ =>
      (both _).bind fun _ => unnotes_pure _
  refine unnotes_advance.bind fun word => (arms _).bind fun first => ?_
  refine (Unnotes.many fun token => ?_).bind fun others => ?_
  · unfold furtherArm?
    split
    · exact .some (arms _)
    · exact .none
  · refine ((both _).optionalAfter _).bind fun _ =>
      unnotes_ask_bind (fun _ => rfl) fun _ => ?_
    refine (unnotes_close _ _).bind fun _ => ?_
    exact unnotes_spanFrom_bind _ fun _ => unnotes_pure _

/-- A loop with notes is the loop without them, given that its body is. -/
theorem unnotes_whileLoop :
    (whileLoop (expression levels) block).Unnotes
      (whileLoop (expression levels) plainBlock) := by
  refine unnotes_ask_bind (fun _ => rfl) fun _ =>
    (unnotes_eat _).bind fun _ => ?_
  refine unnotes_advance.bind fun _ =>
    (unnotes_expression levels).bind fun _ => ?_
  refine unnotes_trailingDo.bind fun _ => (both _).bind fun _ => ?_
  refine (unnotes_close _ _).bind fun _ => ?_
  exact unnotes_spanFrom_bind _ fun _ => unnotes_pure _

/--
A counting loop with notes is the loop without them, given that its body is.
-/
theorem unnotes_forLoop :
    (forLoop (expression levels) block).Unnotes
      (forLoop (expression levels) plainBlock) := by
  have value := unnotes_expression levels
  refine unnotes_advance.bind fun _ =>
    (unnotes_expectName _).bind fun counter => ?_
  refine unnotes_counterSign.bind fun _ => value.bind fun _ => ?_
  refine (unnotes_expect _ _).bind fun _ => value.bind fun _ => ?_
  refine (value.optionalAfter _).bind fun _ => (both _).bind fun _ => ?_
  refine (unnotes_closeFor counter).bind fun _ => ?_
  exact unnotes_spanFrom_bind _ fun _ => unnotes_pure _

theorem unnotes_routine : (routine block).Unnotes (routine plainBlock) := by
  refine unnotes_ask_bind (fun _ => rfl) fun _ =>
    (unnotes_eat _).bind fun _ => ?_
  refine unnotes_advance.bind fun _ => (unnotes_expectName _).bind fun _ => ?_
  refine unnotes_parameters.bind fun _ => (both _).bind fun _ => ?_
  refine unnotes_closeRoutine.bind fun _ => ?_
  exact unnotes_spanFrom_bind _ fun _ => unnotes_pure _

/--
A statement with notes is the statement without them, given that its blocks
are.  The cases are the forms.
-/
theorem unnotes_statementOf :
    (statementOf (expression levels) block).Unnotes
      (statementOf (expression levels) plainBlock) := by
  refine unnotes_recovered.bind fun _ =>
    unnotes_ask_bind (fun _ => rfl) fun form => ?_
  cases form with
  | empty => exact unnotes_advance.bind fun _ => unnotes_pure none
  | strayCloser => exact unnotes_strayCloser
  | conditional => exact (unnotes_conditional levels both).map some
  | whileLoop => exact (unnotes_whileLoop levels both).map some
  | forLoop => exact (unnotes_forLoop levels both).map some
  | routine => exact (unnotes_routine both).map some
  | declaration => exact (unnotes_declaration levels).terminated
  | result => exact (unnotes_resultStatement levels).terminated
  | control => exact (unnotes_advance.bind fun _ => unnotes_pure _).terminated
  | print => exact (unnotes_printStatement levels).terminated
  | expression => exact (unnotes_expressionStatement levels).terminated

end

/-- A note before what a rule reads makes no difference but for itself. -/
theorem unnotes_note_bind
    {α : Type}
    {noted plain : Rule α}
    (both : noted.Unnotes plain) :
    (reportHere noteCause >>= fun _ => noted).Unnotes plain := by
  intro state
  rw [← state.unnoted_note]
  exact both _

theorem unnotes_notedStatement (levels : Nat) :
    (notedStatement levels).Unnotes (statement levels) := by
  induction levels with
  | zero =>
      exact unnotes_note_bind
        (unnotes_statementOf 0 fun _ => unnotes_blockTooDeep)
  | succ levels hypothesis =>
      exact unnotes_note_bind
        (unnotes_statementOf (levels + 1) hypothesis.blockOf)

theorem unnotes_notedProgram : notedProgram.Unnotes program :=
  ((unnotes_notedStatement nestingLimit).sequence fun _ => rfl).bind fun _ =>
    unnotes_ask_bind (fun _ => rfl) fun _ => unnotes_pure _

/-! ## Attempts of a whole reading -/

/--
Every attempt at a statement takes or skips a token, so no loop ever
forces the reading on. Every loop over statements ends at its closing
word or at the end of the file, after at most as many rounds as it
takes tokens.  A whole program is read with at most one attempt for
each token before the end of the file, and the reading ends there.
-/
theorem attempts_progress (tokens : List Token) :
    (∀ levels state, (State.ofTokens tokens).Reaches state →
      state.kind ≠ .endOfFile →
      ((statement levels).run state).2.rest <:+ state.rest.tail ∧
        ((statement levels).run state).2.rest.length < state.rest.length ∧
        state.forward ((statement levels).run state).2 =
          ((statement levels).run state).2) ∧
      (∀ levels closes state, (State.ofTokens tokens).Reaches state →
        ∃ attempts values after,
          (sequence closes (statement levels)).run state = (values, after) ∧
            Rounds closes (statement levels) state attempts values after ∧
            (after.kind = .endOfFile ∨ closes after = true) ∧
            attempts.length + after.rest.length ≤ state.rest.length) ∧
      (program.run (State.ofTokens tokens) =
          ((notedProgram.run (State.ofTokens tokens)).1,
            (notedProgram.run (State.ofTokens tokens)).2.unnoted) ∧
        (notedProgram.run (State.ofTokens tokens)).2.notes.Sublist
          ((tokens.takeWhile (·.kind != .endOfFile)).map Token.span) ∧
        (notedProgram.run (State.ofTokens tokens)).2.notes.length ≤
          tokens.length) ∧
      (program.run (State.ofTokens tokens)).2.kind = .endOfFile := by
  refine ⟨fun levels state reaches ahead =>
    ?_, fun levels closes state reaches => ?_, ?_, ?_⟩
  · exact ⟨suffix_tail_statement levels reaches.endsLast ahead,
      length_rest_statement levels reaches.endsLast ahead,
      forward_statement levels reaches.endsLast ahead⟩
  · obtain ⟨attempts, rounds, bound⟩ :=
      exists_rounds levels closes reaches.endsLast
    exact ⟨attempts, _, _, rfl, rounds, rounds.stops, bound⟩
  · obtain ⟨passed, made, shape, notes, among⟩ :=
      tallies_notedProgram (State.ofTokens tokens)
        (State.endsLast_ofTokens tokens)
    have whole : (notedProgram.run (State.ofTokens tokens)).2.notes.Sublist
        ((tokens.takeWhile (·.kind != .endOfFile)).map Token.span) := by
      rw [notes]
      refine among.trans (List.Sublist.map Token.span ?_)
      change passed.Sublist (State.ofTokens tokens).rest
      rw [shape]
      exact List.sublist_append_left passed _
    refine ⟨unnotes_notedProgram (State.ofTokens tokens), whole, ?_⟩
    have fewer :=
      (List.takeWhile_sublist (·.kind != .endOfFile) (l := tokens)).length_le
    have bound := whole.length_le
    rw [List.length_map] at bound
    exact Nat.le_trans bound fewer
  · obtain ⟨attempts, rounds, -⟩ :=
      exists_rounds nestingLimit (fun _ => false)
        (State.endsLast_ofTokens tokens)
    rcases rounds.stops with ended | impossible
    · exact ended
    · cases impossible

/--
A conditional with two statements takes three attempts for its nine tokens.
-/
example :
    (notedProgram.run (State.ofTokens
      (Lexeme.tokens
        (Lexeme.all "IF a\n ? b; x := 1\nENDIF".toList)))).2.notes.length =
        3 := by
  decide +kernel

end Clipper.Grammar
