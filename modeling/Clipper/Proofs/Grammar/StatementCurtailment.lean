import Clipper.Proofs.Grammar.ExpressionCurtailment
import Clipper.Proofs.Grammar.StatementForms
import Clipper.Proofs.Grammar.StatementSound

/-!
# Statements do not depend on what stands behind them

The rules for statements keep what they read where the tokens behind are
missing, and also with more levels left.  Two words are understood by the token
after them: a `STATIC` may open a routine, and a `DO` a loop; so the tokens may
not end in these.

A compound statement ends with its closing word, so its blocks end before the
seam, and it does not matter what stands there.  The block of a routine may lack
this word, and then nothing may stand behind.
-/

namespace Clipper.Grammar.Curtailment

open Rule

variable {cut : Curtailment} {left : State}

/--
A token of some kinds is looked for; where
the first choice is made, it takes a token.
-/
theorem keeps_test_bind
    {α : Type}
    {test : TokenKind → Bool}
    {rule other alternative otherwise : Rule α}
    (quiet : ∀ kind, isQuiet kind = true → test kind = false)
    (takes :
      test left.kind = true → ∀ value next, Reads rule left value next →
        next.rest.length < left.rest.length)
    (yes : test left.kind = true → cut.Keeps rule other left)
    (no : test left.kind = false → cut.Keeps alternative otherwise left) :
    cut.Keeps (ask State.kind >>= fun kind =>
      if test kind = true then rule else alternative)
        (ask State.kind >>= fun kind =>
          if test kind = true then other else otherwise) left := by
  intro value next front reads shape reached clear
  have continued := reads_ask_bind.mp reads
  cases isKind : test left.kind with
  | true =>
      rw [isKind, if_pos rfl] at continued
      obtain ⟨token, front, rfl⟩ :=
        exists_cons_of_taken shape reached (takes isKind _ _ continued)
      obtain ⟨later, shapeNext, kept⟩ :=
        yes isKind continued shape reached clear
      refine ⟨later, shapeNext, reads_ask_bind.mpr ?_⟩
      rwa [kind_state shape, isKind, if_pos rfl]
  | false =>
      rw [isKind, if_neg Bool.false_ne_true] at continued
      obtain ⟨later, shapeNext, kept⟩ := no isKind continued shape reached clear
      have fails : test (cut.state left front).kind = false := by
        cases front with
        | cons token front => rw [kind_state shape, isKind]
        | nil =>
            rw [kind_state_nil]
            exact quiet _
              (cut.quiet (reached.full shape (suffix_of_reads continued)))
      refine ⟨later, shapeNext, reads_ask_bind.mpr ?_⟩
      rwa [fails, if_neg Bool.false_ne_true]

theorem opensExpression_of_isQuiet
    (kind : TokenKind)
    (quiet : isQuiet kind = true) :
    opensExpression kind = false := by
  cases kind <;> first | rfl | cases quiet

theorem assignmentForm_of_isQuiet
    {kind : TokenKind}
    (quiet : isQuiet kind = true) :
    AssignmentForm.ofKind? kind = none := by
  cases kind <;> first | rfl | cases quiet

section

variable
  {expression other : Rule Expr}
  (keeps : ∀ state, cut.Keeps expression other state)
  (takes :
    ∀ {state tree next}, Reads expression state tree next →
      next.rest.length < state.rest.length)

/-! ## Simple statements -/

include keeps

theorem keeps_binding (place : NamePlace) :
    cut.Keeps (binding expression place) (binding other place) left := by
  refine (keeps_expectName place).bind fun name middle _ => ?_
  refine keeps_eatWord_bind (by decide) (by decide) (fun _ => ?_) fun _ => ?_
  · exact (keeps _).bind fun _ _ _ => keeps_pure _
  · exact keeps_pure _

theorem keeps_declaration (ahead : left.rest ≠ []) :
    cut.Keeps (declaration expression) (declaration other) left := by
  refine keeps_advance_bind ahead
    ((Keeps.separated fun _ => keeps_binding keeps _).bind ?_)
  exact fun _ _ _ => keeps_spanFrom_bind fun _ => keeps_pure _

omit keeps in
theorem keeps_loopControl (ahead : left.rest ≠ []) :
    cut.Keeps loopControl loopControl left :=
  keeps_advance_bind ahead (keeps_pure _)

omit keeps in
theorem keeps_standalone
    (start : Nat)
    (value : Expr) :
    cut.Keeps (standalone start value) (standalone start value) left :=
  keeps_spanFrom_bind fun _ => keeps_pure _

omit keeps in
theorem reads_checkTarget
    {target : Expr}
    {nothing : Unit}
    {next : State}
    (reads : Reads (checkTarget target) left nothing next) :
    next = left := by
  rw [checkTarget] at reads
  split at reads
  · exact (reads_pure.mp reads).2.2
  · exact absurd reads not_reads_report

/--
An assignment is kept: its sign stands before the seam, and its value is kept.
-/
theorem keeps_assignment
    (start : Nat)
    (target : Expr)
    (form : AssignmentForm)
    (ahead : left.rest ≠ []) :
    cut.Keeps (assignment expression start target form)
      (assignment other start target form)
      left := by
  have check : cut.Keeps (checkTarget target) (checkTarget target) left :=
    keeps_ite (fun _ => keeps_pure ()) fun _ =>
      keeps_of_never (fun _ _ => not_reads_report) _
  refine check.bind fun _ middle checked => ?_
  rw [reads_checkTarget checked]
  refine keeps_advance_bind ahead ((keeps _).bind fun _ _ _ => ?_)
  exact keeps_spanFrom_bind fun _ => keeps_pure _

/--
Behind a target, only the sign of an assignment goes on with the statement.
-/
theorem keeps_afterTarget
    (start : Nat)
    (target : Expr) :
    cut.Keeps
      (ask State.kind >>= fun kind =>
        match AssignmentForm.ofKind? kind with
        | none => standalone start target
        | some form => assignment expression start target form)
      (ask State.kind >>= fun kind =>
        match AssignmentForm.ofKind? kind with
        | none => standalone start target
        | some form => assignment other start target form) left := by
  intro statement next front reads shape reached clear
  have continued := reads_ask_bind.mp reads
  cases form? : AssignmentForm.ofKind? left.kind with
  | none =>
      rw [form?] at continued
      obtain ⟨later, shapeNext, kept⟩ :=
        keeps_standalone start target continued shape reached clear
      have none : AssignmentForm.ofKind? (cut.state left front).kind =
          none := by
        cases front with
        | cons token front => rw [kind_state shape, form?]
        | nil =>
            rw [kind_state_nil]
            exact assignmentForm_of_isQuiet
              (cut.quiet (reached.full shape (suffix_of_reads continued)))
      refine ⟨later, shapeNext, reads_ask_bind.mpr ?_⟩
      rw [none]
      exact kept
  | some form =>
      rw [form?] at continued
      have ahead : left.rest ≠ [] := by
        apply State.ahead_of_kind rfl
        intro ended
        rw [ended] at form?
        cases form?
      have taken : next.rest.length < left.rest.length := by
        obtain ⟨_, middle, checked, advanced⟩ := reads_bind.mp continued
        rw [reads_checkTarget checked] at advanced
        exact length_lt_of_advance ahead advanced
      obtain ⟨token, front, rfl⟩ := exists_cons_of_taken shape reached taken
      obtain ⟨later, shapeNext, kept⟩ :=
        keeps_assignment keeps start target form ahead continued shape
          reached clear
      refine ⟨later, shapeNext, reads_ask_bind.mpr ?_⟩
      rw [kind_state shape, form?]
      exact kept

include takes

/--
A statement that returns is kept.  Whether it has a value is told by the next
token, which is the same on both sides or opens no expression.
-/
theorem keeps_resultStatement (ahead : left.rest ≠ []) :
    cut.Keeps (resultStatement expression) (resultStatement other) left := by
  refine keeps_advance_bind ahead ?_
  refine keeps_test_bind opensExpression_of_isQuiet (fun _ => ?_)
    (fun _ => ?_) fun _ => ?_
  · intro statement next reads
    obtain ⟨value, middle, read, continued⟩ := reads_bind.mp reads
    exact Nat.lt_of_le_of_lt (length_le continued) (takes read)
  · exact (keeps _).bind fun _ _ _ => keeps_spanFrom_bind fun _ => keeps_pure _
  · exact keeps_spanFrom_bind fun _ => keeps_pure _

/-- The values of a statement that prints are kept, and so is their absence. -/
theorem keeps_printedValues :
    cut.Keeps (printedValues expression) (printedValues other) left := by
  refine keeps_test_bind opensExpression_of_isQuiet (fun _ => ?_)
    (fun _ => ?_) fun _ =>
      keeps_pure []
  · intro values next reads
    rw [Rule.separated] at reads
    obtain ⟨value, middle, read, continued⟩ := reads_bind.mp reads
    exact Nat.lt_of_le_of_lt (length_le continued) (takes read)
  · exact Keeps.separated keeps

theorem keeps_printStatement (ahead : left.rest ≠ []) :
    cut.Keeps (printStatement expression) (printStatement other) left := by
  refine keeps_advance_bind ahead
    ((keeps_printedValues keeps takes).bind fun _ _ _ => ?_)
  exact keeps_spanFrom_bind fun _ => keeps_pure _

/-- A statement that begins as an expression is kept. -/
theorem keeps_expressionStatement :
    cut.Keeps (expressionStatement expression)
      (expressionStatement other) left := by
  refine keeps_peek_bind (fun _ _ shape _ => ?_) ?_ ?_
  · exact congrArg (fun token => token.span.start) (current_state shape)
  · intro statement next reads
    obtain ⟨target, middle, read, continued⟩ := reads_bind.mp reads
    exact Nat.lt_of_le_of_lt (length_le continued) (takes read)
  · refine (keeps left).bind fun target middle _ => ?_
    refine keeps_ask_bind (fun _ _ => rfl)
      (keeps_ite (fun _ => keeps_standalone _ _) fun _ => ?_)
    exact keeps_afterTarget keeps left.start target

end

/--
The semicolon after a simple statement is taken, so none may stand behind.
-/
theorem keeps_terminated
    {rule other : Rule Stmt}
    (unprolonged : cut.short = false → headKind cut.behind ≠ .semicolon)
    (keeps : cut.Keeps rule other left) :
    cut.Keeps (terminated rule) (terminated other) left := by
  refine keeps.bind fun _ _ _ => ?_
  exact keeps_eat_bind (by decide) unprolonged (fun _ => keeps_pure _) fun _ =>
    keeps_pure _

/-! ## Parts of compound statements -/

theorem not_reads_unclosed
    {cause : Cause}
    {nothing : Unit}
    {next : State} :
    ¬ Reads
        (ask State.cutShort >>= fun isCut =>
          if isCut = true then pure () else reportHere cause)
        left nothing next := by
  intro reads
  rw [reads_ask_bind, reads.calm.whole, if_neg Bool.false_ne_true] at reads
  exact not_reads_reportHere reads

theorem keeps_close
    {closer : TokenKind}
    (isToken : closer ≠ .endOfFile)
    (opener : TokenKind) :
    cut.Keeps (close closer opener) (close closer opener) left :=
  keeps_mustEat_bind isToken (fun _ _ => not_reads_unclosed) fun _ =>
    keeps_pure ()

/-- A `DO` that opens no loop is taken, and then a token after it tells so. -/
theorem keeps_trailingDo : cut.Keeps trailingDo trailingDo left := by
  intro nothing next front reads shape reached clear
  rw [trailingDo, reads_ask_bind, reads_ask_bind] at reads
  split at reads
  · next isDo =>
      have ahead := State.ahead_of_kind isDo.1 (by decide)
      obtain ⟨token, front, rfl⟩ :=
        exists_cons_of_taken shape reached (length_lt_of_advance ahead reads)
      have taking :
          cut.Keeps (advance >>= fun _ => pure ())
            (advance >>= fun _ => pure ()) left :=
        keeps_advance_bind ahead (keeps_pure ())
      obtain ⟨later, shapeNext, kept⟩ := taking reads shape reached clear
      refine ⟨later, shapeNext, ?_⟩
      rw [trailingDo, reads_ask_bind, reads_ask_bind, if_pos]
      · exact kept
      · refine ⟨(kind_state shape).trans isDo.1, ?_⟩
        rw [← State.kind_advance, advance_state shape]
        cases front with
        | nil =>
            rw [kind_state_nil]
            exact behind_ne (by decide)
              (reached.full (State.rest_advance shape)
                (suffix_of_reads (reads_advance_bind.mp reads)))
        | cons second front =>
            rw [kind_state (State.rest_advance shape), State.kind_advance]
            exact isDo.2
  · next noDo =>
      obtain ⟨later, shapeNext, kept⟩ := keeps_pure () reads shape reached clear
      refine ⟨later, shapeNext, ?_⟩
      rw [trailingDo, reads_ask_bind, reads_ask_bind, if_neg]
      · exact kept
      · rintro ⟨isDo, noWhile⟩
        apply noDo
        cases front with
        | nil =>
            rw [kind_state_nil] at isDo
            exact absurd isDo
              (behind_ne (by decide)
                (reached.full shape (suffix_of_reads reads)))
        | cons token front =>
            refine ⟨(kind_state shape).symm.trans isDo, ?_⟩
            rw [← State.kind_advance, advance_state shape] at noWhile
            cases front with
            | nil =>
                have word : token.kind = .doWord :=
                  (State.kind_of_rest rfl).symm.trans isDo
                exact absurd word (clear token (by rfl)).2
            | cons second front =>
                rw [kind_state (State.rest_advance shape)] at noWhile
                rwa [← State.kind_advance]

/--
The counter behind the closing word of a counting loop is kept, or its
absence.  A name behind the seam must not be this counter.
-/
theorem keeps_counterAgain (counter : Identifier) :
    cut.Keeps (counterAgain counter) (counterAgain counter) left := by
  intro nothing next front reads shape reached clear
  rw [counterAgain, reads_ask_bind] at reads
  split at reads
  · next isName =>
      have ahead : left.rest ≠ [] := State.ahead_of_kind isName.1 (by decide)
      obtain ⟨token, front, rfl⟩ :=
        exists_cons_of_taken shape reached (length_lt_of_advance ahead reads)
      have taking :
          cut.Keeps (advance >>= fun _ => pure ())
            (advance >>= fun _ => pure ()) left :=
        keeps_advance_bind ahead (keeps_pure ())
      obtain ⟨later, shapeNext, kept⟩ := taking reads shape reached clear
      refine ⟨later, shapeNext, ?_⟩
      rw [counterAgain, reads_ask_bind, current_state shape, if_pos isName]
      exact kept
  · next other =>
      obtain ⟨later, shapeNext, kept⟩ := keeps_pure () reads shape reached clear
      refine ⟨later, shapeNext, ?_⟩
      rw [counterAgain, reads_ask_bind, if_neg]
      · exact kept
      · rintro ⟨isName, same⟩
        cases front with
        | nil =>
            have kind : headKind cut.behind = .identifier :=
              (State.kind_eq_headKind _).symm.trans isName
            exact absurd kind
              (behind_ne (by decide)
                (reached.full shape (suffix_of_reads reads)))
        | cons token front =>
            rw [current_state shape] at isName same
            exact other ⟨isName, same⟩

theorem keeps_counterSign : cut.Keeps counterSign counterSign left := by
  refine keeps_eatWord_bind (by decide) (by decide) (fun _ => keeps_pure ()) ?_
  intro _
  refine keeps_eatWord_bind (by decide) (by decide) (fun _ => keeps_pure ()) ?_
  exact fun _ => keeps_of_never (fun _ _ => not_reads_fail) _

theorem keeps_closeFor (counter : Identifier) :
    cut.Keeps (closeFor counter) (closeFor counter) left :=
  keeps_mustEat_bind (by decide) (fun _ _ => not_reads_unclosed) fun _ =>
    keeps_counterAgain counter

theorem keeps_parameters : cut.Keeps parameters parameters left := by
  refine keeps_eatWord_bind (by decide) (by decide) (fun _ => ?_) ?_
  · exact Keeps.enclosed (fun _ => keeps_expectName _) (by decide) _
  · exact fun _ => keeps_pure []

/--
The closing word of a routine may be missing, and then nothing may stand behind.
-/
theorem keeps_closeRoutine (bare : cut.short = false → cut.behind = []) :
    cut.Keeps closeRoutine closeRoutine left := by
  have noCloser {kind : TokenKind} (isToken : kind ≠ .endOfFile)
      (full : cut.short = false) : headKind cut.behind ≠ kind := by
    rw [bare full]
    exact isToken.symm
  refine keeps_eat_bind (by decide) (noCloser (by decide))
    (fun _ => keeps_pure ()) fun _ => ?_
  exact keeps_eat_bind (by decide) (noCloser (by decide))
    (fun _ => keeps_pure ()) fun _ =>
      keeps_pure ()

/-! ## Compound statements -/

theorem start_state
    {token : Token}
    {front : List Token}
    (shape : left.rest = token :: (front ++ cut.dropped)) :
    (cut.state left (token :: front)).start = left.start :=
  congrArg (fun token => token.span.start) (current_state shape)

/--
A rule that may eat a word first takes a token if it takes
one without the word.
-/
theorem length_lt_of_eat
    {β : Type}
    {kind : TokenKind}
    {next : Bool → Rule β}
    {value : β}
    {last : State}
    (ahead : left.rest ≠ [])
    (taking :
      ∀ value last, Reads (next false) left value last →
        last.rest.length < left.rest.length)
    (reads : Reads (eat kind >>= next) left value last) :
    last.rest.length < left.rest.length := by
  obtain ⟨eaten, middle, ate, continued⟩ := reads_bind.mp reads
  obtain ⟨-, ⟨-, -, rfl⟩ | ⟨-, rfl, rfl⟩⟩ := reads_eat.mp ate
  · obtain ⟨token, rest, whole⟩ := List.exists_cons_of_ne_nil ahead
    exact Nat.lt_of_le_of_lt (length_le continued) (length_advance whole)
  · exact taking _ _ continued

/--
To close a compound statement, or to report that
this fails, takes a token or makes a report.
-/
theorem length_lt_of_mustEat
    {β : Type}
    {kind : TokenKind}
    {next : Bool → Rule β}
    {value : β}
    {last : State}
    (isToken : kind ≠ .endOfFile)
    (never : ∀ value last, ¬ Reads (next false) left value last)
    (reads : Reads (eat kind >>= next) left value last) :
    last.rest.length < left.rest.length := by
  obtain ⟨eaten, middle, ate, continued⟩ := reads_bind.mp reads
  obtain ⟨-, ⟨here, rfl, rfl⟩ | ⟨-, rfl, rfl⟩⟩ := reads_eat.mp ate
  · exact Nat.lt_of_le_of_lt (length_le continued)
      (length_advance (State.rest_of_kind here isToken))
  · exact absurd continued (never _ _)

/-- A rule takes a token if its first part does. -/
theorem length_lt_of_bind
    {α β : Type}
    {rule : Rule α}
    {next : α → Rule β}
    {value : β}
    {last : State}
    (takes :
      ∀ made middle, Reads rule left made middle →
        middle.rest.length < left.rest.length)
    (reads : Reads (rule >>= next) left value last) :
    last.rest.length < left.rest.length := by
  obtain ⟨made, middle, read, continued⟩ := reads_bind.mp reads
  exact Nat.lt_of_le_of_lt (length_le continued) (takes _ _ read)

/-- A rule that closes a statement without a report takes the closing word. -/
theorem length_lt_of_close
    {β : Type}
    {closer opener : TokenKind}
    {next : Unit → Rule β}
    {value : β}
    {last : State}
    (isToken : closer ≠ .endOfFile)
    (reads : Reads (close closer opener >>= next) left value last) :
    last.rest.length < left.rest.length :=
  length_lt_of_bind
    (fun _ _ => length_lt_of_mustEat isToken fun _ _ => not_reads_unclosed)
      reads

theorem length_lt_of_closeFor
    {β : Type}
    {counter : Identifier}
    {next : Unit → Rule β}
    {value : β}
    {last : State}
    (reads : Reads (closeFor counter >>= next) left value last) :
    last.rest.length < left.rest.length :=
  length_lt_of_bind
    (fun _ _ => length_lt_of_mustEat (by decide) fun _ _ => not_reads_unclosed)
      reads

section

variable
  {expression other : Rule Expr}
  (keeps : ∀ state, cut.Keeps expression other state)
  {block otherBlock : List TokenKind → Rule Block}

include keeps

/-- The condition and block of an arm are kept. -/
theorem keeps_arm
    (keepsBlock : ∀ closers state,
      cut.Keeps (block closers) (otherBlock closers) state)
    (start : Nat) :
    cut.Keeps (arm expression block start)
      (arm other otherBlock start) left := by
  refine (keeps left).bind fun condition middle _ => ?_
  refine keeps_eatWord_bind (by decide) (by decide) (fun _ => ?_) fun _ => ?_
  · exact (keepsBlock _ _).bind fun _ _ _ => keeps_pure _
  · exact (keepsBlock _ _).bind fun _ _ _ => keeps_pure _

/-- A further arm may stand behind the seam, so the arms must not end there. -/
theorem keeps_furtherArms
    (keepsBlock : ∀ closers state,
      cut.Keeps (block closers) (otherBlock closers) state)
    (short : cut.short = true) :
    cut.Keeps (many (furtherArm? expression block))
      (many (furtherArm? other otherBlock)) left := by
  refine keeps_many ?_ ?_ ?_
  · intro token rule opened
    rw [furtherArm?] at opened
    split at opened
    · next word =>
        cases opened
        exact ⟨_, if_pos word, fun _ => keeps_arm keeps keepsBlock _⟩
    · cases opened
  · intro token closed
    rw [furtherArm?] at closed ⊢
    split at closed
    · cases closed
    · next noWord => exact if_neg noWord
  · intro full
    rw [short] at full
    cases full

/--
The arms and the alternative of a conditional are kept where all blocks are.
-/
theorem keeps_conditionalParts
    (keepsBlock : ∀ closers state,
      cut.Keeps (block closers) (otherBlock closers) state)
    (short : cut.short = true)
    (start : Nat) :
    cut.Keeps (conditionalParts expression block start)
      (conditionalParts other otherBlock start)
      left := by
  refine (keeps_arm keeps keepsBlock _).bind fun first _ _ => ?_
  refine (keeps_furtherArms keeps keepsBlock short).bind fun others _ _ => ?_
  have otherwise (state : State) :
      cut.Keeps (optionalAfter .elseWord (block [.endIf]))
        (optionalAfter .elseWord (otherBlock [.endIf])) state := by
    refine Keeps.optionalAfter (by decide) (fun full => ?_) fun _ =>
      keepsBlock _ _
    rw [short] at full
    cases full
  exact (otherwise _).bind fun last? _ _ => keeps_pure _

variable
  (keepsBlock : ∀ closers state,
    cut.within.Keeps (block closers) (otherBlock closers) state)

include keepsBlock

/--
A conditional is kept.  Its closing word stands before the seam, so its
blocks end there too.
-/
theorem keeps_conditional (ahead : left.rest ≠ []) :
    cut.Keeps (conditional expression block)
      (conditional other otherBlock) left := by
  rw [conditional_eq, conditional_eq]
  refine keeps_advance_bind ahead (Keeps.bind_within ?_ ?_ fun parts _ _ => ?_)
  · exact keeps_conditionalParts (fun state => (keeps state).within)
      keepsBlock rfl _
  · exact fun _ _ _ _ reads =>
      length_lt_of_close (by decide) (reads_ask_bind.mp reads)
  · refine keeps_ask_bind (fun _ _ => rfl)
      ((keeps_close (by decide) _).bind fun _ _ _ => ?_)
    exact keeps_spanFrom_bind fun _ => keeps_pure _

theorem keeps_whileRest
    (start : Nat)
    (ahead : left.rest ≠ []) :
    cut.Keeps (whileRest expression block start)
      (whileRest other otherBlock start) left := by
  refine keeps_advance_bind ahead ((keeps _).bind fun condition _ _ => ?_)
  refine keeps_trailingDo.bind fun _ _ _ => ?_
  refine (keepsBlock _ _).bind_within
    (fun _ _ _ _ => length_lt_of_close (by decide)) ?_
  refine fun body _ _ => (keeps_close (by decide) _).bind fun _ _ _ => ?_
  exact keeps_spanFrom_bind fun _ => keeps_pure _

/--
A loop with a condition is kept.  Where it begins with `DO`, the word behind
it stands before the seam.
-/
theorem keeps_whileLoop
    (word : left.kind = .whileWord ∨ left.kind = .doWord ∧
      left.secondKind = .whileWord) :
    cut.Keeps (whileLoop expression block)
      (whileLoop other otherBlock) left := by
  have ahead : left.rest ≠ [] := by
    rcases word with isWhile | isDo
    · exact State.ahead_of_kind isWhile (by decide)
    · exact State.ahead_of_kind isDo.1 (by decide)
  rw [whileLoop_eq, whileLoop_eq]
  refine keeps_peek_bind (fun _ _ shape _ => start_state shape) ?_ ?_
  · exact fun _ _ => length_lt_of_eat ahead fun _ _ =>
      length_lt_of_advance ahead
  · refine keeps_eatWord_bind (by decide) (by decide) ?_ ?_
    · intro isDo
      apply keeps_whileRest keeps keepsBlock
      rcases word with isWhile | isDoWhile
      · rw [isWhile] at isDo
        cases isDo
      · exact State.ahead_of_kind ((State.kind_advance left).trans isDoWhile.2)
          (by decide)
    · exact fun _ => keeps_whileRest keeps keepsBlock _ ahead

/-- A counting loop is kept. -/
theorem keeps_forLoop (ahead : left.rest ≠ []) :
    cut.Keeps (forLoop expression block) (forLoop other otherBlock) left := by
  refine keeps_advance_bind ahead
    ((keeps_expectName _).bind fun counter _ _ => ?_)
  refine keeps_counterSign.bind fun _ _ _ => (keeps _).bind fun first _ _ => ?_
  refine keeps_expect_bind (by decide) ((keeps _).bind fun last _ _ => ?_)
  refine (Keeps.optionalAfter (by decide) (behind_ne (by decide)) fun _ =>
    keeps _).bind ?_
  refine fun step? _ _ =>
    (keepsBlock _ _).bind_within (fun _ _ _ _ => length_lt_of_closeFor) ?_
  refine fun body _ _ => (keeps_closeFor counter).bind fun _ _ _ => ?_
  exact keeps_spanFrom_bind fun _ => keeps_pure _

end

/-! ## Routines -/

theorem keeps_routineHead
    (start : Nat)
    (isStatic : Bool)
    (ahead : left.rest ≠ []) :
    cut.Keeps (routineHead start isStatic)
      (routineHead start isStatic) left := by
  refine keeps_advance_bind ahead ((keeps_expectName _).bind fun name _ _ => ?_)
  exact keeps_parameters.bind fun _ _ _ => keeps_pure _

/-- The head of a routine is kept. -/
theorem keeps_routineOpening (opens : opensRoutine left.rest = true) :
    cut.Keeps routineOpening routineOpening left := by
  have ahead : left.rest ≠ [] := by
    intro ended
    rw [ended] at opens
    cases opens
  refine keeps_peek_bind (fun _ _ shape _ => start_state shape) ?_ ?_
  · exact fun _ _ => length_lt_of_eat ahead fun _ _ =>
      length_lt_of_advance ahead
  · refine keeps_eatWord_bind (by decide) (by decide) ?_ ?_
    · intro isStatic
      apply keeps_routineHead
      rw [opensRoutine_rest, isStatic] at opens
      apply State.ahead_of_kind (State.kind_advance left)
      intro ended
      rw [ended] at opens
      cases opens
    · exact fun _ => keeps_routineHead _ _ ahead

theorem keeps_routineOf
    (start : Nat)
    (head : RoutineHead)
    (body : Block) :
    cut.Keeps (routineOf start head body) (routineOf start head body) left :=
  keeps_spanFrom_bind fun _ => keeps_pure _

/--
A routine is kept.  Without a closing word its body goes on to the seam, and
then nothing may stand behind it.
-/
theorem keeps_routine
    {block otherBlock : List TokenKind → Rule Block}
    (keepsBlock : ∀ closers state,
      cut.Keeps (block closers) (otherBlock closers) state)
    (bare : cut.short = false → cut.behind = [])
    (opens : opensRoutine left.rest = true) :
    cut.Keeps (routine block) (routine otherBlock) left := by
  rw [routine_eq, routine_eq]
  refine (keeps_routineOpening opens).bind fun opened _ _ => ?_
  refine (keepsBlock _ _).bind fun body _ _ =>
    (keeps_closeRoutine bare).bind fun _ _ _ => ?_
  exact keeps_routineOf _ _ _

/-! ## Statements and blocks -/

/--
The form of a statement is told by the kind of its first token, and for two
words by the kind of the second one.
-/
theorem form_congr
    {state other : State}
    (sameKind : state.kind = other.kind)
    (sameSecond :
      state.kind = .static ∨ state.kind = .doWord →
      state.secondKind = other.secondKind) :
    StatementForm.of state = StatementForm.of other := by
  rw [StatementForm.of, StatementForm.of, opensRoutine_rest,
    opensRoutine_rest, ← sameKind]
  split
  case h_11 isDo => rw [sameSecond (.inr isDo)]
  case h_15 isStatic => rw [sameSecond (.inl isStatic)]
  all_goals rfl

/--
The token ahead tells the same form, because
it is not the last one or needs no other.
-/
theorem secondKind_state
    {token : Token}
    {front : List Token}
    (shape : left.rest = token :: (front ++ cut.dropped))
    (clear : EndsClear (token :: front))
    (needed : left.kind = .static ∨ left.kind = .doWord) :
    (cut.state left (token :: front)).secondKind = left.secondKind := by
  rw [← State.kind_advance, ← State.kind_advance, advance_state shape]
  cases front with
  | nil =>
      rw [State.kind_of_rest shape] at needed
      rcases needed with isStatic | isDo
      · exact absurd isStatic (clear token rfl).1
      · exact absurd isDo (clear token rfl).2
  | cons second front => exact kind_state (State.rest_advance shape)

theorem form_state
    {token : Token}
    {front : List Token}
    (shape : left.rest = token :: (front ++ cut.dropped))
    (clear : EndsClear (token :: front)) :
    StatementForm.of (cut.state left (token :: front)) =
      StatementForm.of left := by
  apply form_congr (kind_state shape)
  rw [kind_state shape]
  exact secondKind_state shape clear

/--
Whether a block ends is told by the tokens before the seam,
if they end clearly.
-/
theorem endsBlock_state
    {token : Token}
    {front : List Token}
    (shape : left.rest = token :: (front ++ cut.dropped))
    (clear : EndsClear (token :: front))
    (closers : List TokenKind) :
    endsBlock closers (cut.state left (token :: front)) =
      endsBlock closers left := by
  rw [endsBlock, endsBlock, opensRoutine_rest, opensRoutine_rest,
    kind_state shape]
  by_cases isStatic : left.kind = .static
  · rw [secondKind_state shape clear (.inl isStatic)]
  · rw [beq_eq_false_iff_ne.mpr isStatic, Bool.false_and, Bool.false_and]

section

variable
  {expression other : Rule Expr}
  (keeps : ∀ state, cut.Keeps expression other state)
  (takes :
    ∀ {state tree next}, Reads expression state tree next →
      next.rest.length < state.rest.length)
  {block otherBlock : List TokenKind → Rule Block}
  (keepsBlock : ∀ closers state,
    cut.within.Keeps (block closers) (otherBlock closers) state)
  (unprolonged : cut.short = false → headKind cut.behind ≠ .semicolon)

include keeps takes keepsBlock unprolonged

omit unprolonged in
/--
A statement of each form that has a rule of its own is kept.  The
cases are the forms.
-/
theorem keeps_proper
    {form : StatementForm}
    {rule : Rule Stmt}
    (keepsRoutine : form = .routine →
      cut.Keeps (routine block) (routine otherBlock) left)
    (there : form.Ahead left)
    (isRule : form.proper? expression block = some rule) :
    ∃ further, form.proper? other otherBlock = some further ∧
      cut.Keeps rule further left := by
  have ahead {kind : TokenKind} (here : left.kind = kind)
      (isToken : kind ≠ .endOfFile) : left.rest ≠ [] :=
    State.ahead_of_kind here isToken
  have aheadOfEither
      {first second : TokenKind}
      (either : left.kind = first ∨ left.kind = second)
      (isToken : first ≠ .endOfFile)
      (isTokenToo : second ≠ .endOfFile) :
      left.rest ≠ [] :=
    either.elim (fun here => ahead here isToken) fun here =>
      ahead here isTokenToo
  cases form with
  | empty | strayCloser => cases isRule
  | conditional =>
      cases isRule
      exact ⟨_, rfl, keeps_conditional keeps keepsBlock
        (ahead there (by decide))⟩
  | whileLoop =>
      cases isRule
      exact ⟨_, rfl, keeps_whileLoop keeps keepsBlock there⟩
  | forLoop =>
      cases isRule
      exact ⟨_, rfl, keeps_forLoop keeps keepsBlock (ahead there (by decide))⟩
  | routine =>
      cases isRule
      exact ⟨_, rfl, keepsRoutine rfl⟩
  | declaration =>
      cases isRule
      exact ⟨_, rfl, keeps_declaration keeps
        (aheadOfEither there (by decide) (by decide))⟩
  | result =>
      cases isRule
      exact ⟨_, rfl, keeps_resultStatement keeps takes
        (ahead there (by decide))⟩
  | control =>
      cases isRule
      exact ⟨_, rfl, keeps_loopControl
        (aheadOfEither there (by decide) (by decide))⟩
  | print =>
      cases isRule
      exact ⟨_, rfl, keeps_printStatement keeps takes
        (aheadOfEither there (by decide) (by decide))⟩
  | expression =>
      cases isRule
      exact ⟨_, rfl, keeps_expressionStatement keeps takes⟩

/--
A statement of any form is kept, with the semicolon that ends it or without.
-/
theorem keeps_statementOfForm
    {form : StatementForm}
    (keepsRoutine : form = .routine →
      cut.Keeps (routine block) (routine otherBlock) left)
    (there : form.Ahead left) :
    cut.Keeps (statementOfForm expression block form)
      (statementOfForm other otherBlock form)
      left := by
  cases isRule : form.proper? expression block with
  | none =>
      cases form with
      | empty =>
          exact keeps_advance_bind (State.ahead_of_kind there (by decide))
            (keeps_pure none)
      | strayCloser =>
          apply keeps_of_never
          intro value next reads
          rw [statementOfForm, strayCloser, reads_ask_bind] at reads
          obtain ⟨_, _, reported, -⟩ := reads_bind.mp reads
          exact not_reads_reportHere reported
      | _ => cases isRule
  | some rule =>
      obtain ⟨further, isFurther, kept⟩ :=
        keeps_proper keeps takes keepsBlock keepsRoutine there isRule
      rw [form.rule_of_proper isRule, form.rule_of_proper isFurther]
      split
      · exact keeps_terminated unprolonged kept
      · exact kept.map some

/--
One statement is kept if its reader takes a token and if a
routine is kept where one opens.
-/
theorem keeps_statementOf
    (keepsRoutine :
      opensRoutine left.rest = true →
      cut.Keeps (routine block) (routine otherBlock) left)
    (taken :
      ∀ value next, Reads (statementOf expression block) left value next →
        next.rest.length < left.rest.length) :
    cut.Keeps (statementOf expression block)
      (statementOf other otherBlock) left := by
  have further :
      cut.Keeps (ask StatementForm.of >>= statementOfForm expression block)
        (ask StatementForm.of >>= statementOfForm other otherBlock) left := by
    refine keeps_peek_bind (fun _ _ => form_state) ?_ ?_
    · intro value next reads
      exact taken value
        next (reads_recovered_bind.mpr (reads_ask_bind.mpr reads))
    · have there := StatementForm.ahead_of left
      refine keeps_statementOfForm keeps takes keepsBlock unprolonged
        (fun isRoutine => ?_) there
      rw [isRoutine] at there
      exact keepsRoutine there
  intro value next front reads shape reached clear
  obtain ⟨later, shapeNext, kept⟩ :=
    further (reads_recovered_bind.mp reads) shape reached clear
  exact ⟨later, shapeNext, reads_recovered_bind.mpr kept⟩

end

theorem keeps_recovered_bind
    {α : Type}
    {next further : Unit → Rule α}
    (later : cut.Keeps (next ()) (further ()) left) :
    cut.Keeps (recovered >>= next) (recovered >>= further) left := by
  intro value last front reads shape reached clear
  obtain ⟨end_, shapeLast, kept⟩ :=
    later (reads_recovered_bind.mp reads) shape reached clear
  exact ⟨end_, shapeLast, reads_recovered_bind.mpr kept⟩

/-- The loop ends with the tokens in front, or goes another round with them. -/
theorem keeps_sequence
    {closes : State → Bool}
    {item other : Rule (Option Stmt)}
    (ended :
      cut.short = false → cut.behind = [] ∨
      ∀ state, closes (cut.state state []) = true)
    (same :
      ∀ {state token front}, state.rest = token :: (front ++ cut.dropped) →
        EndsClear (token :: front) → closes (cut.state state (token :: front)) =
          closes state)
    (takes :
      ∀ {state made? next}, Reads item state made? next →
        next.rest.length < state.rest.length)
    (keeps : ∀ state, closes state = false → cut.Keeps item other state) :
    cut.Keeps (sequence closes item) (sequence closes other) left := by
  intro values next front reads shape reached clear
  induction bound : left.rest.length using Nat.strongRecOn
    generalizing left values front with
  | ind length hypothesis =>
      rcases reads.of_sequence with
        ⟨closed, rfl, rfl⟩ | ⟨first, middle, others, opened, once, again, rfl⟩
      · refine ⟨front, shape, reads_sequence_of_closed
          (calm_state reads.calm front) ?_⟩
        cases front with
        | nil =>
            rcases ended (reached.full shape (List.suffix_refl _))
              with bare | isClosed
            · exact .inl bare
            · exact .inr (isClosed _)
        | cons token front =>
            rw [same shape clear]
            rcases closed with ended | isClosed
            · rw [shape] at ended
              cases ended
            · exact .inr isClosed
      · have taken := takes once
        rw [State.forward_of_taken taken] at again
        have reachedMiddle := reached.of_suffix (suffix_of_reads again)
        obtain ⟨token, front, rfl⟩ :=
          exists_cons_of_taken shape reachedMiddle taken
        obtain ⟨later, shapeMiddle, kept⟩ :=
          keeps _ opened once shape reachedMiddle clear
        have laterSuffix : later <:+ token :: front := by
          have within := suffix_of_reads once
          rw [shapeMiddle, shape] at within
          exact suffix_of_append within
        obtain ⟨end_, shapeNext, keptLater⟩ :=
          hypothesis middle.rest.length (bound ▸ taken) again shapeMiddle
            (clear.of_suffix laterSuffix) rfl
        refine ⟨end_, shapeNext, reads_sequence_of_round ?_ kept ?_ keptLater⟩
        · rw [same shape clear, opened]
        · rw [shapeMiddle, shape] at taken
          change (later ++ cut.behind).length <
            (token :: front ++ cut.behind).length
          rw [List.length_append] at taken ⊢
          rw [List.length_append]
          rw [List.length_append] at taken
          omega

/--
With other tokens ahead the state starts at the same offset, also where
nothing is left before the seam, if nothing stands behind it.
-/
theorem start_state_of_bare
    {front : List Token}
    (bare : front = [] → cut.behind = [])
    (shape : left.rest = front ++ cut.dropped) :
    (cut.state left front).start = left.start := by
  cases front with
  | cons token front => exact start_state shape
  | nil =>
      have ended : (cut.state left []).current.span =
          spanAhead left.stop cut.dropped := by
        rw [State.span_current]
        change spanAhead _ cut.behind = _
        rw [bare rfl]
        rfl
      rw [State.start, State.start, ended, State.span_current, shape]
      rfl

/-- A block that ends at the seam begins where nothing stands behind. -/
theorem keeps_blockOf
    {item other : Rule (Option Stmt)}
    (bare : cut.short = false → cut.behind = [])
    (takes :
      ∀ {state made? next}, Reads item state made? next →
        next.rest.length < state.rest.length)
    (keeps : ∀ state, cut.Keeps item other state)
    (closers : List TokenKind) :
    cut.Keeps (blockOf item closers) (blockOf other closers) left := by
  refine keeps_askAtSeam_bind (fun front shape full => ?_) ?_
  · exact start_state_of_bare (fun ended => bare (full ended)) shape
  · refine (keeps_sequence (fun full => .inl (bare full))
      (fun shape clear => endsBlock_state shape clear closers) takes
      fun state _ => keeps state).bind fun statements _ _ => ?_
    exact keeps_recovered_bind (keeps_spanFrom_bind fun _ => keeps_pure _)

theorem keeps_blockTooDeep (other : Rule Block) :
    cut.Keeps blockTooDeep other left := by
  apply keeps_of_never
  intro body next reads
  obtain ⟨_, -, impossible⟩ := sound_blockTooDeep _ _ _ reads
  exact impossible

theorem takes_expression
    {levels : Nat}
    {state next : State}
    {tree : Expr}
    (reads : Reads (expression levels) state tree next) :
    next.rest.length < state.rest.length := by
  obtain ⟨tokens, shape, phrased⟩ := sound_expression levels _ _ _ reads
  exact length_lt_of_taken shape (begins_expression levels _ _ phrased).1

/-- A statement that is read takes at least one token. -/
theorem takes_statement
    {levels : Nat}
    {state next : State}
    {made? : Option Stmt}
    (reads : Reads (statement levels) state made? next) :
    next.rest.length < state.rest.length := by
  obtain ⟨tokens, shape, phrased | ⟨-, phrased⟩⟩ := sound_statement levels reads
  · refine length_lt_of_taken shape ?_
    cases phrased with
    | semicolon => exact List.cons_ne_nil _ _
    | statement only => exact nonempty_statement levels _ _ only
  · refine length_lt_of_taken shape ?_
    cases phrased with
    | semicolon => exact List.cons_ne_nil _ _
    | statement only => exact nonempty_routineForm only

/-- Whether what stands behind the seam leaves a statement as it is. -/
def LeavesStatement
    (cut : Curtailment)
    (state : State) :
    Prop :=
  cut.short = false →
    cut.behind = [] ∨ headKind cut.behind ≠ .semicolon ∧
    opensRoutine state.rest = false

/--
A statement does not depend on the tokens
behind it, and it may be nested deeper.
-/
theorem keeps_statement
    {levels more : Nat}
    (le : levels ≤ more)
    (leaves : cut.LeavesStatement left) :
    cut.Keeps (statement levels) (statement more) left := by
  have unprolonged (full : cut.short = false) :
      headKind cut.behind ≠ .semicolon := by
    rcases leaves full with bare | ⟨other, -⟩
    · rw [bare]
      exact TokenKind.noConfusion
    · exact other
  have bare (opens : opensRoutine left.rest = true) (full : cut.short = false) :
      cut.behind = [] := by
    refine (leaves full).resolve_right fun other => ?_
    rw [opens] at other
    cases other.2
  induction levels generalizing more left cut with
  | zero =>
      rw [statement_eq 0, statement_eq more]
      refine keeps_statementOf (fun _ => keeps_expression le) takes_expression
        (fun _ _ => keeps_blockTooDeep _) unprolonged ?_
        fun _ _ reads => takes_statement (statement_eq 0 ▸ reads)
      exact fun opens =>
        keeps_routine (fun _ _ => keeps_blockTooDeep _) (bare opens) opens
  | succ levels hypothesis =>
      obtain ⟨more, rfl⟩ :=
        Nat.exists_eq_add_of_le' (Nat.le_trans (Nat.succ_pos levels) le)
      have inside
          (cut : Curtailment)
          (bare : cut.short = false → cut.behind = [])
          (closers : List TokenKind)
          (state : State) :
          cut.Keeps (blockOf (statement levels) closers)
            (blockOf (statement more) closers) state := by
        refine keeps_blockOf bare takes_statement (fun _ => ?_) closers
        refine hypothesis (Nat.le_of_succ_le_succ le)
          (fun full => .inl (bare full)) ?_ fun _ full => bare full
        intro full
        rw [bare full]
        exact TokenKind.noConfusion
      refine keeps_statementOf (fun _ => keeps_expression le) takes_expression
        ?_ unprolonged ?_ ?_
      · exact inside cut.within fun full => Bool.noConfusion full
      · exact fun opens =>
          keeps_routine (inside cut (bare opens)) (bare opens) opens
      · exact fun _ _ reads =>
          takes_statement (statement_eq (levels + 1) ▸ reads)

/-- Blocks are kept, with as many levels left or with more. -/
theorem keeps_blocks
    {levels more : Nat}
    (le : levels ≤ more)
    (bare : cut.short = false → cut.behind = [])
    (closers : List TokenKind) :
    cut.Keeps (blocks levels closers) (blocks more closers) left := by
  cases levels with
  | zero => exact keeps_blockTooDeep _
  | succ levels =>
      obtain ⟨more, rfl⟩ :=
        Nat.exists_eq_add_of_le' (Nat.le_trans (Nat.succ_pos levels) le)
      apply keeps_blockOf bare takes_statement
      exact fun _ => keeps_statement (Nat.le_of_succ_le_succ le) fun full =>
        .inl (bare full)

/--
Before one of its closing words, a block has
the same statements whatever word it was.
-/
theorem keeps_lines
    {levels more : Nat}
    (le : levels ≤ more)
    {closers : List TokenKind}
    (words : ∀ kind ∈ closers, kind.isCloser = true)
    (closed : headKind cut.behind ∈ closers) :
    cut.Keeps (sequence (endsBlock closers) (statement levels))
      (sequence (endsBlock closers) (statement more)) left := by
  refine keeps_sequence (fun _ => .inr fun state => ?_)
    (fun shape clear => endsBlock_state shape clear closers) takes_statement
      fun state opened => ?_
  · rw [endsBlock, kind_state_nil, List.contains_iff_mem.mpr closed,
      Bool.true_or]
  · rw [endsBlock, Bool.or_eq_false_iff] at opened
    refine keeps_statement le fun _ => .inr ⟨fun isSemicolon => ?_, opened.2⟩
    have isWord := words _ closed
    rw [isSemicolon] at isWord
    cases isWord

end Clipper.Grammar.Curtailment
