import Clipper.Proofs.Grammar.Complete
import Clipper.Proofs.Grammar.RoutinePlacement
import Mathlib.Algebra.BigOperators.Group.List.Basic
import Mathlib.Tactic.Linarith
import Mathlib.Tactic.LinearCombination
import Mathlib.Tactic.Ring

/-!
# What becomes of closing words

Every closing word of a list of tokens either closes a statement of the program
or is reported to be out of place, and every statement that no word closes is
reported too.  A tariff puts prices on the compound statements and on the
closing words that they take; under every tariff the tokens ahead and the
reports so far keep their balance with the statements that were read.  Closing
words of routines may be missing without a report.

A balance is a sum of the tokens ahead, at their prices, and of the reports so
far, at their charges.  Each rule changes it by the weights of the statements
that it reads, which is a statement for each form, as the word that opens the
form is known.  The prices are variables, so a single proof serves all five
laws: each law is the balance under the tariff that prices the words of one
form.
-/

namespace Clipper.Grammar

open Rule

/--
Prices of the compound statements, and of a
block for the other case of a conditional.
-/
structure Tariff where
  conditional : Nat
  alternative : Nat
  whileLoop : Nat
  forLoop : Nat
  routine : Nat

namespace Tariff

variable (tariff : Tariff)

/--
The price of a closing word; an `ELSEIF`
stands for an `ELSE` and a conditional in it.
-/
def price : TokenKind → Nat
  | .endIf => tariff.conditional
  | .elseWord => tariff.alternative
  | .elseIf => tariff.conditional + tariff.alternative
  | .endDo => tariff.whileLoop
  | .next => tariff.forLoop
  | .endFunction | .endProcedure => tariff.routine
  | _ => 0

/-- The price of a word whose absence is reported. -/
def debt : TokenKind → Nat
  | .endIf => tariff.conditional
  | .endDo => tariff.whileLoop
  | .next => tariff.forLoop
  | _ => 0

/--
What a report adds to the balance: a word
that is out of place, or the lack of one.
-/
def charge : Cause → ℤ
  | .unexpected found => tariff.price found
  | .unclosed closer _ => -tariff.debt closer
  | _ => 0

/-- The price of a statement without what is inside it. -/
def weight : Stmt → Nat
  | .conditional _ _ none _ => tariff.conditional
  | .conditional _ _ (some _) _ => tariff.conditional + tariff.alternative
  | .whileLoop .. => tariff.whileLoop
  | .forLoop .. => tariff.forLoop
  | .routine .. => tariff.routine
  | _ => 0

/-- What the tokens ahead and the reports so far are worth. -/
def balance (state : State) : ℤ :=
  (state.rest.map (fun token => (tariff.price token.kind : ℤ))).sum +
    (state.reports.map (fun report => tariff.charge report.cause)).sum

/--
From one state to another the balance goes down by an amount, but for the price
of some routines that were not closed.
-/
def Settles
    (before : State)
    (amount : Nat)
    (after : State) :
    Prop :=
  ∃ unclosed : Nat,
    tariff.balance before + unclosed * tariff.routine =
      amount + tariff.balance after

variable {tariff}

theorem price_of_not_isCloser
    {kind : TokenKind}
    (inner : kind.isCloser = false) :
    tariff.price kind = 0 := by
  cases kind with
  | endIf | elseWord | elseIf | endDo | next | endFunction | endProcedure =>
      cases inner
  | _ => rfl

theorem debt_of_not_isCloser
    {kind : TokenKind}
    (inner : kind.isCloser = false) :
    tariff.debt kind = 0 := by
  cases kind with
  | endIf | endDo | next => cases inner
  | _ => rfl

/-- A report that concerns no closing word costs nothing. -/
theorem charge_of_unconcerned
    {cause : Cause}
    (unconcerned : cause.concerns TokenKind.isCloser = false) :
    tariff.charge cause = 0 := by
  cases cause with
  | unexpected found =>
      rw [charge, price_of_not_isCloser unconcerned, Nat.cast_zero]
  | unclosed closer opener =>
      rw [charge, debt_of_not_isCloser unconcerned, Nat.cast_zero, neg_zero]
  | _ => rfl

/-! ## The balance and moves -/

/-- To take a token takes its price out of the balance. -/
theorem balance_advance
    (tariff : Tariff)
    (state : State) :
    tariff.balance state = tariff.price state.kind +
      tariff.balance state.advance := by
  cases shape : state.rest with
  | nil =>
      have inner : state.kind.isCloser = false := by
        rw [State.kind, State.current, shape]; rfl
      rw [State.advance_of_ended shape, price_of_not_isCloser inner,
        Nat.cast_zero, zero_add]
  | cons token rest =>
      have same : state.advance.reports = state.reports := by
        rw [State.advance, shape]
      rw [balance, balance, State.rest_advance shape, same,
        State.kind_of_rest shape, shape, List.map_cons, List.sum_cons]
      ring

theorem balance_add
    (state : State)
    (report : Report) :
    tariff.balance (state.add report) =
      tariff.charge report.cause + tariff.balance state := by
  rw [balance, balance, State.add, List.map_cons, List.sum_cons]
  dsimp only
  ring

/--
Skipped tokens cost nothing: closing words are boundaries, so none is skipped.
-/
theorem sum_skipToBoundary
    (reached : Nat)
    (tokens : List Token) :
    ((skipToBoundary reached tokens).2.map
        (fun token => (tariff.price token.kind : ℤ))).sum =
      (tokens.map (fun token => (tariff.price token.kind : ℤ))).sum := by
  induction tokens generalizing reached with
  | nil => rfl
  | cons token rest hypothesis =>
      unfold skipToBoundary
      split
      · rfl
      · next inside =>
          have inner : token.kind.isCloser = false := by
            cases kind : token.kind with
            | endIf | elseWord | elseIf | endDo | next | endFunction
            | endProcedure =>
                simp [kind, isBoundary] at inside
            | _ => rfl
          rw [hypothesis, List.map_cons, List.sum_cons,
            price_of_not_isCloser inner, Nat.cast_zero, zero_add]

theorem balance_skipped (state : State) :
    tariff.balance state.skipped = tariff.balance state := by
  rw [balance, balance, State.skipped, sum_skipToBoundary]

theorem balance_advance_of_inner
    {state : State}
    (inner : state.kind.isCloser = false) :
    tariff.balance state.advance = tariff.balance state := by
  rw [balance_advance tariff state, price_of_not_isCloser inner,
    Nat.cast_zero, zero_add]

theorem balance_recover (state : State) :
    tariff.balance state.recover = tariff.balance state := by
  rw [State.recover_eq]
  split
  · next isSemicolon =>
      rw [balance_advance_of_inner (by rw [isSemicolon]; rfl), balance_skipped]
  · exact balance_skipped state

/-- What leaves all closing words alone keeps the balance. -/
theorem balance_of_spares
    {before after : State}
    (spares : before.Spares TokenKind.isCloser after)
    (whole : after.cutShort = false) :
    tariff.balance after = tariff.balance before := by
  have kept (first second : State)
      (move : State.SparingMove TokenKind.isCloser first second)
      (wholeHere : second.cutShort = false)
      (same : tariff.balance first = tariff.balance before) :
      tariff.balance second = tariff.balance before := by
    rw [← same]
    cases move with
    | advance inner => exact balance_advance_of_inner inner
    | report report unconcerned =>
        rw [balance_add, charge_of_unconcerned unconcerned, zero_add]
    | fail cause unconcerned =>
        cases calm : first.recovering with
        | true => rw [State.fail_of_recovering calm]
        | false =>
            rw [State.fail_of_calm calm, balance_recover, State.addHere,
              balance_add, charge_of_unconcerned unconcerned, zero_add]
    | cutOff => cases wholeHere
    | recovered => rfl
  exact spares.keeps kept whole rfl

/-! ## Settling -/

namespace Settles

variable {first second third : State} {amount other : Nat}

theorem of_eq
    (settles : tariff.Settles first amount second)
    (same : amount = other) :
    tariff.Settles first other second :=
  same ▸ settles

theorem trans
    (earlier : tariff.Settles first amount second)
    (later : tariff.Settles second other third) :
    tariff.Settles first (amount + other) third := by
  obtain ⟨unclosed, once⟩ := earlier
  obtain ⟨furtherUnclosed, again⟩ := later
  refine ⟨unclosed + furtherUnclosed, ?_⟩
  push_cast
  linear_combination once + again

end Settles

theorem settles_of_balance
    {before after : State}
    {amount : Nat}
    (balance : tariff.balance before = amount + tariff.balance after) :
    tariff.Settles before amount after := by
  refine ⟨0, ?_⟩
  rw [Nat.cast_zero, zero_mul, add_zero, balance]

theorem settles_refl (state : State) : tariff.Settles state 0 state :=
  settles_of_balance (zero_add _).symm

/-- A token that is taken is paid for. -/
theorem settles_taken
    {kind : TokenKind}
    {state : State}
    (here : state.kind = kind) :
    tariff.Settles state (tariff.price kind) state.advance := by
  rw [← here]
  exact settles_of_balance (balance_advance tariff state)

/-- What leaves all closing words alone has nothing to settle. -/
theorem settles_of_spares
    {before after : State}
    (spares : before.Spares TokenKind.isCloser after)
    (whole : after.cutShort = false) :
    tariff.Settles before 0 after := by
  refine settles_of_balance ?_
  rw [balance_of_spares spares whole, Nat.cast_zero, zero_add]

/-! ## What is due for conditionals -/

/-- What is due for a block for the other case of a conditional. -/
def negativeDue
    (tariff : Tariff)
    (negative? : Option Block) :
    Nat :=
  negative?.elim 0 (fun body => tariff.alternative + body.total tariff.weight)

/--
The weight of a conditional is that of its own words and that of the
statements in its blocks.
-/
theorem total_conditional
    (condition : Expr)
    (positive : Block)
    (negative? : Option Block)
    (span : Span) :
    (Stmt.conditional condition positive negative? span).total tariff.weight =
      tariff.conditional + positive.total tariff.weight +
        tariff.negativeDue negative? := by
  cases negative? with
  | none => rfl
  | some body =>
      rw [Stmt.total_conditional, weight, negativeDue, Option.elim_some,
        Option.elim_some]
      omega

/--
Each further arm is due its conditional, and its place in the block before.
-/
theorem negativeDue_foldr
    (reached : Nat)
    (arms : List Arm)
    (last? : Option Block) :
    tariff.negativeDue (arms.foldr (Arm.nest reached) last?) =
      (arms.map (fun arm =>
        tariff.conditional + tariff.alternative +
          arm.block.total tariff.weight)).sum +
        tariff.negativeDue last? := by
  induction arms with
  | nil => rw [List.foldr_nil, List.map_nil, List.sum_nil, Nat.zero_add]
  | cons arm rest hypothesis =>
      rw [List.foldr_cons, List.map_cons, List.sum_cons]
      change tariff.alternative +
        ((Arm.conditional reached arm _).total tariff.weight + 0) = _
      rw [Arm.conditional, total_conditional, hypothesis]
      omega

end Tariff

/-! ## Rules that settle -/

variable {tariff : Tariff}

open Tariff (settles_of_balance settles_taken settles_of_spares)

/-- A part of a rule that leaves all closing words alone settles nothing. -/
theorem settles_inner_bind
    {α β : Type}
    {rule : Rule α}
    {continuation : α → Rule β}
    {state next : State}
    {value : β}
    {amount : Nat}
    (inner : rule.Inner state)
    (runs : Runs (rule >>= continuation) state value next)
    (later :
      ∀ part middle, Runs rule state part middle →
        Runs (continuation part) middle value next →
        tariff.Settles middle amount next) :
    tariff.Settles state amount next := by
  obtain ⟨part, middle, first, second⟩ := runs_bind runs
  exact ((settles_of_spares (inner.of_runs first) first.whole).trans
    (later part middle first second)).of_eq (Nat.zero_add amount)

/-! ## Compound statements -/

section Compound

variable {state next : State}

/-- Where a closing word is reported to be missing, its price is settled. -/
theorem settles_unclosed
    {closer opener : TokenKind}
    (owed : tariff.debt closer = tariff.price closer)
    (runs :
      Runs (do
          if ← ask State.cutShort then pure ()
          else reportHere (.unclosed closer opener)) state () next) :
    tariff.Settles state (tariff.price closer) next := by
  have reported := runs_ask_bind runs
  split at reported
  · next cut =>
      have whole := reported.reaches.whole reported.whole
      rw [cut] at whole
      cases whole
  · obtain ⟨-, rfl⟩ := Prod.mk.inj reported.run
    refine settles_of_balance ?_
    rw [State.addHere, Tariff.balance_add, Tariff.charge, owed]
    ring

/-- A closing word is taken, or its absence is reported. -/
theorem settles_close
    {closer opener : TokenKind}
    (owed : tariff.debt closer = tariff.price closer)
    (runs : Runs (close closer opener) state () next) :
    tariff.Settles state (tariff.price closer) next := by
  obtain ⟨here, taken⟩ | ⟨-, missing⟩ := runs_eat_ite runs
  · obtain ⟨-, rfl⟩ := runs_pure taken
    exact settles_taken here
  · exact settles_unclosed owed missing

theorem settles_closeFor
    {counter : Identifier}
    (runs : Runs (closeFor counter) state () next) :
    tariff.Settles state tariff.forLoop next := by
  obtain ⟨here, taken⟩ | ⟨-, missing⟩ := runs_eat_ite runs
  · exact (settles_taken here).trans
      (settles_of_spares
        ((inner_counterAgain counter).of_runs taken) taken.whole)
  · exact settles_unclosed rfl missing

/-- At most one closing word of a routine is taken. -/
theorem settles_closeRoutine (runs : Runs closeRoutine state () next) :
    tariff.Settles state tariff.routine next := by
  obtain ⟨here, taken⟩ | ⟨-, absent⟩ := runs_eat_ite runs
  · obtain ⟨-, rfl⟩ := runs_pure taken
    exact settles_taken here
  · obtain ⟨eaten, middle, ate, done⟩ := runs_bind absent
    obtain ⟨-, rfl⟩ := runs_pure done
    obtain ⟨here, -, rfl⟩ | ⟨-, -, rfl⟩ := runs_eat ate
    · exact settles_taken here
    · exact ⟨1, by rw [Nat.cast_one, one_mul, add_comm]⟩

variable {expression : Rule Expr} {block : List TokenKind → Rule Block}
variable (innerExpression : ∀ state : State, expression.Inner state)
variable
  (blockSettles :
    ∀ closers state body next, Runs (block closers) state body next →
      tariff.Settles state (body.total tariff.weight) next)

include innerExpression blockSettles

/--
The condition and block of an arm change the balance by what is in the block.
-/
theorem settles_arm
    {start : Nat}
    {made : Arm}
    (runs : Runs (arm expression block start) state made next) :
    tariff.Settles state (made.block.total tariff.weight) next := by
  refine settles_inner_bind (innerExpression state) runs
    fun condition _ _ runs => ?_
  refine settles_inner_bind (spares_eat rfl) runs fun _ _ _ runs => ?_
  obtain ⟨body, atEnd, bodyRuns, runs⟩ := runs_bind runs
  obtain ⟨rfl, rfl⟩ := runs_pure runs
  exact blockSettles _ _ _ _ bodyRuns

omit innerExpression blockSettles in
/-- A loop settles what its rounds settle. -/
theorem settles_many
    {α : Type}
    {open? : Token → Option (Rule α)}
    {worth : α → Nat}
    (round :
      ∀ state token rule value next, state.kind = token.kind →
        open? token = some rule →
        Runs rule state.advance value next →
        tariff.Settles state (worth value) next)
    {values : List α}
    (runs : Runs (many open?) state values next) :
    tariff.Settles state (values.map worth).sum next := by
  obtain ⟨rfl, rfl, whole⟩ := runs_iff.mp runs
  clear runs
  change (runMany open? state).2.cutShort = false at whole
  change tariff.Settles state ((runMany open? state).1.map worth).sum
    (runMany open? state).2
  fun_induction runMany open? state with
  | case1 | case2 | case3 => exact Tariff.settles_refl _
  | case4 state token rest ahead calm rule opened first shorter others
      hypothesis =>
      have wholeFirst := (runMany_reaches open? first.2).whole whole
      exact (round state token rule first.1 first.2
        (State.kind_of_rest ahead) opened
        (runs_of_whole wholeFirst)).trans (hypothesis whole)

/--
A conditional settles its account: it has taken `ENDIF` or reported that it is
missing, and each `ELSEIF` in it makes one conditional more.
-/
theorem settles_conditional
    {made : Stmt}
    (word : state.kind = .ifWord)
    (runs : Runs (conditional expression block) state made next) :
    tariff.Settles state (made.total tariff.weight) next := by
  refine settles_inner_bind (spares_advance (by rw [word]; rfl)) runs
    fun token _ _ runs => ?_
  obtain ⟨first, atOthers, firstRuns, runs⟩ := runs_bind runs
  obtain ⟨others, atLast, othersRuns, runs⟩ := runs_bind runs
  obtain ⟨last?, atClose, lastRuns, runs⟩ := runs_bind runs
  obtain ⟨_, atEnd, closeRuns, runs⟩ := runs_bind (runs_ask_bind runs)
  obtain ⟨rfl, rfl⟩ := runs_pure (runs_ask_bind runs)
  have firstSettles := settles_arm innerExpression blockSettles firstRuns
  have othersSettle :
      tariff.Settles atOthers
        (others.map (fun arm =>
          tariff.conditional + tariff.alternative +
            arm.block.total tariff.weight)).sum
        atLast := by
    refine settles_many
      (fun state token rule arm next here opened armRuns => ?_) othersRuns
    rw [furtherArm?] at opened
    split at opened
    · next isElseIf =>
        cases opened
        rw [isElseIf] at here
        exact (settles_taken here).trans
          (settles_arm innerExpression blockSettles armRuns)
    · cases opened
  have lastSettles :
      tariff.Settles atLast (tariff.negativeDue last?) atClose := by
    obtain ⟨here, mapped⟩ | ⟨-, absent⟩ := runs_eat_ite lastRuns
    · obtain ⟨body, bodyRuns, rfl⟩ := runs_map mapped
      exact (settles_taken here).trans (blockSettles _ _ _ _ bodyRuns)
    · obtain ⟨rfl, rfl⟩ := runs_pure absent
      exact Tariff.settles_refl _
  have closeSettles : tariff.Settles atClose tariff.conditional _ :=
    settles_close rfl closeRuns
  refine (((firstSettles.trans othersSettle).trans lastSettles).trans
    closeSettles).of_eq ?_
  rw [Tariff.total_conditional, Tariff.negativeDue_foldr]
  omega

/--
A loop with a condition settles its account: it has taken `ENDDO` or
reported that it is missing.
-/
theorem settles_whileLoop
    {made : Stmt}
    (words : state.kind = .whileWord ∨ state.kind = .doWord ∧
      state.secondKind = .whileWord)
    (runs : Runs (whileLoop expression block) state made next) :
    tariff.Settles state (made.total tariff.weight) next := by
  refine settles_inner_bind (spares_eat rfl) (runs_ask_bind runs)
    fun _ atWord ate runs => ?_
  have free : isFree TokenKind.isCloser atWord.kind = true := by
    rw [ate.next_eq, kind_afterDo words]
    rfl
  refine settles_inner_bind (spares_advance free) runs fun _ _ _ runs => ?_
  refine settles_inner_bind (innerExpression _) runs fun condition _ _ runs =>
    ?_
  refine settles_inner_bind inner_trailingDo runs fun _ _ _ runs => ?_
  obtain ⟨body, atClose, bodyRuns, runs⟩ := runs_bind runs
  obtain ⟨_, atEnd, closeRuns, runs⟩ := runs_bind runs
  obtain ⟨rfl, rfl⟩ := runs_pure (runs_ask_bind runs)
  exact ((blockSettles _ _ _ _ bodyRuns).trans
    (settles_close rfl closeRuns)).of_eq
    (Nat.add_comm _ _)

/--
A counting loop settles its account: it has taken `NEXT` or
reported that it is missing.
-/
theorem settles_forLoop
    {made : Stmt}
    (word : state.kind = .forWord)
    (runs : Runs (forLoop expression block) state made next) :
    tariff.Settles state (made.total tariff.weight) next := by
  refine settles_inner_bind (spares_advance (by rw [word]; rfl)) runs
    fun _ _ _ runs => ?_
  refine settles_inner_bind (spares_expectName rfl _) runs
    fun counter _ _ runs => ?_
  refine settles_inner_bind inner_counterSign runs fun _ _ _ runs => ?_
  refine settles_inner_bind (innerExpression _) runs fun first _ _ runs => ?_
  refine settles_inner_bind (spares_expect rfl _) runs fun _ _ _ runs => ?_
  refine settles_inner_bind (innerExpression _) runs fun last _ _ runs => ?_
  refine settles_inner_bind (spares_optionalAfter rfl innerExpression) runs
    fun step? _ _ runs => ?_
  obtain ⟨body, atClose, bodyRuns, runs⟩ := runs_bind runs
  obtain ⟨_, atEnd, closeRuns, runs⟩ := runs_bind runs
  obtain ⟨rfl, rfl⟩ := runs_pure (runs_ask_bind runs)
  exact ((blockSettles _ _ _ _ bodyRuns).trans
    (settles_closeFor closeRuns)).of_eq
    (Nat.add_comm _ _)

omit innerExpression in
/--
A routine settles its account.  Its closing word is optional, so it costs
nothing where it is missing.
-/
theorem settles_routine
    {made : Stmt}
    (opens : opensRoutine state.rest = true)
    (runs : Runs (routine block) state made next) :
    tariff.Settles state (made.total tariff.weight) next := by
  obtain ⟨isStatic, opened, ate, runs⟩ := runs_bind (runs_ask_bind runs)
  have afterStatic : tariff.Settles state 0 opened := by
    obtain ⟨statics, -, rfl⟩ | ⟨-, -, rfl⟩ := runs_eat ate
    · exact settles_taken statics
    · exact Tariff.settles_refl _
  have afterWord : tariff.Settles opened 0 opened.advance := by
    have isWord := isRoutineWord_afterStatic opens
    rw [ate.run] at isWord
    have word := routineWord_of_isRoutineWord isWord
    split at word
    · exact settles_taken word
    · exact settles_taken word
  refine ((afterStatic.trans afterWord).trans ?_).of_eq (Nat.zero_add _)
  have runs := runs_advance_bind runs
  refine settles_inner_bind (spares_expectName rfl _) runs fun name _ _ runs =>
    ?_
  refine settles_inner_bind inner_parameters runs fun parameters _ _ runs => ?_
  obtain ⟨body, atClose, bodyRuns, runs⟩ := runs_bind runs
  obtain ⟨_, atEnd, closeRuns, runs⟩ := runs_bind runs
  obtain ⟨rfl, rfl⟩ := runs_pure (runs_ask_bind runs)
  exact ((blockSettles _ _ _ _ bodyRuns).trans
    (settles_closeRoutine closeRuns)).of_eq
    (Nat.add_comm _ _)

omit innerExpression blockSettles in
/-- A closing word that closes nothing is paid for by its report. -/
theorem settles_strayCloser
    {made? : Option Stmt}
    (runs : Runs strayCloser state made? next) :
    tariff.Settles state 0 next ∧ made? = none := by
  obtain ⟨rfl, rfl⟩ := Prod.mk.inj runs.run
  refine ⟨settles_of_balance ?_, rfl⟩
  have reported := tariff.balance_add state
      ⟨.unexpected state.kind, state.current.span⟩
  have taken := tariff.balance_advance (state.addHere (.unexpected state.kind))
  rw [Nat.cast_zero, zero_add]
  exact add_left_cancel (reported.symm.trans taken)

omit innerExpression blockSettles in
/--
A rule that always makes a statement settles its account as the rule for
an optional statement.
-/
theorem settles_some
    {rule : Rule Stmt}
    {made? : Option Stmt}
    (runs : Runs (some <$> rule) state made? next)
    (settles :
      ∀ made, Runs rule state made next →
        tariff.Settles state (made.total tariff.weight) next) :
    tariff.Settles state (made?.elim 0 (Stmt.total tariff.weight)) next := by
  obtain ⟨made, madeRuns, rfl⟩ := runs_map runs
  exact settles made madeRuns

omit blockSettles in
/-- A simple statement takes no closing word, and its weight is zero. -/
theorem settles_simpleForm
    {form : StatementForm}
    (simple : form.isSimple = true)
    (ahead : form.Ahead state)
    (opensNothing : opensRoutine state.rest = false)
    {made? : Option Stmt}
    (runs : Runs (statementOfForm expression block form) state made? next) :
    tariff.Settles state (made?.elim 0 (Stmt.total tariff.weight)) next := by
  have isSimple := simple_simpleForm expression block simple state trivial
  rw [← runs.value_eq] at isSimple
  have nothing : made?.elim 0 (Stmt.total tariff.weight) = 0 := by
    cases made? with
    | none => rfl
    | some made =>
        rw [Option.elim_some, Stmt.total_of_isSimple _ (isSimple made rfl)]
        have simpleMade := isSimple made rfl
        cases made with
        | conditional | whileLoop | forLoop | routine => cases simpleMade
        | _ => rfl
  rw [nothing]
  exact settles_of_spares
    ((inner_simpleForm innerExpression simple ahead opensNothing).of_runs runs)
      runs.whole

/--
Every form of statement settles its account.  The cases are the forms, which
are known by the first tokens.
-/
theorem settles_statementOfForm
    {made? : Option Stmt}
    (runs :
      Runs (statementOfForm expression block (StatementForm.of state)) state
        made? next) :
    tariff.Settles state (made?.elim 0 (Stmt.total tariff.weight)) next := by
  have ahead := StatementForm.ahead_of state
  have opensNothing (other : StatementForm.of state ≠ .routine) :
      opensRoutine state.rest = false :=
    Bool.eq_false_iff.mpr fun opens => other (form_eq_routine opens)
  generalize StatementForm.of state = form at runs ahead opensNothing
  cases form with
  | strayCloser =>
      obtain ⟨settles, rfl⟩ := settles_strayCloser runs
      exact settles
  | conditional =>
      exact settles_some runs fun _ =>
        settles_conditional innerExpression blockSettles ahead
  | whileLoop =>
      exact settles_some runs fun _ =>
        settles_whileLoop innerExpression blockSettles ahead
  | forLoop =>
      exact settles_some runs fun _ =>
        settles_forLoop innerExpression blockSettles ahead
  | routine =>
      exact settles_some runs fun _ => settles_routine blockSettles ahead
  | empty | declaration | result | control | print | expression =>
      exact settles_simpleForm innerExpression rfl ahead
        (opensNothing (by decide)) runs

end Compound

/-! ## Loops over statements -/

/--
A statement settles what it is worth, and does not stay before a closing word.
-/
structure Rule.SettlesStatements
    (tariff : Tariff)
    (rule : Rule (Option Stmt)) :
    Prop where
  settles :
    ∀ {state made? next}, Runs rule state made? next →
      tariff.Settles state (made?.elim 0 (Stmt.total tariff.weight)) next
  moves :
    ∀ {state made? next}, Runs rule state made? next →
      state.kind.isCloser = true →
      next.rest ≠ state.rest

/-- At a closing word the form is that of a stray one. -/
theorem form_eq_strayCloser
    {state : State}
    (closer : state.kind.isCloser = true) :
    StatementForm.of state = .strayCloser := by
  rw [StatementForm.of]
  cases kind : state.kind with
  | endIf | elseWord | elseIf | endDo | next | endFunction | endProcedure => rfl
  | _ =>
      rw [kind] at closer
      cases closer

/-- A statement settles its account, given that the blocks in it do. -/
theorem settlesStatements_statementOf
    {expression : Rule Expr}
    {block : List TokenKind → Rule Block}
    (innerExpression : ∀ state : State, expression.Inner state)
    (blockSettles :
      ∀ closers state body next, Runs (block closers) state body next →
        tariff.Settles state (body.total tariff.weight) next) :
    (statementOf expression block).SettlesStatements tariff where
  settles := by
    intro state made? next runs
    have formed := runs_ask_bind (runs_recovered_bind runs)
    have settles := settles_statementOfForm innerExpression blockSettles formed
    exact settles
  moves := by
    intro state made? next runs closer same
    have formed := runs_ask_bind (runs_recovered_bind runs)
    have closerHere : ({ state with recovering := false } :
        State).kind.isCloser = true := closer
    rw [form_eq_strayCloser closerHere] at formed
    let reported := ({ state with recovering := false } : State).addHere
        (.unexpected state.kind)
    have taken : next = reported.advance := formed.next_eq
    have isToken : state.kind ≠ .endOfFile := by
      intro ended
      rw [ended] at closer
      cases closer
    have shape : reported.rest = reported.current :: reported.advance.rest :=
      State.rest_of_kind rfl isToken
    rw [← taken, same] at shape
    exact absurd (congrArg List.length shape)
      (Nat.ne_of_lt (Nat.lt_succ_self _))

/--
Several statements settle their accounts one after the other.  The induction
follows the rounds of the loop.
-/
theorem settles_sequence
    {closes : State → Bool}
    {item : Rule (Option Stmt)}
    (settlesItem : item.SettlesStatements tariff)
    {state next : State}
    {statements : List Stmt}
    (runs : Runs (sequence closes item) state statements next) :
    tariff.Settles state (Stmt.totals tariff.weight statements) next := by
  obtain ⟨rfl, rfl, whole⟩ := runs_iff.mp runs
  clear runs
  change (runSequence closes item state).2.cutShort = false at whole
  change tariff.Settles state
    (Stmt.totals tariff.weight (runSequence closes item state).1)
    (runSequence closes item state).2
  fun_induction runSequence closes item state with
  | case1 | case2 => exact Tariff.settles_refl _
  | case3 state _ _ first _ others hypothesis =>
      have wholeOthers :=
        (runSequence_reaches closes item (state.forward first.2)).whole whole
      have wholeFirst := (State.forward_reaches state first.2).whole wholeOthers
      have runs : Runs item state first.1 first.2 := runs_of_whole wholeFirst
      have forward : tariff.Settles first.2 0 (state.forward first.2) := by
        rw [State.forward]
        split
        · next same =>
            have still : first.2.rest = state.rest := eq_of_beq same
            have inner : first.2.kind.isCloser = false := by
              refine Bool.eq_false_iff.mpr fun closer => ?_
              rw [State.kind_eq_headKind, still, ← State.kind_eq_headKind]
                at closer
              exact settlesItem.moves runs closer still
            rw [← Tariff.price_of_not_isCloser inner]
            exact settles_taken rfl
        · exact Tariff.settles_refl _
      refine (((settlesItem.settles runs).trans forward).trans
        (hypothesis whole)).of_eq ?_
      rw [Stmt.totals_append, Nat.add_zero]
      cases first.1 <;> rfl

/-- A block settles the accounts of its statements. -/
theorem settles_blockOf
    {statement : Rule (Option Stmt)}
    (settlesStatement : statement.SettlesStatements tariff)
    {closers : List TokenKind}
    {state next : State}
    {body : Block}
    (runs : Runs (blockOf statement closers) state body next) :
    tariff.Settles state (body.total tariff.weight) next := by
  obtain ⟨statements, middle, read, runs⟩ := runs_bind (runs_ask_bind runs)
  obtain ⟨rfl, rfl⟩ := runs_pure (runs_ask_bind (runs_recovered_bind runs))
  have settles := settles_sequence settlesStatement read
  exact settles

/-- A statement settles its account, with any number of levels left. -/
theorem settlesStatements_statement (levels : Nat) :
    (statement levels).SettlesStatements tariff := by
  induction levels with
  | zero =>
      refine settlesStatements_statementOf (inner_expression 0)
        fun closers state body next runs => ?_
      obtain ⟨-, rfl⟩ := Prod.mk.inj runs.run
      cases runs.whole
  | succ levels hypothesis =>
      exact settlesStatements_statementOf (inner_expression (levels + 1))
        fun _ _ _ _ =>
          settles_blockOf hypothesis

/-! ## Counting closing words -/

/-- How many tokens of a kind stand before the end of the file. -/
def tokenCount
    (tokens : List Token)
    (kind : TokenKind) :
    Nat :=
  (tokens.takeWhile (·.kind != .endOfFile)).countP (·.kind == kind)

/-- How many tokens of a kind are reported to be out of place. -/
def Reading.unexpectedCount
    {α : Type}
    (reading : Reading α)
    (kind : TokenKind) :
    Nat :=
  reading.reports.countP (·.cause == .unexpected kind)

/-- Whether a cause is the lack of a closing word. -/
def Cause.lacks (word : TokenKind) : Cause → Bool
  | unclosed closer _ => closer == word
  | _ => false

/-- How many closing words of a kind are reported to be missing. -/
def Reading.missingCount
    {α : Type}
    (reading : Reading α)
    (kind : TokenKind) :
    Nat :=
  reading.reports.countP (·.cause.lacks kind)

/-- How many tokens of a kind have a place in the program. -/
def placedCount
    (tokens : List Token)
    (kind : TokenKind) :
    ℤ :=
  tokenCount tokens kind - (readProgram tokens).unexpectedCount kind

namespace Tariff

variable (tariff)

/-- The price of a closing word, as a sum over the forms of statements. -/
theorem price_eq (kind : TokenKind) :
    tariff.price kind =
      tariff.conditional *
        ((if kind = .endIf then 1 else 0) + (if kind = .elseIf then 1 else 0)) +
      tariff.alternative *
        ((if kind = .elseWord then 1 else 0) +
          (if kind = .elseIf then 1 else 0)) +
      tariff.whileLoop * (if kind = .endDo then 1 else 0) +
      tariff.forLoop * (if kind = .next then 1 else 0) +
      tariff.routine *
        ((if kind = .endFunction then 1 else 0) +
          (if kind = .endProcedure then 1 else 0)) := by
  cases kind with
  | endIf | elseWord | elseIf | endDo | next | endFunction | endProcedure =>
      simp [price]
  | _ => rfl

theorem debt_eq (kind : TokenKind) :
    tariff.debt kind =
      tariff.conditional * (if kind = .endIf then 1 else 0) +
        tariff.whileLoop * (if kind = .endDo then 1 else 0) +
        tariff.forLoop * (if kind = .next then 1 else 0) := by
  cases kind with
  | endIf | endDo | next => simp [debt]
  | _ => rfl

/--
The prices of tokens add up to the counts of the closing words, each at
the price of its form.
-/
theorem sum_price (tokens : List Token) :
    (tokens.map (fun token => (tariff.price token.kind : ℤ))).sum =
      tariff.conditional *
        (tokens.countP (·.kind == .endIf) + tokens.countP (·.kind == .elseIf)) +
      tariff.alternative *
        (tokens.countP (·.kind == .elseWord) +
          tokens.countP (·.kind == .elseIf)) +
      tariff.whileLoop * tokens.countP (·.kind == .endDo) +
      tariff.forLoop * tokens.countP (·.kind == .next) +
      tariff.routine *
        (tokens.countP (·.kind == .endFunction) +
          tokens.countP (·.kind == .endProcedure)) := by
  induction tokens with
  | nil => simp
  | cons token rest hypothesis =>
      rw [List.map_cons, List.sum_cons, hypothesis, price_eq]
      simp only [List.countP_cons, beq_iff_eq]
      push_cast
      ring

/--
The charges of reports add up to the counts of the two causes: closing words
out of place, and those that are missing.
-/
theorem sum_charge {α : Type} (reading : Reading α) :
    (reading.reports.map (fun report => tariff.charge report.cause)).sum =
      tariff.conditional *
        (reading.unexpectedCount .endIf + reading.unexpectedCount .elseIf -
          reading.missingCount .endIf) +
      tariff.alternative *
        (reading.unexpectedCount .elseWord + reading.unexpectedCount .elseIf) +
      tariff.whileLoop *
        (reading.unexpectedCount .endDo - reading.missingCount .endDo) +
      tariff.forLoop *
        (reading.unexpectedCount .next - reading.missingCount .next) +
      tariff.routine *
        (reading.unexpectedCount .endFunction +
          reading.unexpectedCount .endProcedure) := by
  simp only [Reading.missingCount, Reading.unexpectedCount]
  induction reading.reports with
  | nil => simp
  | cons report rest hypothesis =>
      rw [List.map_cons, List.sum_cons, hypothesis]
      simp only [List.countP_cons]
      cases report.cause with
      | unexpected found =>
          have same (kind : TokenKind) :
              (Cause.unexpected found == Cause.unexpected kind) =
                (found == kind) := by
            rw [Bool.eq_iff_iff, beq_iff_eq, beq_iff_eq, Cause.unexpected.injEq]
          have other (kind : TokenKind) :
              (Cause.unexpected found).lacks kind = false := rfl
          rw [charge, price_eq]
          simp only [same, other, beq_iff_eq, Bool.false_eq_true, if_false]
          push_cast
          ring
      | unclosed closer opener =>
          have other (kind : TokenKind) :
              (Cause.unclosed closer opener == Cause.unexpected kind) = false :=
                rfl
          have same (kind : TokenKind) :
              (Cause.unclosed closer opener).lacks kind = (closer == kind) :=
                rfl
          rw [charge, debt_eq]
          simp only [same, other, beq_iff_eq, Bool.false_eq_true, if_false]
          push_cast
          ring
      | _ => simp [charge, Cause.lacks]

/--
Under every tariff the statements of a program are worth its closing words.
-/
theorem totals_readProgram
    {tokens : List Token}
    (shallow : (readProgram tokens).Shallow) :
    ∃ unclosed : Nat,
      (Stmt.totals tariff.weight (readProgram tokens).value.statements : ℤ) =
        tariff.conditional *
          (placedCount tokens .endIf + placedCount tokens .elseIf +
            (readProgram tokens).missingCount .endIf) +
        tariff.alternative *
          (placedCount tokens .elseWord + placedCount tokens .elseIf) +
        tariff.whileLoop *
          (placedCount tokens .endDo +
            (readProgram tokens).missingCount .endDo) +
        tariff.forLoop *
          (placedCount tokens .next + (readProgram tokens).missingCount .next) +
        tariff.routine *
          (placedCount tokens .endFunction + placedCount tokens .endProcedure +
            unclosed) := by
  let final :=
    ((sequence (fun _ => false) (statement nestingLimit)).run
      (State.ofTokens tokens)).2
  have runs :
      Runs (sequence (fun _ => false) (statement nestingLimit))
        (State.ofTokens tokens) (readProgram tokens).value.statements final :=
    runs_of_whole shallow.whole
  obtain ⟨unclosed, settled⟩ :=
    settles_sequence (settlesStatements_statement nestingLimit) runs
  have before : tariff.balance (State.ofTokens tokens) =
      ((tokens.takeWhile (·.kind != .endOfFile)).map
        (fun token => (tariff.price token.kind : ℤ))).sum :=
    add_zero _
  have after : tariff.balance final =
      ((readProgram tokens).reports.map
        (fun report => tariff.charge report.cause)).sum := by
    have ended : final.rest = [] := runSequence_open_ended _ _
    have heard : (readProgram tokens).reports = final.reports.reverse := rfl
    rw [balance, ended, heard, List.map_nil, List.sum_nil, zero_add,
      List.map_reverse, List.sum_reverse]
  rw [before, after, sum_price, sum_charge] at settled
  refine ⟨unclosed, ?_⟩
  simp only [placedCount, tokenCount]
  linear_combination -settled

/-- The weight of a statement, as a sum over its forms. -/
theorem weight_eq (statement : Stmt) :
    tariff.weight statement =
      tariff.conditional * statement.isConditional.toNat +
        tariff.alternative * statement.hasNegative.toNat +
        tariff.whileLoop * statement.isWhile.toNat + tariff.forLoop *
          statement.isFor.toNat +
        tariff.routine * statement.isRoutine.toNat := by
  cases statement with
  | conditional _ _ negative? _ =>
      cases negative? <;>
        simp [weight, Stmt.isConditional, Stmt.hasNegative,
          Stmt.isWhile, Stmt.isFor, Stmt.isRoutine]
  | _ =>
      simp [weight, Stmt.isConditional, Stmt.hasNegative,
        Stmt.isWhile, Stmt.isFor, Stmt.isRoutine]

/-- A tariff with one price counts statements. -/
theorem count_eq_totals
    {sort : Stmt → Bool}
    (weighs : ∀ statement, tariff.weight statement = (sort statement).toNat)
    (program : Program) :
    program.count sort = Stmt.totals tariff.weight program.statements := by
  rw [Program.count, funext weighs]

end Tariff

/--
Unless a program is nested too deeply, each closing word either closes a
statement or is reported, and each statement that no word closes is reported.
Words that close routines may be missing.
-/
theorem readProgram_closers
    (tokens : List Token)
    (shallow : (readProgram tokens).Shallow) :
    ((readProgram tokens).value.count Stmt.isWhile : ℤ) =
        placedCount tokens .endDo + (readProgram tokens).missingCount .endDo ∧
      ((readProgram tokens).value.count Stmt.isFor : ℤ) =
        placedCount tokens .next + (readProgram tokens).missingCount .next ∧
      ((readProgram tokens).value.count Stmt.isConditional : ℤ) =
        placedCount tokens .endIf + (readProgram tokens).missingCount .endIf +
          placedCount tokens .elseIf ∧
      ((readProgram tokens).value.count Stmt.hasNegative : ℤ) =
        placedCount tokens .elseWord + placedCount tokens .elseIf ∧
      placedCount tokens .endFunction + placedCount tokens .endProcedure ≤
        (readProgram tokens).value.routines.length := by
  refine ⟨?_, ?_, ?_, ?_, ?_⟩
  · obtain ⟨_, law⟩ := (Tariff.mk 0 0 1 0 0).totals_readProgram shallow
    rw [(Tariff.mk 0 0 1 0 0).count_eq_totals
      (fun _ => by simp [Tariff.weight_eq]), law]
    push_cast
    ring
  · obtain ⟨_, law⟩ := (Tariff.mk 0 0 0 1 0).totals_readProgram shallow
    rw [(Tariff.mk 0 0 0 1 0).count_eq_totals
      (fun _ => by simp [Tariff.weight_eq]), law]
    push_cast
    ring
  · obtain ⟨_, law⟩ := (Tariff.mk 1 0 0 0 0).totals_readProgram shallow
    rw [(Tariff.mk 1 0 0 0 0).count_eq_totals
      (fun _ => by simp [Tariff.weight_eq]), law]
    push_cast
    ring
  · obtain ⟨_, law⟩ := (Tariff.mk 0 1 0 0 0).totals_readProgram shallow
    rw [(Tariff.mk 0 1 0 0 0).count_eq_totals
      (fun _ => by simp [Tariff.weight_eq]), law]
    push_cast
    ring
  · obtain ⟨unclosed, law⟩ := (Tariff.mk 0 0 0 0 1).totals_readProgram shallow
    have weighs : (Tariff.mk 0 0 0 0 1).weight = Stmt.routineWeight :=
      funext fun _ => by simp [Tariff.weight_eq, Stmt.routineWeight]
    rw [weighs, totals_routineWeight] at law
    rw [law]
    push_cast
    linarith [Int.natCast_nonneg unclosed]

/--
An `ENDIF` within an open loop is out of
place, and its conditional then lacks one.
-/
theorem readProgram_closers_crossed :
    let token := fun kind lexeme => Token.mk kind (Span.empty 0) lexeme
    let tokens :=
      [token .ifWord "IF", token .identifier "a", token .elseWord "ELSE",
        token .whileWord "WHILE", token .identifier "b", token .endIf "ENDIF",
        token .endDo "ENDDO", token .next "NEXT"]
    (readProgram tokens).Shallow ∧
      ((readProgram tokens).value.count Stmt.isWhile : ℤ) = 1 ∧
      ((readProgram tokens).value.count Stmt.isFor : ℤ) = 0 ∧
      ((readProgram tokens).value.count Stmt.isConditional : ℤ) = 1 ∧
      ((readProgram tokens).value.count Stmt.hasNegative : ℤ) = 1 ∧
      0 ≤ ((readProgram tokens).value.routines.length : ℤ) := by
  intro token tokens
  have shallow : (readProgram tokens).Shallow := by decide +kernel
  obtain ⟨whileLoops, forLoops, conditionals, alternatives, routines⟩ :=
    readProgram_closers tokens shallow
  have endDo : placedCount tokens .endDo +
      (readProgram tokens).missingCount .endDo = 1 := by
    decide +kernel
  have next : placedCount tokens .next +
      (readProgram tokens).missingCount .next = 0 := by
    decide +kernel
  have endIf :
      placedCount tokens .endIf + (readProgram tokens).missingCount .endIf +
        placedCount tokens .elseIf = 1 := by
    decide +kernel
  have elseWord : placedCount tokens .elseWord +
      placedCount tokens .elseIf = 1 := by
    decide +kernel
  have endRoutine : placedCount tokens .endFunction +
      placedCount tokens .endProcedure = 0 := by
    decide +kernel
  rw [endDo] at whileLoops
  rw [next] at forLoops
  rw [endIf] at conditionals
  rw [elseWord] at alternatives
  rw [endRoutine] at routines
  exact ⟨shallow, whileLoops, forLoops, conditionals, alternatives, routines⟩

end Clipper.Grammar
