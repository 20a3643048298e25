import Clipper.Grammar.Expression
import Clipper.Proofs.Grammar.Together

/-!
# Climbing through the levels of operators

The grammar reads binary operators by a ladder of six rules, one for each level:
a chain of one level has the chains of the next level as its operands.  There is
another way to read them, by one rule that climbs.  It has a floor, reads an
operand, and goes on for as long as an operator ahead stands on the floor or
above it; what is to the right of the operator is read by the same rule with the
floor just above that operator.

Both ways read the same.  A loop that climbs from a floor first does what the
loop from the next floor does, since every operator above the next floor is
above this one too.  Then no operator above the next floor is ahead, or the
reading is recovering, and each further round takes an operator of the floor
itself and ends where the loop from the next floor ends.  So the rule that
climbs from a floor is the chain of that level over the rule that climbs from
the next one, and above the sixth level there is only the operand.
-/

namespace Clipper

theorem BinaryOperator.level_le (operator : BinaryOperator) :
    operator.level ≤ 6 := by
  cases operator <;> decide

namespace Grammar

open Rule

/--
Rules that turn each state into the same value and the same state are equal.
-/
theorem Rule.eq_of_run
    {α : Type}
    {first second : Rule α}
    (same : ∀ state, first.run state = second.run state) :
    first = second := by
  cases first
  cases second
  congr
  exact funext same

/-! ## The rule that climbs -/

/--
Reads an operand, and goes on for as long as an operator ahead has the level of
the floor or a higher one.  The operand to the right of an operator is read with
the floor one level above it, so operators of one level group to the left.
-/
def climb
    (operand : Rule Expr)
    (floor : Nat) :
    Rule Expr := do
  let first ← operand
  let others ← many (fun token =>
    match BinaryOperator.ofKind? token.kind with
    | some operator =>
        if above : floor ≤ operator.level then
          some (climb operand (operator.level + 1) >>= fun right =>
            pure (operator, right))
        else none
    | none => none)
  pure (others.foldl joinRight first)
termination_by 7 - floor
decreasing_by
  have top := BinaryOperator.level_le operator
  omega

/--
What an operator on the floor or above it opens: the operand to its right.
-/
def climbed?
    (operand : Rule Expr)
    (floor : Nat)
    (token : Token) :
    Option (Rule (BinaryOperator × Expr)) :=
  match BinaryOperator.ofKind? token.kind with
  | some operator =>
      if floor ≤ operator.level then
        some do pure (operator, ← climb operand (operator.level + 1))
      else none
  | none => none

/--
The rule that climbs, spelled out: an operand, and then as many climbed
operators as there are, joined from the left.
-/
theorem climb_eq
    (operand : Rule Expr)
    (floor : Nat) :
    climb operand floor =
      (do
        let first ← operand
        let others ← many (climbed? operand floor)
        pure (others.foldl joinRight first)) := by
  rw [climb]
  rfl

/-- What is read by an operand and a loop of operators with right operands. -/
theorem run_joined
    (operand : Rule Expr)
    (open? : Token → Option (Rule (BinaryOperator × Expr)))
    (state : State) :
    (do
        let first ← operand
        let others ← many open?
        pure (others.foldl joinRight first) : Rule Expr).run state =
      ((runMany open? (operand.run state).2).1.foldl joinRight
        (operand.run state).1,
        (runMany open? (operand.run state).2).2) :=
  rfl

/--
What the rule that climbs does to a state: the run of the operand, and then
the loop over operators.
-/
theorem run_climb
    (operand : Rule Expr)
    (floor : Nat)
    (state : State) :
    (climb operand floor).run state =
      ((runMany (climbed? operand floor) (operand.run state).2).1.foldl
        joinRight
          (operand.run state).1,
        (runMany (climbed? operand floor) (operand.run state).2).2) := by
  rw [climb_eq, run_joined]

/-! ## Loops -/

section

variable {α : Type} {wide? narrow? level? : Token → Option (Rule α)}

/--
A loop ends at this state: the reading recovers, or nothing ahead opens a round.
-/
def Ended
    (open? : Token → Option (Rule α))
    (state : State) :
    Prop :=
  state.recovering = true ∨ ∀ token ∈ state.rest.head?, open? token = none

/-- Where a loop has come to its end, it ends at once. -/
theorem ended_runMany
    (open? : Token → Option (Rule α))
    (state : State) :
    Ended open? (runMany open? state).2 := by
  fun_induction runMany open? state with
  | case1 state ahead =>
      exact .inr fun token isFirst => by rw [ahead] at isFirst; cases isFirst
  | case2 state token rest ahead recovering => exact .inl recovering
  | case3 state token rest ahead calm closed =>
      refine .inr fun other isFirst => ?_
      rw [ahead] at isFirst
      exact Option.some.inj isFirst ▸ closed
  | case4 state token rest ahead calm rule opened first shorter others
      hypothesis =>
      exact hypothesis

/--
A loop first does what a loop does that opens fewer rounds, if both open those
rounds alike, and then goes on by itself.
-/
theorem runMany_split
    (extended : ∀ token rule, narrow? token = some rule →
      wide? token = some rule)
    (state : State) :
    runMany wide? state =
      ((runMany narrow? state).1 ++ (runMany wide? (runMany narrow? state).2).1,
        (runMany wide? (runMany narrow? state).2).2) := by
  fun_induction runMany narrow? state with
  | case1 => rfl
  | case2 => rfl
  | case3 => rfl
  | case4 state token rest ahead calm rule opened first shorter others
      hypothesis =>
      have openedToo := extended token rule opened
      rw [runMany_opened ahead (Bool.eq_false_iff.mpr calm) openedToo,
        hypothesis]
      rfl

/--
Loops do the same from a state at which a narrower loop ends, if they differ
only in the rounds that the narrower one opens, and if each round comes to a
state at which the narrower loop ends again.
-/
theorem runMany_eq_of_ended
    (apart : ∀ token, narrow? token = none → wide? token = level? token)
    (again : ∀ token rule, level? token = some rule →
      ∀ state, Ended narrow? (rule.run state).2)
    {state : State}
    (ended : Ended narrow? state) :
    runMany wide? state = runMany level? state := by
  fun_induction runMany level? state with
  | case1 state ahead =>
      refine runMany_closed (.inr fun token isFirst => ?_)
      rw [ahead] at isFirst
      cases isFirst
  | case2 state token rest ahead recovering =>
      exact runMany_closed (.inl recovering)
  | case3 state token rest ahead calm closed =>
      have none := ended.resolve_left calm
      rw [ahead] at none
      refine runMany_closed (.inr fun other isFirst => ?_)
      rw [ahead] at isFirst
      obtain rfl : token = other := Option.some.inj isFirst
      rw [apart token (none token rfl), closed]
  | case4 state token rest ahead calm rule opened first shorter others
      hypothesis =>
      have none := ended.resolve_left calm
      rw [ahead] at none
      have openedToo := (apart token (none token rfl)).trans opened
      rw [runMany_opened ahead (Bool.eq_false_iff.mpr calm) openedToo,
        hypothesis (again token rule opened _)]

end

/-! ## One level -/

section

variable {operand : Rule Expr} {floor : Nat} {token : Token}

/-- What is above the next floor is above this one too. -/
theorem climbed?_of_succ
    {rule : Rule (BinaryOperator × Expr)}
    (opened : climbed? operand (floor + 1) token = some rule) :
    climbed? operand floor token = some rule := by
  unfold climbed? at opened ⊢
  split at opened
  · split at opened
    · next above =>
        rw [if_pos (Nat.le_of_succ_le above)]
        exact opened
    · cases opened
  · cases opened

/--
An operator that is not above the next floor is one of this level, or below it.
-/
theorem climbed?_eq_rightOperand?
    (closed : climbed? operand (floor + 1) token = none) :
    climbed? operand floor token =
      rightOperand? floor (climb operand (floor + 1)) token := by
  unfold climbed? at closed ⊢
  unfold rightOperand?
  cases isOperator : BinaryOperator.ofKind? token.kind with
  | none => rfl
  | some operator =>
      rw [isOperator] at closed
      have below : ¬ floor + 1 ≤ operator.level := fun above => by
        dsimp only at closed
        rw [if_pos above] at closed
        cases closed
      dsimp only
      by_cases level : operator.level = floor
      · rw [if_pos level, if_pos (Nat.le_of_eq level.symm), level]
      · rw [if_neg level, if_neg (by omega)]

/--
The right operand of a level is read to
where no operator above that level is ahead.
-/
theorem ended_rightOperand?
    {rule : Rule (BinaryOperator × Expr)}
    (opened : rightOperand? floor (climb operand (floor + 1)) token = some rule)
    (state : State) :
    Ended (climbed? operand (floor + 1)) (rule.run state).2 := by
  unfold rightOperand? at opened
  split at opened
  · next operator isOperator =>
      split at opened
      · obtain rfl := Option.some.inj opened
        rw [climb_eq]
        exact ended_runMany _ _
      · cases opened
  · cases opened

end

/-- To climb from a floor is to chain the operators of its level. -/
theorem climb_eq_chain
    (operand : Rule Expr)
    (floor : Nat) :
    climb operand floor = chain floor (climb operand (floor + 1)) := by
  refine Rule.eq_of_run fun state => ?_
  rw [chain, run_joined, run_climb, run_climb,
    runMany_split (fun _ _ => climbed?_of_succ) (operand.run state).2,
    runMany_eq_of_ended (fun _ => climbed?_eq_rightOperand?)
      (fun _ _ => ended_rightOperand?) (ended_runMany _ _), List.foldl_append]

/-- Above the sixth level no operator is left. -/
theorem climb_above (operand : Rule Expr) : climb operand 7 = operand := by
  have none (token : Token) : climbed? operand 7 token = none := by
    unfold climbed?
    split
    · next operator isOperator =>
        have top := operator.level_le
        rw [if_neg (by omega)]
    · rfl
  refine Rule.eq_of_run fun state => ?_
  rw [run_climb, runMany_closed (.inr fun token _ => none token)]
  rfl

/--
The ladder of levels reads what the rule reads that climbs from the lowest
level, with the same values, the same reports and the same tokens left.
-/
theorem binary_eq_climb (operand : Rule Expr) :
    binary operand = climb operand 1 := by
  rw [climb_eq_chain operand 1, climb_eq_chain operand 2,
    climb_eq_chain operand 3, climb_eq_chain operand 4,
    climb_eq_chain operand 5, climb_eq_chain operand 6, climb_above, binary]

end Grammar

end Clipper
