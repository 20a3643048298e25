import Clipper.Proofs.Grammar.Body
import Clipper.Proofs.Syntax.Node
import Clipper.Proofs.Syntax.Total

/-!
# Where routines stand in a program

A statement that is read is a routine exactly where the head of one stands
ahead, and no other statement inside it is a routine: a block ends before such a
head.  So the routines of a program are statements of the program itself, and
counting routines at any depth counts these.

The weight of a statement is one for a routine and zero for the others, and
the total of a tree counts its routines.  That the total of a block is zero is
proved along the rules for blocks, for which the head of a routine is an end.
At a place where such a head is ahead, the form of the statement is that of a
routine; so the two cases of the loop over a program are told by the tokens.
-/

namespace Clipper

/-- One for a routine, and nothing for any other statement. -/
def Stmt.routineWeight (statement : Stmt) : Nat :=
  statement.isRoutine.toNat

namespace Grammar

open Rule

/-! ## Simple statements -/

/-- A property that all states have. -/
def State.anyState : State.Invariant where
  holds _ := True
  kept _ _ _ _ := trivial

/-- Whatever the state, the rule yields a statement without blocks. -/
abbrev Rule.YieldsSimple (rule : Rule Stmt) : Prop :=
  rule.Yields State.anyState (fun statement => statement.isSimple = true)

section Values

open Rule.Yields

theorem simple_loopControl : loopControl.YieldsSimple := by
  refine bind (any _) fun _ _ => pure ?_
  split
  · rfl
  · rfl

theorem simple_standalone
    (start : Nat)
    (value : Expr) :
    (standalone start value).YieldsSimple :=
  bind (any _) fun _ _ => pure rfl

variable (expression : Rule Expr)

theorem simple_declaration : (declaration expression).YieldsSimple :=
  bind (any _) fun _ _ => bind (any _) fun _ _ => bind (any _) fun _ _ =>
    pure rfl

theorem simple_resultStatement : (resultStatement expression).YieldsSimple := by
  refine bind (any _) fun _ _ => bind (any _) fun _ _ =>
    ite (fun _ => ?_) (fun _ => ?_)
  · exact bind (any _) fun _ _ => bind (any _) fun _ _ => pure rfl
  · exact bind (any _) fun _ _ => pure rfl

theorem simple_printStatement : (printStatement expression).YieldsSimple :=
  bind (any _) fun _ _ => bind (any _) fun _ _ => bind (any _) fun _ _ =>
    pure rfl

/-- An assignment makes a simple statement. -/
theorem simple_assignment
    (start : Nat)
    (target : Expr)
    (form : AssignmentForm) :
    (assignment expression start target form).YieldsSimple := by
  refine bind (any _) fun _ _ => bind (any _) fun _ _ =>
    bind (any _) fun _ _ => ?_
  refine bind (any _) fun _ _ => pure ?_
  cases form with
  | plain => rfl
  | updating => rfl

theorem simple_expressionStatement :
    (expressionStatement expression).YieldsSimple := by
  refine bind (any _) fun _ _ => bind (any _) fun _ _ =>
    bind (any _) fun _ _ => ?_
  refine ite (fun _ => simple_standalone _ _)
    (fun _ => bind (any _) fun _ _ => ?_)
  split
  · exact simple_standalone _ _
  · exact simple_assignment expression _ _ _

theorem simple_terminated
    {rule : Rule Stmt}
    (simple : rule.YieldsSimple) :
    (terminated rule).Yields State.anyState
      (fun made? => ∀ made ∈ made?, made.isSimple = true) := by
  refine bind simple fun statement isSimple => bind (any _) fun _ _ =>
    pure fun made member => ?_
  cases member
  exact isSimple

/-- Statements of the simple forms have no blocks. -/
theorem simple_simpleForm
    (block : List TokenKind → Rule Block)
    {form : StatementForm}
    (simple : form.isSimple = true) :
    (statementOfForm expression block form).Yields State.anyState
      (fun made? => ∀ made ∈ made?, made.isSimple = true) := by
  cases form with
  | empty => exact bind (any _) fun _ _ => pure nofun
  | declaration => exact simple_terminated (simple_declaration expression)
  | result => exact simple_terminated (simple_resultStatement expression)
  | control => exact simple_terminated simple_loopControl
  | print => exact simple_terminated (simple_printStatement expression)
  | expression =>
      exact simple_terminated (simple_expressionStatement expression)
  | strayCloser | conditional | whileLoop | forLoop | routine => cases simple

end Values

/-! ## Compound statements -/

section Totals

open Rule.Yields

/-- Whatever the state, the rule yields a statement without a routine in it. -/
abbrev Rule.YieldsNoRoutine (rule : Rule (Option Stmt)) : Prop :=
  rule.Yields State.anyState
    (fun made? => ∀ made ∈ made?, made.total Stmt.routineWeight = 0)

/-- A simple statement holds no routine. -/
theorem noRoutine_simpleForm
    (expression : Rule Expr)
    (block : List TokenKind → Rule Block)
    {form : StatementForm}
    (simple : form.isSimple = true) :
    (statementOfForm expression block form).YieldsNoRoutine := by
  refine mono (simple_simpleForm expression block simple)
    fun made? isSimple made member => ?_
  rw [Stmt.total_of_isSimple _ (isSimple made member)]
  have noRoutine := isSimple made member
  cases made with
  | routine => cases noRoutine
  | _ => rfl

theorem noRoutine_strayCloser : strayCloser.YieldsNoRoutine :=
  bind (any _) fun _ _ => bind (any _) fun _ _ => bind (any _) fun _ _ =>
    pure nofun

theorem noRoutine_some
    {rule : Rule Stmt}
    (none :
      rule.Yields State.anyState
        (fun statement => statement.total Stmt.routineWeight = 0)) :
    (some <$> rule).YieldsNoRoutine := by
  refine map (mono none fun statement isNone made member => ?_)
  cases member
  exact isNone

/-- Further arms hold no routines when their blocks hold none. -/
theorem total_foldr_nest
    {reached : Nat}
    {arms : List Arm}
    (armsNone : ∀ arm ∈ arms, arm.block.total Stmt.routineWeight = 0)
    {last? : Option Block}
    (lastNone : last?.elim 0 (Block.total Stmt.routineWeight) = 0) :
    (arms.foldr (Arm.nest reached) last?).elim 0
      (Block.total Stmt.routineWeight) = 0 := by
  induction arms with
  | nil => exact lastNone
  | cons arm rest hypothesis =>
      rw [List.forall_mem_cons] at armsNone
      change (Arm.conditional reached arm _).total Stmt.routineWeight + 0 = 0
      rw [Arm.conditional, Stmt.total_conditional, armsNone.1,
        hypothesis armsNone.2]
      rfl

variable {expression : Rule Expr} {block : List TokenKind → Rule Block}
variable
  (blockNone :
    ∀ closers,
      (block closers).Yields State.anyState
        (fun body => body.total Stmt.routineWeight = 0))

include blockNone

theorem noRoutine_arm (start : Nat) :
    (arm expression block start).Yields State.anyState
      (fun arm => arm.block.total Stmt.routineWeight = 0) :=
  bind (any _) fun _ _ => bind (any _) fun _ _ =>
    bind (blockNone _) fun _ none => pure none

/-- A conditional holds no routine, given that its blocks hold none. -/
theorem noRoutine_conditional :
    (conditional expression block).Yields State.anyState
      (fun statement => statement.total Stmt.routineWeight = 0) := by
  have othersYield :
      (Rule.many (furtherArm? expression block)).Yields State.anyState
        (fun arms => ∀ arm ∈ arms, arm.block.total Stmt.routineWeight = 0) := by
    refine many fun _ token _ rule _ _ opened => ?_
    rw [furtherArm?] at opened
    split at opened
    · cases opened
      exact noRoutine_arm blockNone _
    · cases opened
  refine bind (any _) fun word _ =>
    bind (noRoutine_arm blockNone _) fun first firstNone => ?_
  refine bind othersYield fun others othersNone => ?_
  refine bind (optionalAfter (blockNone _) .elseWord) fun last? lastNone => ?_
  refine bind (any _) fun reached _ => bind (any _) fun _ _ =>
    bind (any _) fun _ _ => pure ?_
  have last : last?.elim 0 (Block.total Stmt.routineWeight) = 0 := by
    cases last? with
    | none => rfl
    | some last => exact lastNone last rfl
  rw [Stmt.total_conditional, firstNone, total_foldr_nest othersNone last]
  rfl

/-- A loop with a condition holds no routine, given that its body holds none. -/
theorem noRoutine_whileLoop :
    (whileLoop expression block).Yields State.anyState
      (fun statement => statement.total Stmt.routineWeight = 0) := by
  refine bind (any _) fun _ _ => bind (any _) fun _ _ =>
    bind (any _) fun _ _ => ?_
  refine bind (any _) fun _ _ => bind (any _) fun _ _ =>
    bind (blockNone _) fun body none => ?_
  refine bind (any _) fun _ _ => bind (any _) fun _ _ => pure ?_
  rw [Stmt.total, none]
  rfl

/-- A counting loop holds no routine, given that its body holds none. -/
theorem noRoutine_forLoop :
    (forLoop expression block).Yields State.anyState
      (fun statement => statement.total Stmt.routineWeight = 0) := by
  refine bind (any _) fun _ _ => bind (any _) fun _ _ =>
    bind (any _) fun _ _ => ?_
  refine bind (any _) fun _ _ => bind (any _) fun _ _ =>
    bind (any _) fun _ _ => ?_
  refine bind (any _) fun _ _ => bind (blockNone _) fun body none => ?_
  refine bind (any _) fun _ _ => bind (any _) fun _ _ => pure ?_
  rw [Stmt.total, none]
  rfl

/-- A statement of any form but a routine's holds no routine. -/
theorem noRoutine_statementOfForm
    {form : StatementForm}
    (other : form ≠ .routine) :
    (statementOfForm expression block form).YieldsNoRoutine := by
  cases simple : form.isSimple with
  | true => exact noRoutine_simpleForm expression block simple
  | false =>
      cases form with
      | strayCloser => exact noRoutine_strayCloser
      | conditional => exact noRoutine_some (noRoutine_conditional blockNone)
      | whileLoop => exact noRoutine_some (noRoutine_whileLoop blockNone)
      | forLoop => exact noRoutine_some (noRoutine_forLoop blockNone)
      | routine => exact absurd rfl other
      | _ => cases simple

/-- A routine counts as one, given that its body holds none. -/
theorem total_routine :
    (routine block).Yields State.anyState
      (fun statement =>
        statement.isRoutine = true ∧
        statement.total Stmt.routineWeight = 1) := by
  refine bind (any _) fun _ _ => bind (any _) fun _ _ =>
    bind (any _) fun _ _ => ?_
  refine bind (any _) fun _ _ => bind (any _) fun _ _ =>
    bind (blockNone _) fun body none => ?_
  refine bind (any _) fun _ _ => bind (any _) fun _ _ => pure ⟨rfl, ?_⟩
  rw [Stmt.total, none]
  rfl

end Totals

/-! ## Statements and blocks -/

/-- At the head of a routine, the form of the statement is a routine. -/
theorem form_eq_routine
    {state : State}
    (opens : opensRoutine state.rest = true) :
    StatementForm.of state = .routine := by
  have heads := opens
  rw [opensRoutine_rest, Bool.or_eq_true, Bool.and_eq_true, beq_iff_eq,
    isRoutineWord, Bool.or_eq_true, beq_iff_eq, beq_iff_eq] at heads
  obtain (isFunction | isProcedure) | ⟨isStatic, -⟩ := heads
  · rw [StatementForm.of, isFunction]
  · rw [StatementForm.of, isProcedure]
  · rw [StatementForm.of, isStatic]
    exact if_pos opens

/--
A statement is a routine exactly where one
opens, and there is no other routine in it.
-/
structure RoutineOnlyAtHead
    (state : State)
    (made : Stmt) : Prop where
  isRoutine : made.isRoutine = opensRoutine state.rest
  total : made.total Stmt.routineWeight = made.isRoutine.toNat

theorem Stmt.isRoutine_of_total
    {statement : Stmt}
    (none : statement.total Stmt.routineWeight = 0) :
    statement.isRoutine = false := by
  cases statement with
  | routine => simp [Stmt.total, Stmt.routineWeight, Stmt.isRoutine] at none
  | _ => rfl

/--
A statement is a routine exactly where the head of one is
ahead, and holds no other.
-/
theorem routineOnlyAtHead_statementOf
    {expression : Rule Expr}
    {block : List TokenKind → Rule Block}
    (blockNone :
      ∀ closers,
        (block closers).Yields State.anyState
          (fun body => body.total Stmt.routineWeight = 0))
    (state : State) :
    ∀ made ∈ ((statementOf expression block).run state).1,
      RoutineOnlyAtHead state made := by
  intro made member
  have read : made ∈
      ((statementOfForm expression block
        (StatementForm.of { state with recovering := false })).run
          { state with recovering := false }).1 := member
  cases opens : opensRoutine state.rest with
  | true =>
      have form : StatementForm.of { state with recovering := false } =
          .routine :=
        form_eq_routine opens
      rw [form] at read
      obtain ⟨isRoutine, total⟩ :=
        total_routine blockNone { state with recovering := false } trivial
      cases read
      exact ⟨by rw [opens, isRoutine], by rw [total, isRoutine]; rfl⟩
  | false =>
      have other : StatementForm.of { state with recovering := false } ≠
          .routine := by
        intro same
        have ahead := StatementForm.ahead_of { state with recovering := false }
        rw [same] at ahead
        exact Bool.eq_false_iff.mp opens ahead
      have none := noRoutine_statementOfForm blockNone other _ trivial made read
      have isNone := Stmt.isRoutine_of_total none
      exact ⟨by rw [opens, isNone], by rw [none, isNone]; rfl⟩

/--
Every value of a loop over items was read
from a state that did not close the loop.
-/
theorem Rule.mem_runSequence
    {α : Type}
    {closes : State → Bool}
    {item : Rule (Option α)}
    {state : State}
    {value : α}
    (member : value ∈ (runSequence closes item state).1) :
    ∃ before, closes before = false ∧ value ∈ (item.run before).1 := by
  revert member
  fun_induction runSequence closes item state with
  | case1 | case2 => exact fun member => absurd member List.not_mem_nil
  | case3 state ended opened first shorter others hypothesis =>
      intro member
      obtain isFirst | later := List.mem_append.mp member
      · exact ⟨state, Bool.eq_false_iff.mpr opened,
          Option.mem_toList.mp isFirst⟩
      · exact hypothesis later

/-- A block ends before a routine, so there is none in it. -/
theorem noRoutine_blockOf
    {statement : Rule (Option Stmt)}
    (only : ∀ state, ∀ made ∈ (statement.run state).1,
      RoutineOnlyAtHead state made)
    (closers : List TokenKind) :
    (blockOf statement closers).Yields State.anyState
      (fun body => body.total Stmt.routineWeight = 0) := by
  intro state _
  refine Stmt.totals_eq_zero _ fun made member => ?_
  obtain ⟨before, inside, read⟩ := mem_runSequence member
  rw [endsBlock, Bool.or_eq_false_iff] at inside
  have head := only before made read
  rw [head.total, head.isRoutine, inside.2]
  rfl

theorem routineOnlyAtHead_statement
    (levels : Nat)
    (state : State) :
    ∀ made ∈ ((statement levels).run state).1,
      RoutineOnlyAtHead state made := by
  induction levels generalizing state with
  | zero => exact routineOnlyAtHead_statementOf (fun _ _ _ => rfl) state
  | succ levels hypothesis =>
      exact routineOnlyAtHead_statementOf (noRoutine_blockOf hypothesis) state

/-! ## Programs -/

/--
No part of a statement holds a routine, where the
statement counts only itself.
-/
theorem total_child_of_isRoutine
    {made : Stmt}
    (only : made.total Stmt.routineWeight = made.isRoutine.toNat)
    {child : Node}
    (member : child ∈ Node.ofStmt made) :
    child.total Stmt.routineWeight = 0 := by
  have part :
      child.total Stmt.routineWeight ≤
        ((Node.ofStmt made).map (Node.total Stmt.routineWeight)).sum :=
    Node.total_child_le
      (show child ∈ (Node.statement made).children from member)
  rw [Node.total_eq_weight_add, Stmt.routineWeight] at only
  omega

/-- Inside the blocks of what is read there are no routines. -/
theorem noRoutine_inBlock
    {made inner : Stmt}
    {block : Block}
    (only : made.total Stmt.routineWeight = made.isRoutine.toNat)
    (holds : Node.Within (.statement made) (.block block))
    (inside : Node.Within (.block block) (.statement inner)) :
    inner.isRoutine = false := by
  obtain impossible | ⟨child, member, below⟩ := holds.root_or_below
  · cases impossible
  · refine Stmt.isRoutine_of_total (Nat.le_zero.mp ?_)
    rw [← total_child_of_isRoutine only member]
    exact (below.trans inside).total_le

theorem routineOnlyAtHead_readProgram
    (tokens : List Token) :
    ∀ made ∈ (readProgram tokens).value.statements,
      made.total Stmt.routineWeight = made.isRoutine.toNat := by
  intro made member
  obtain ⟨before, -, read⟩ := mem_runSequence member
  exact (routineOnlyAtHead_statement nestingLimit before made read).total

/--
All routines of a program, at any depth, are statements of the program itself.
-/
theorem totals_routineWeight (tokens : List Token) :
    Stmt.totals Stmt.routineWeight (readProgram tokens).value.statements =
      (readProgram tokens).value.routines.length := by
  have only := routineOnlyAtHead_readProgram tokens
  rw [Program.routines]
  generalize (readProgram tokens).value.statements = statements at only
  induction statements with
  | nil => rfl
  | cons first rest hypothesis =>
      rw [List.forall_mem_cons] at only
      rw [Stmt.totals, only.1, hypothesis only.2]
      cases first with
      | routine => exact Nat.add_comm _ _
      | _ => exact Nat.zero_add _

end Grammar

end Clipper
