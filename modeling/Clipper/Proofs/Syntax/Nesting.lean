import Clipper.Proofs.Syntax.Node
import Clipper.Proofs.Syntax.Total

/-!
# The nesting of a tree

How many levels a tree has along its deepest path from the root to a leaf.  A
block is a level, and so is a prefix operation, and so is an expression that
stands directly in a statement or is an argument, an index, an element of an
array or an expression of a code block.  Operands of binary operators and the
targets of suffixes share the level of the operation.

A block in which a conditional stands alone after `ELSE` is no level, for an
`ELSEIF` makes such a block.  An empty block and the position of a placeholder
are none either: they may stand where the limit was passed.
-/

namespace Clipper

/-! ## Expressions -/

namespace Expr

/--
The levels below an expression with its own, which a placeholder does not have.
-/
def withOwnLevel
    (value : Expr)
    (below : Nat) :
    Nat :=
  if value.isPlaceholder then 0 else below + 1

mutual

/-- How many levels an expression has below its own. -/
def nesting : Expr → Nat
  | literal _ _ | name _ _ => 0
  | unary _ operand _ => operand.nesting + 1
  | binary _ left right _ => max left.nesting right.nesting
  | call callee arguments _ => max callee.nesting (nestingAmong arguments)
  | index target position _ =>
      max target.nesting (position.withOwnLevel position.nesting)
  | array elements _ => nestingAmong elements
  | property receiver _ _ => receiver.nesting
  | send receiver _ arguments _ => max receiver.nesting (nestingAmong arguments)
  | field area _ _ => area.nesting
  | codeBlock _ body _ => nestingAmong body

/--
How many levels several expressions have,
each with its own unless it is a placeholder.
-/
def nestingAmong : List Expr → Nat
  | [] => 0
  | first :: rest => max (first.withOwnLevel first.nesting) (nestingAmong rest)

end

/-- Whether an expression has its place within some levels. -/
def FitsIn
    (levels : Nat)
    (value : Expr) :
    Prop :=
  value.withOwnLevel value.nesting ≤ levels

/--
An expression fits in some levels if it is a placeholder, which needs none, or
if it nests less deeply than they are.
-/
theorem fitsIn_iff
    {levels : Nat}
    {value : Expr} :
    value.FitsIn levels ↔ value.isPlaceholder = true ∨
    value.nesting < levels := by
  rw [FitsIn, withOwnLevel]
  split
  · next isPlaceholder => simp [isPlaceholder]
  · next notPlaceholder =>
      exact ⟨.inr, fun either => either.resolve_left notPlaceholder⟩

theorem nestingAmong_le_iff
    {levels : Nat}
    {values : List Expr} :
    nestingAmong values ≤ levels ↔ ∀ value ∈ values, value.FitsIn levels := by
  induction values with
  | nil => simp [nestingAmong]
  | cons first rest hypothesis =>
      rw [nestingAmong, Nat.max_le, hypothesis, List.forall_mem_cons, FitsIn]

theorem fitsIn_placeholder
    (levels offset : Nat) :
    (placeholder offset).FitsIn levels :=
  fitsIn_iff.mpr (.inl rfl)

theorem fitsIn_succ
    {levels : Nat}
    {value : Expr}
    (within : value.nesting ≤ levels) :
    value.FitsIn (levels + 1) :=
  fitsIn_iff.mpr (.inr (Nat.lt_succ_of_le within))

/-- A placeholder has nothing below it. -/
theorem FitsIn.nesting_le
    {levels : Nat}
    {value : Expr}
    (fits : value.FitsIn levels) :
    value.nesting ≤ levels := by
  obtain isPlaceholder | within := fitsIn_iff.mp fits
  · cases value with
    | name => exact Nat.zero_le _
    | _ => cases isPlaceholder
  · exact within.le

@[simp]
theorem nesting_withSpan
    (value : Expr)
    (span : Span) :
    (value.withSpan span).nesting = value.nesting := by
  cases value <;> simp [withSpan, nesting]

end Expr

/-! ## Statements -/

mutual

/-- How many levels the expressions and blocks of a statement have. -/
def Stmt.nesting : Stmt → Nat
  | .expression value _ => Expr.nestingAmong [value]
  | .assign target value _ => Expr.nestingAmong [target, value]
  | .update target _ value _ => Expr.nestingAmong [target, value]
  | .print _ values _ => Expr.nestingAmong values
  | .declare _ bindings _ =>
      Expr.nestingAmong (bindings.filterMap Binding.value?)
  | .result value? _ => Expr.nestingAmong value?.toList
  | .conditional condition positive none _ =>
      max (Expr.nestingAmong [condition]) positive.nesting
  | .conditional condition positive (some negative) _ =>
      max (Expr.nestingAmong [condition])
        (max positive.nesting negative.nestingAfterElse)
  | .whileLoop condition body _ =>
      max (Expr.nestingAmong [condition]) body.nesting
  | .forLoop _ first last step? body _ =>
      max (Expr.nestingAmong (first :: last :: step?.toList)) body.nesting
  | .routine _ body _ => body.nesting
  | .exit _ | .loop _ => 0

/-- How many levels a block has; it is one itself unless it is empty. -/
def Block.nesting : Block → Nat
  | .of [] _ => 0
  | .of (first :: rest) _ => max first.nesting (Stmt.nestingAmong rest) + 1

/-- How many levels the other block of a conditional has. -/
def Block.nestingAfterElse : Block → Nat
  | .of [] _ => 0
  | .of (first :: rest) _ =>
      if first.isConditional && rest.isEmpty then first.nesting
      else max first.nesting (Stmt.nestingAmong rest) + 1

/-- How many levels the deepest of several statements has. -/
def Stmt.nestingAmong : List Stmt → Nat
  | [] => 0
  | first :: rest => max first.nesting (Stmt.nestingAmong rest)

end

theorem Stmt.nestingAmong_le_iff
    {levels : Nat}
    {statements : List Stmt} :
    Stmt.nestingAmong statements ≤ levels ↔
      ∀ statement ∈ statements, statement.nesting ≤ levels := by
  induction statements with
  | nil => simp [Stmt.nestingAmong]
  | cons first rest hypothesis =>
      rw [Stmt.nestingAmong, Nat.max_le, hypothesis, List.forall_mem_cons]

/-- A block nests one level deeper than its statements. -/
theorem Block.nesting_le_succ
    {levels : Nat}
    {statements : List Stmt}
    (within : ∀ statement ∈ statements, statement.nesting ≤ levels)
    (span : Span) :
    (Block.of statements span).nesting ≤ levels + 1 := by
  cases statements with
  | nil => exact Nat.zero_le _
  | cons first rest =>
      rw [Block.nesting, Nat.succ_le_succ_iff]
      exact Stmt.nestingAmong_le_iff.mpr within

/--
Behind `ELSE` a block is counted as it is, or as the conditional
that is alone in it.
-/
theorem Block.nestingAfterElse_le (block : Block) :
    block.nestingAfterElse ≤ block.nesting := by
  cases block with
  | of statements span =>
      cases statements with
      | nil => exact Nat.le_refl 0
      | cons first rest =>
          rw [nestingAfterElse, nesting]
          split
          · exact (Nat.le_max_left _ _).trans (Nat.le_succ _)
          · exact Nat.le_refl _

/-- An `ELSEIF` takes no level of its own. -/
@[simp]
theorem Block.nestingAfterElse_conditional
    (condition : Expr)
    (positive : Block)
    (negative? : Option Block)
    (span blockSpan : Span) :
    (Block.of [.conditional condition positive negative? span]
      blockSpan).nestingAfterElse =
      (Stmt.conditional condition positive negative? span).nesting :=
  rfl

/--
A conditional nests as deeply as the deepest of its condition and its blocks.
-/
theorem Stmt.nesting_conditional
    (condition : Expr)
    (positive : Block)
    (negative? : Option Block)
    (span : Span) :
    (Stmt.conditional condition positive negative? span).nesting =
      max (Expr.nestingAmong [condition])
        (max positive.nesting (negative?.elim 0 Block.nestingAfterElse)) := by
  cases negative? with
  | none => rw [Stmt.nesting, Option.elim_none, Nat.max_zero]
  | some negative => rw [Stmt.nesting, Option.elim_some]

/-- How many levels a program has along its deepest path. -/
def Program.nesting (program : Program) : Nat :=
  Stmt.nestingAmong program.statements

end Clipper
