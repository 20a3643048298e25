import Clipper.Proofs.Syntax.Node
import Mathlib.Algebra.Order.BigOperators.Group.List
import Mathlib.Algebra.Order.Ring.Nat

/-!
# Sums over the statements of a tree

Every statement has a weight of its own; the total adds up the weights of all
statements of a tree, at any depth.  With weights zero and one the total counts
statements.

A total is defined for all sorts of nodes together, and it adds up along the
children of a node.  This makes it fit to be proved by the rules of the
grammar one after another: a node that is made of parts has the total of its
parts and its own weight.  To count routines, or to show that there is none in
a block, is the use that the project makes of it.
-/

namespace Clipper

mutual

/-- The weight of a statement and of all statements inside it. -/
def Stmt.total (weight : Stmt → Nat) : Stmt → Nat
  | .conditional condition positive none span =>
      weight (.conditional condition positive none span) + positive.total weight
  | .conditional condition positive (some negative) span =>
      weight (.conditional condition positive (some negative) span) +
        (positive.total weight + negative.total weight)
  | .whileLoop condition body span =>
      weight (.whileLoop condition body span) + body.total weight
  | .forLoop counter first last step? body span =>
      weight (.forLoop counter first last step? body span) + body.total weight
  | .routine head body span =>
      weight (.routine head body span) + body.total weight
  | statement => weight statement

/-- The weights of all statements inside a block. -/
def Block.total (weight : Stmt → Nat) : Block → Nat
  | .of statements _ => Stmt.totals weight statements

/-- The weights of several statements and of all statements inside them. -/
def Stmt.totals (weight : Stmt → Nat) : List Stmt → Nat
  | [] => 0
  | first :: rest => first.total weight + Stmt.totals weight rest

end

/-- How many statements of a program, at any depth, are of a sort. -/
def Program.count
    (sort : Stmt → Bool)
    (program : Program) :
    Nat :=
  Stmt.totals (fun statement => (sort statement).toNat) program.statements

/-- The routines of a program are among its statements. -/
theorem Program.mem_statements_of_mem_routines
    {program : Program}
    {head : RoutineHead}
    {body : Block}
    (member : (head, body) ∈ program.routines) :
    ∃ span, .routine head body span ∈ program.statements := by
  obtain ⟨statement, isStatement, found⟩ := List.mem_filterMap.mp member
  cases statement with
  | routine head body span =>
      cases found
      exact ⟨span, isStatement⟩
  | _ => cases found

namespace Stmt

/-- Whether a statement is a loop with a condition. -/
def isWhile : Stmt → Bool
  | whileLoop .. => true
  | _ => false

/-- Whether a statement is a counting loop. -/
def isFor : Stmt → Bool
  | forLoop .. => true
  | _ => false

/-- Whether a statement is a conditional. -/
def isConditional : Stmt → Bool
  | conditional .. => true
  | _ => false

/-- Whether a statement is a conditional with a block for the other case. -/
def hasNegative : Stmt → Bool
  | conditional _ _ negative? _ => negative?.isSome
  | _ => false

/-- Whether a statement is a routine. -/
def isRoutine : Stmt → Bool
  | routine .. => true
  | _ => false

/-- Whether a statement has no blocks, and so no statements, inside it. -/
def isSimple : Stmt → Bool
  | conditional .. | whileLoop .. | forLoop .. | routine .. => false
  | _ => true

variable (weight : Stmt → Nat)

theorem total_of_isSimple
    {statement : Stmt}
    (simple : statement.isSimple = true) :
    statement.total weight = weight statement := by
  cases statement with
  | conditional | whileLoop | forLoop | routine => cases simple
  | _ => rfl

@[simp]
theorem totals_append (first second : List Stmt) :
    totals weight (first ++ second) =
      totals weight first + totals weight second := by
  induction first with
  | nil => rw [List.nil_append, totals, Nat.zero_add]
  | cons statement rest hypothesis =>
      rw [List.cons_append, totals, totals, hypothesis, Nat.add_assoc]

@[simp]
theorem total_conditional
    (condition : Expr)
    (positive : Block)
    (negative? : Option Block)
    (span : Span) :
    (conditional condition positive negative? span).total weight =
      weight (conditional condition positive negative? span) +
        (positive.total weight + negative?.elim 0 (Block.total weight)) := by
  cases negative? <;> rfl

theorem totals_eq_zero
    {statements : List Stmt}
    (none : ∀ statement ∈ statements, statement.total weight = 0) :
    totals weight statements = 0 := by
  induction statements with
  | nil => rfl
  | cons first rest hypothesis =>
      rw [List.forall_mem_cons] at none
      rw [totals, none.1, hypothesis none.2]

end Stmt

namespace Node

variable {weight : Stmt → Nat}

/-- The weights of all statements of the tree below a node. -/
def total (weight : Stmt → Nat) : Node → Nat
  | .statement part => part.total weight
  | .block body => body.total weight
  | _ => 0

/-- Parts without weight add nothing to a total. -/
theorem sum_total_leaves
    {α : Type}
    {make : α → Node}
    (nothing : ∀ part, (make part).total weight = 0)
    (parts : List α) :
    (parts.map (total weight ∘ make)).sum = 0 := by
  induction parts with
  | nil => rfl
  | cons part rest hypothesis =>
      rw [List.map_cons, List.sum_cons, hypothesis, Function.comp, nothing]

@[simp]
theorem sum_total_identifiers (names : List Identifier) :
    (names.map (total weight ∘ identifier)).sum = 0 :=
  sum_total_leaves (fun _ => rfl) names

@[simp]
theorem sum_total_expressions (values : List Expr) :
    (values.map (total weight ∘ expression)).sum = 0 :=
  sum_total_leaves (fun _ => rfl) values

@[simp]
theorem sum_total_bindings (bindings : List Binding) :
    (bindings.map (total weight ∘ binding)).sum = 0 :=
  sum_total_leaves (fun _ => rfl) bindings

/--
What a statement has in it is its own weight and what its children have in them.
-/
theorem total_eq_weight_add (part : Stmt) :
    part.total weight = weight part +
      ((ofStmt part).map (total weight)).sum := by
  cases part with
  | conditional condition positive negative? span =>
      cases negative? <;> simp [Stmt.total, ofStmt, total]
  | _ => simp [Stmt.total, ofStmt, total]

theorem total_child_le
    {parent child : Node}
    (member : child ∈ parent.children) :
    child.total weight ≤ (parent.children.map (total weight)).sum :=
  List.le_sum_of_mem (List.mem_map_of_mem member)

/-- The children of a node have no more in them than the node. -/
theorem sum_total_children_le (node : Node) :
    (node.children.map (total weight)).sum ≤ node.total weight := by
  cases node with
  | identifier => exact Nat.le_refl 0
  | expression value => cases value <;> simp [children, ofExpr, total]
  | binding bound => simp [children, total]
  | statement part =>
      rw [total, total_eq_weight_add]
      exact Nat.le_add_left _ _
  | block body =>
      cases body with
      | of statements span =>
          refine Nat.le_of_eq ?_
          rw [children, Block.statements, total, Block.total, List.map_map]
          induction statements with
          | nil => rfl
          | cons first rest hypothesis =>
              rw [List.map_cons, List.sum_cons, hypothesis, Stmt.totals]
              rfl

/-- The tree below a node of a tree has no more in it than the whole tree. -/
theorem Within.total_le
    {root node : Node}
    (inside : Within root node) :
    node.total weight ≤ root.total weight := by
  induction inside with
  | root => exact Nat.le_refl _
  | child _ member hypothesis =>
      exact Nat.le_trans
        ((total_child_le member).trans (sum_total_children_le _)) hypothesis

end Node

end Clipper
