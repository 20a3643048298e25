import Clipper.Syntax.Expression
/-!
# Statements, blocks and programs

The trees of statements.  A compound statement holds blocks, and a block holds
statements.  An `ELSEIF` is a conditional that stands alone in the block of the
conditional before it.

A block has a span of its own, since it may be empty and still stand
somewhere.  Routines are statements to the type, but the reader puts them at
the top of a program only.  The storage of a declaration tells `LOCAL` from
`STATIC`, and a routine may be marked as static as well.
-/

namespace Clipper

/--
How long the variables of a declaration
live: for one call, or for the whole run.
-/
inductive Storage where
  | perCall
  | static
deriving DecidableEq

/-- The two sorts of routines. -/
inductive RoutineKind where
  | function
  | procedure
deriving DecidableEq

/-- A declared name with its first value, if it has one. -/
structure Binding where
  name : Identifier
  value? : Option Expr
  span : Span

/-- The head of a routine: everything but its body. -/
structure RoutineHead where
  kind : RoutineKind
  isStatic : Bool
  name : Identifier
  parameters : List Identifier
deriving DecidableEq

mutual

/-- A statement. -/
inductive Stmt where
  | expression (value : Expr) (span : Span)
  | assign (target value : Expr) (span : Span)
  | update (target : Expr) (operator : UpdateOperator) (value : Expr)
      (span : Span)
  | print (newLine : Bool) (values : List Expr) (span : Span)
  | declare (storage : Storage) (bindings : List Binding) (span : Span)
  | result (value? : Option Expr) (span : Span)
  | conditional (condition : Expr) (positive : Block) (negative? : Option Block)
      (span : Span)
  | whileLoop (condition : Expr) (body : Block) (span : Span)
  | forLoop
      (counter : Identifier)
      (first last : Expr)
      (step? : Option Expr)
      (body : Block)
      (span : Span)
  | routine (head : RoutineHead) (body : Block) (span : Span)
  | exit (span : Span)
  | loop (span : Span)

/-- A run of statements. -/
inductive Block where
  | of (statements : List Stmt) (span : Span)

end

namespace Stmt

/-- The span of a statement. -/
def span : Stmt → Span
  | expression _ span
  | assign _ _ span
  | update _ _ _ span
  | print _ _ span
  | declare _ _ span
  | result _ span
  | conditional _ _ _ span
  | whileLoop _ _ span
  | forLoop _ _ _ _ _ span
  | routine _ _ span
  | exit span
  | loop span => span

end Stmt

namespace Block

/-- The statements of a block. -/
def statements : Block → List Stmt
  | of statements _ => statements

/-- The span of a block. -/
def span : Block → Span
  | of _ span => span

end Block

/--
A whole program: its statements in order, routines among them, and its span.
-/
structure Program where
  statements : List Stmt
  span : Span

namespace Program

/-- The routines of a program, in order. -/
def routines (program : Program) : List (RoutineHead × Block) :=
  program.statements.filterMap
    (fun
      | .routine head body _ => some (head, body)
      | _ => none)

end Program

end Clipper
