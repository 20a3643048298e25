import Clipper.Proofs.Grammar.ExpressionComplete
import Clipper.Proofs.Listing.Tokens
import Clipper.Proofs.Syntax.Total

/-!
# Printable programs

A listing shows every statement on a line of its own and every binary operation
between parentheses, but a reader knows no lines, and prefix operations and
messages stand without parentheses.  A program is printable when none of this
matters: no operation with a suffix is a prefix operation, no message without
arguments is called, no string holds what a string cannot hold, every statement
ends where the next one begins, and the parentheses do not nest too deeply.

The condition is a computed one, so it can be evaluated for a program at hand.
Its clauses are found by going through the forms of statements and expressions
and asking, for each, where its text could be read in another way.  That it is
strong enough is the theorem on the reading of a listing; and that the first
clause cannot be dropped is shown by a message to a negated name.
-/

namespace Clipper

open Grammar Lexeme

/-! ## Expressions -/

namespace Identifier

/-- Whether the text of a name is an identifier without a scope. -/
def isPlain (identifier : Identifier) : Bool :=
  isPlainName identifier.name.toList && (Word.reserved? identifier.name).isNone

/-- Whether the text of a name is an identifier. -/
def isPrintable (identifier : Identifier) : Bool :=
  identifier.isPlain || isScopedName identifier.name.toList

end Identifier

/-- Whether the text of a literal is a token that stands for it. -/
def Literal.isPrintable (literal : Literal) : Bool :=
  match literal.kind with
  | .number => isNumeral literal.text.toList
  | .string => isQuotable literal.text.toList
  | .nil => literal.text == "NIL"
  | .logical => literal.text == ".T." || literal.text == ".F."

namespace Expr

/-- Whether an expression is a prefix operation. -/
def isUnary : Expr → Bool
  | unary .. => true
  | _ => false

/-- Whether an expression is a message without arguments. -/
def isProperty : Expr → Bool
  | property .. => true
  | _ => false

mutual

/--
Whether the text of an expression is read as
the expression, if it is not nested too deeply.
-/
def isPrintable : Expr → Bool
  | literal value _ => value.isPrintable
  | name identifier _ => identifier.isPrintable
  | unary _ operand _ => operand.isPrintable
  | binary _ left right _ => left.isPrintable && right.isPrintable
  | call callee arguments _ =>
      callee.isPrintable && !callee.isUnary && !callee.isProperty &&
        arePrintable arguments
  | index target position _ =>
      target.isPrintable && !target.isUnary && position.isPrintable
  | array elements _ => arePrintable elements
  | property receiver message _ =>
      receiver.isPrintable && !receiver.isUnary && message.isPlain
  | send receiver message arguments _ =>
      receiver.isPrintable && !receiver.isUnary && message.isPlain &&
        arePrintable arguments
  | field area column _ =>
      area.isPrintable && !area.isUnary && column.isPrintable
  | codeBlock parameters body _ =>
      parameters.all Identifier.isPrintable && arePrintable body

/-- Whether several expressions are printable. -/
def arePrintable : List Expr → Bool
  | [] => true
  | first :: rest => first.isPrintable && arePrintable rest

end

mutual

/-- How many levels the text of an expression nests below its own. -/
def levels : Expr → Nat
  | literal _ _ | name _ _ => 0
  | unary _ operand _ => operand.levels + 1
  | binary _ left right _ => max left.levels right.levels + 1
  | call callee arguments _ => max callee.levels (levelsInside arguments)
  | index target position _ => max target.levels (position.levels + 1)
  | array elements _ => levelsInside elements
  | property receiver _ _ => receiver.levels
  | send receiver _ arguments _ => max receiver.levels (levelsInside arguments)
  | field area _ _ => area.levels
  | codeBlock _ body _ => levelsInside body

/-- How many levels several expressions take, their own included. -/
def levelsInside : List Expr → Nat
  | [] => 0
  | first :: rest => max (first.levels + 1) (levelsInside rest)

end

theorem levelsInside_le_iff
    (values : List Expr)
    (bound : Nat) :
    levelsInside values ≤ bound ↔ ∀ value ∈ values, value.levels < bound := by
  induction values with
  | nil => simp [levelsInside]
  | cons first rest hypothesis =>
      rw [levelsInside, Nat.max_le, hypothesis, Nat.succ_le_iff,
        List.forall_mem_cons]

end Expr

/-! ## Statements -/

/-- Whether a declared name is printable with its value. -/
def Binding.isPrintable (binding : Binding) : Bool :=
  binding.name.isPrintable && binding.value?.all Expr.isPrintable

/-- Whether the head of a routine is printable. -/
def RoutineHead.isPrintable (head : RoutineHead) : Bool :=
  head.name.isPrintable && head.parameters.all Identifier.isPrintable

/--
The tokens that go on with an expression,
or with the statement in which it stands.
-/
def goesOn (kind : TokenKind) : Bool :=
  opensSuffix kind || (BinaryOperator.ofKind? kind).isSome ||
    (UpdateOperator.ofKind? kind).isSome ||
    [.assign, .comma, .semicolon, .thenWord, .doWord, .step].contains kind

/-- Whether a statement ends where these tokens follow it. -/
def Stmt.endsBefore
    (after : List Token) :
    Stmt → Bool
  | .expression .. | .assign .. | .update .. | .declare .. | .result (some _) _
  | .print _ (_ :: _) _ => !goesOn (headKind after)
  | .result none _ | .print _ [] _ =>
      !opensExpression (headKind after) && headKind after != .semicolon
  | .exit _ | .loop _ => headKind after != .semicolon
  | .forLoop counter .. =>
      !after.head?.any (fun token =>
        token.kind == .identifier &&
          Source.sameIgnoringCase token.lexeme counter.name)
  | .conditional .. | .whileLoop .. | .routine .. => true

/-- Whether an expression ends where a block follows it. -/
def Block.endsExpression (block : Block) : Bool :=
  !goesOn (headKind block.tokens)

mutual

/--
Whether the text of a statement is read as the
statement, if it is not nested too deeply.
-/
def Stmt.isPrintable : Stmt → Bool
  | .expression value _ => value.isPrintable
  | .assign target value _ =>
      target.isPrintable && target.isAssignable && value.isPrintable
  | .update target _ value _ =>
      target.isPrintable && target.isAssignable && value.isPrintable
  | .print _ values _ => Expr.arePrintable values
  | .declare _ bindings _ =>
      !bindings.isEmpty && bindings.all Binding.isPrintable
  | .result value? _ => value?.all Expr.isPrintable
  | .conditional condition positive none _ =>
      condition.isPrintable && positive.endsExpression && positive.isPrintable
  | .conditional condition positive (some negative) _ =>
      condition.isPrintable && positive.endsExpression &&
        positive.isPrintable &&
        negative.isPrintable
  | .whileLoop condition body _ =>
      condition.isPrintable && body.endsExpression && body.isPrintable
  | .forLoop counter first last step? body _ =>
      counter.isPrintable && first.isPrintable && last.isPrintable &&
        step?.all Expr.isPrintable && body.endsExpression && body.isPrintable
  | .routine head body _ => head.isPrintable && body.isPrintable
  | .exit _ | .loop _ => true

/-- Whether a block is printable; no routine stands in it. -/
def Block.isPrintable : Block → Bool
  | .of statements _ =>
      statements.all (fun statement => !statement.isRoutine) &&
        Stmt.arePrintable statements

/--
Whether several statements are printable,
and each ends where the next one begins.
-/
def Stmt.arePrintable : List Stmt → Bool
  | [] => true
  | first :: rest =>
      first.isPrintable && first.endsBefore (Stmt.tokensOf rest) &&
        Stmt.arePrintable rest

end

mutual

/-- How many levels a statement needs for its expressions and blocks. -/
def Stmt.levels : Stmt → Nat
  | .expression value _ => Expr.levelsInside [value]
  | .assign target value _ => Expr.levelsInside [target, value]
  | .update target _ value _ => Expr.levelsInside [target, value]
  | .print _ values _ => Expr.levelsInside values
  | .declare _ bindings _ =>
      Expr.levelsInside (bindings.filterMap Binding.value?)
  | .result value? _ => Expr.levelsInside value?.toList
  | .conditional condition positive none _ =>
      max (Expr.levelsInside [condition]) positive.levels
  | .conditional condition positive (some negative) _ =>
      max (Expr.levelsInside [condition]) (max positive.levels negative.levels)
  | .whileLoop condition body _ =>
      max (Expr.levelsInside [condition]) body.levels
  | .forLoop _ first last step? body _ =>
      max (Expr.levelsInside (first :: last :: step?.toList)) body.levels
  | .routine _ body _ => body.levels
  | .exit _ | .loop _ => 0

/-- How many levels a block takes, its own included. -/
def Block.levels : Block → Nat
  | .of statements _ => Stmt.levelsOf statements + 1

/-- How many levels several statements need. -/
def Stmt.levelsOf : List Stmt → Nat
  | [] => 0
  | first :: rest => max first.levels (Stmt.levelsOf rest)

end

/-- Whether the text of a program is read as the program. -/
def Program.isPrintable (program : Program) : Bool :=
  Stmt.arePrintable program.statements &&
    decide (Stmt.levelsOf program.statements ≤ nestingLimit)

end Clipper
