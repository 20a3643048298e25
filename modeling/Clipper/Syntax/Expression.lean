import Clipper.Source.Span
import Clipper.Syntax.Operator
/-!
# Expressions

The tree of an expression.  Every node carries the span of the text it was read
from.  A reader that finds no expression puts a placeholder in its place: an
identifier whose name no text can spell.

A name, an element, a message or a field may be assigned to, with arguments as
well as without; operations, calls and literals may not.  The placeholder can
be told from every name of a source text, so it never counts as something that
was read; that its name cannot be spelled is what the laws on words rely on.
-/

namespace Clipper

/-- A name and where it stands; a scoped name keeps its two colons. -/
structure Identifier where
  name : String
  span : Span
deriving DecidableEq, Inhabited

namespace Identifier

/-- The name of every placeholder. -/
def placeholderName : String :=
  "<missing>"

/-- The placeholder for a name that was expected at an offset. -/
def placeholder (offset : Nat) : Identifier :=
  ⟨placeholderName, Span.empty offset⟩

/-- Whether a name is the name of the placeholders. -/
def isPlaceholder (identifier : Identifier) : Bool :=
  identifier.name == placeholderName

end Identifier

/-- The sorts of literals. -/
inductive LiteralKind where
  | number
  | string
  | nil
  | logical
deriving DecidableEq

/-- The name of a sort of literals in outlines and records. -/
def LiteralKind.name : LiteralKind → String
  | number => "Number"
  | string => "String"
  | nil => "Nil"
  | logical => "Boolean"

/--
A literal: a number as it is written, the content of a string, or the one
spelling of a constant.
-/
structure Literal where
  kind : LiteralKind
  text : String
deriving DecidableEq

/--
An expression.  A message without parentheses
is a `property`, one with them a `send`.
-/
inductive Expr where
  | literal (literal : Literal) (span : Span)
  | name (identifier : Identifier) (span : Span)
  | unary (operator : UnaryOperator) (operand : Expr) (span : Span)
  | binary (operator : BinaryOperator) (left right : Expr) (span : Span)
  | call (callee : Expr) (arguments : List Expr) (span : Span)
  | index (target position : Expr) (span : Span)
  | array (elements : List Expr) (span : Span)
  | property (receiver : Expr) (message : Identifier) (span : Span)
  | send (receiver : Expr) (message : Identifier) (arguments : List Expr)
      (span : Span)
  | field (area : Expr) (column : Identifier) (span : Span)
  | codeBlock (parameters : List Identifier) (body : List Expr) (span : Span)
deriving Inhabited

namespace Expr

/-- The span of an expression. -/
def span : Expr → Span
  | literal _ span
  | name _ span
  | unary _ _ span
  | binary _ _ _ span
  | call _ _ span
  | index _ _ span
  | array _ span
  | property _ _ span
  | send _ _ _ span
  | field _ _ span
  | codeBlock _ _ span => span

/-- The same expression with another span at its root. -/
def withSpan : Expr → Span → Expr
  | literal value _, span => literal value span
  | name identifier _, span => name identifier span
  | unary operator operand _, span => unary operator operand span
  | binary operator left right _, span => binary operator left right span
  | call callee arguments _, span => call callee arguments span
  | index target position _, span => index target position span
  | array elements _, span => array elements span
  | property receiver message _, span => property receiver message span
  | send receiver message arguments _, span =>
      send receiver message arguments span
  | field area column _, span => field area column span
  | codeBlock parameters body _, span => codeBlock parameters body span

@[simp]
theorem span_withSpan
    (expression : Expr)
    (span : Span) :
    (expression.withSpan span).span = span := by
  cases expression <;> rfl

/-- The expression that is a name. -/
def ofIdentifier (identifier : Identifier) : Expr :=
  name identifier identifier.span

/-- The placeholder for an expression that was expected at an offset. -/
def placeholder (offset : Nat) : Expr :=
  ofIdentifier (Identifier.placeholder offset)

/-- Whether an expression is a placeholder. -/
def isPlaceholder : Expr → Bool
  | name identifier _ => identifier.isPlaceholder
  | _ => false

/-- Whether an expression may stand on the left of an assignment. -/
def isAssignable : Expr → Bool
  | name .. | index .. | property .. | send .. | field .. => true
  | _ => false

end Expr

end Clipper
