import Clipper.Syntax.Expression

/-!
# Expressions without their spans

Two expressions are the same up to spans when they are equal bare.

To make an expression bare is to set all its spans to zero.  The law on spans
that are set on the outside is all that is needed of it: the rules of the
grammar set the span of an expression when they put parentheses around it, and
that does not show in the bare expression.

Bare expressions are compared with equality, which spares the proofs on
completeness a relation between trees: the grammar of phrases leaves spans
free, and what a rule reads is then said to have the bare form of the phrase.
-/

namespace Clipper

/-- A name at no place in particular. -/
def Identifier.bare (identifier : Identifier) : Identifier :=
  ⟨identifier.name, Span.empty 0⟩

namespace Expr

mutual

/-- An expression with every span in it replaced by one and the same span. -/
def bare : Expr → Expr
  | literal value _ => literal value (Span.empty 0)
  | name identifier _ => name identifier.bare (Span.empty 0)
  | unary operator operand _ => unary operator operand.bare (Span.empty 0)
  | binary operator left right _ =>
      binary operator left.bare right.bare (Span.empty 0)
  | call callee arguments _ =>
      call callee.bare (bareAll arguments) (Span.empty 0)
  | index target position _ => index target.bare position.bare (Span.empty 0)
  | array elements _ => array (bareAll elements) (Span.empty 0)
  | property receiver message _ =>
      property receiver.bare message.bare (Span.empty 0)
  | send receiver message arguments _ =>
      send receiver.bare message.bare (bareAll arguments) (Span.empty 0)
  | field area column _ => field area.bare column.bare (Span.empty 0)
  | codeBlock parameters body _ =>
      codeBlock (parameters.map Identifier.bare) (bareAll body) (Span.empty 0)

/-- Several expressions without their spans. -/
def bareAll : List Expr → List Expr
  | [] => []
  | first :: rest => first.bare :: bareAll rest

end

@[simp]
theorem bareAll_eq_map (expressions : List Expr) :
    bareAll expressions = expressions.map bare := by
  induction expressions with
  | nil => rfl
  | cons first rest hypothesis =>
      rw [bareAll, hypothesis, List.map_cons]

@[simp]
theorem bare_withSpan
    (expression : Expr)
    (span : Span) :
    (expression.withSpan span).bare = expression.bare := by
  cases expression <;> simp [withSpan, bare]

end Expr

end Clipper
