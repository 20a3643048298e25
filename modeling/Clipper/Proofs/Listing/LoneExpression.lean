import Clipper.Proofs.Listing.ExpressionReading
import Clipper.Proofs.Listing.ExpressionText
import Clipper.Proofs.SpansExact

/-!
# A printed expression is read back

The text of an expression is read as this expression, up to spans, wherever the
expression is printable and has one level less than the limit.

The three parts of the proof come from other modules: the text of the
expression spells its tokens, these tokens are a phrase that stands for the
expression, and the grammar reads every such phrase that is not nested too
deeply.  The limit counts one level for the expression itself, and one for
each level at which it nests.  What the reader gives differs from the
expression in spans only.
-/

namespace Clipper

open Grammar
open Lexeme (all)
open Relabelled (relabel)

/-- Tokens are alike to what they are without their places. -/
theorem Token.forall₂_alike_of_blind
    {first second : List Token}
    (same : first.map (relabel .blind) = second) :
    List.Forall₂ Token.Alike first second := by
  rw [← List.forall₂_eq_eq_eq, List.forall₂_map_left_iff] at same
  refine same.imp fun one other isOther => ?_
  subst isOther
  exact ⟨rfl, rfl⟩

/--
The text of a printable expression with less levels than the limit is read
without a report, and what is read is the expression, up to spans.
-/
theorem expressionOfText_listing
    (value : Expr)
    (printable : value.isPrintable = true)
    (shallow : value.levels ≤ nestingLimit - 1) :
    (expressionOfText value.listing).reports = [] ∧
      (expressionOfText value.listing).value.bare = value.bare := by
  obtain ⟨body, shape, noEnd⟩ := Lexeme.exists_body value.listing
  have spelled : ExpressionPhrase nestingLimit value.tokens value :=
    expressionPhrase_of_operand (value.operandPhrase printable shallow)
  have unplaced := Lexeme.tokens_all_of_spells (value.spells printable) rfl
  rw [shape, Lexeme.tokens, List.map_append, List.map_append] at unplaced
  have alike : List.Forall₂ Token.Alike (Lexeme.tokens body) value.tokens :=
    Token.forall₂_alike_of_blind (List.append_inj_left' unplaced rfl)
  rw [expressionOfText, shape, Lexeme.tokens, List.map_append]
  exact bare_loneExpression_of_spelled spelled alike noEnd rfl

/-- A column of a message with a code block, to an element of an operation. -/
theorem expressionOfText_listing_operation :
    let place := Span.empty 0
    let name := fun text => Identifier.mk text place
    let named := fun text => Expr.name (name text) place
    let number := fun text => Expr.literal ⟨.number, text⟩ place
    let elements := [number "1.5", .literal ⟨.string, "a\"b"⟩ place]
    let operation :=
      Expr.binary .add (.unary .negate (named "x") place)
        (.array elements place) place
    let element := Expr.index operation (.literal ⟨.nil, "NIL"⟩ place) place
    let block := Expr.codeBlock [name "p"] [named "::p"] place
    let value := Expr.field (.send element (name "m") [block] place)
      (name "f") place
    value.listing =
      "(-x + \x7b1.5, \"a\"\"b\"\x7d)[NIL]:m(\x7b|p| ::p\x7d)->f".toList ∧
      value.isPrintable = true ∧ value.levels ≤ nestingLimit - 1 ∧
        (expressionOfText value.listing).reports = [] ∧
          (expressionOfText value.listing).value.bare = value.bare := by
  intro place name named number elements operation element block value
  have printable : value.isPrintable = true := by decide +kernel
  have shallow : value.levels ≤ nestingLimit - 1 := by decide +kernel
  exact ⟨by decide +kernel, printable, shallow,
    expressionOfText_listing value printable shallow⟩

end Clipper
