import Clipper.Proofs.Syntax.Relabelling
import Clipper.Syntax.Listing
import Clipper.Syntax.Outline

/-!
# Programs without their places

The blind relabelling moves all offsets to zero and keeps all texts.  What is
equal after it is equal up to places; the outline of a program tells no more,
and neither does its listing, which any relabelling keeps that keeps the texts.

A relabelling that keeps texts changes offsets only, and the blind one is the
extreme case, in which no offset is left to be told apart.  It is used in both
directions: two programs with equal blind forms have one outline, and to show
that two readings agree it is enough to compare their blind forms.
-/

namespace Clipper

open Relabelled (relabel)

/-- The relabelling that moves all offsets to zero and keeps all texts. -/
def Relabelling.blind : Relabelling :=
  { Relabelling.same with
    offset := fun _ => 0
    offset_monotone := monotone_const
    offset_zero := rfl }

@[simp]
theorem relabel_blind_nat (offset : Nat) : relabel .blind offset = 0 :=
  rfl

@[simp]
theorem relabel_blind_span (span : Span) : relabel .blind span = Span.empty 0 :=
  rfl

/-- A relabelling that keeps the texts of all tokens of the language. -/
class Relabelling.KeepsTexts (change : Relabelling) : Prop where
  lexeme_eq : ∀ kind text, kind ≠ .error → change.lexeme kind text = text

instance : Relabelling.blind.KeepsTexts :=
  ⟨fun _ _ _ => rfl⟩

section

variable (change : Relabelling)

@[simp]
theorem name_relabel
    [change.KeepsTexts]
    (name : Identifier) :
    (relabel change name).name = name.name :=
  Relabelling.KeepsTexts.lexeme_eq .identifier name.name (by decide)

@[simp]
theorem listing_relabel
    [change.KeepsTexts]
    (name : Identifier) :
    (relabel change name).listing = name.listing :=
  congrArg String.toList (name_relabel change name)

@[simp]
theorem listings_relabel
    [change.KeepsTexts]
    (names : List Identifier) :
    names.map (Identifier.listing ∘ relabel change) =
      names.map Identifier.listing := by
  simp [Function.comp_def]

/-- A literal has no places, so it stays as it is when texts are kept. -/
@[simp]
theorem relabel_literal_eq
    [change.KeepsTexts]
    (literal : Literal) :
    relabel change literal = literal := by
  rcases literal with ⟨kind, text⟩
  cases kind with
  | number =>
      exact congrArg (Literal.mk .number)
        (Relabelling.KeepsTexts.lexeme_eq .number text (by decide))
  | string =>
      exact congrArg (Literal.mk .string)
        (Relabelling.KeepsTexts.lexeme_eq .string text (by decide))
  | _ => rfl

/-! ## Outlines -/

mutual

/--
The outline of an expression does not tell its places.  The induction follows
the expression, with its lists of parts.
-/
@[simp]
theorem outline_relabel_expr
    [change.KeepsTexts]
    (value : Expr) :
    (relabel change value).outline = value.outline := by
  cases value with
  | literal => simp [Expr.outline]
  | name => simp [Expr.outline]
  | unary _ operand => simp [Expr.outline, outline_relabel_expr operand]
  | binary _ left right =>
      simp [Expr.outline, outline_relabel_expr left, outline_relabel_expr right]
  | call callee arguments =>
      simp [Expr.outline, outline_relabel_expr callee,
        outlines_relabel_exprs arguments]
  | index target position =>
      simp [Expr.outline, outline_relabel_expr target,
        outline_relabel_expr position]
  | array elements => simp [Expr.outline, outlines_relabel_exprs elements]
  | property receiver => simp [Expr.outline, outline_relabel_expr receiver]
  | send receiver _ arguments =>
      simp [Expr.outline, outline_relabel_expr receiver,
        outlines_relabel_exprs arguments]
  | field area => simp [Expr.outline, outline_relabel_expr area]
  | codeBlock _ body => simp [Expr.outline, outlines_relabel_exprs body]

theorem outlines_relabel_exprs
    [change.KeepsTexts]
    (values : List Expr) :
    Expr.outlines (values.map (relabel change)) = Expr.outlines values := by
  cases values with
  | nil => rfl
  | cons first rest =>
      rw [List.map_cons, Expr.outlines, Expr.outlines,
        outline_relabel_expr first, outlines_relabel_exprs rest]

end

attribute [simp] outlines_relabel_exprs

@[simp]
theorem outline_relabel_binding
    [change.KeepsTexts]
    (binding : Binding) :
    (relabel change binding).outline = binding.outline := by
  rcases binding with ⟨name, value?, span⟩
  cases value? <;> simp [Binding.outline]

@[simp]
theorem outline_relabel_head
    [change.KeepsTexts]
    (head : RoutineHead) :
    (relabel change head).outline = head.outline := by
  cases head
  simp only [RoutineHead.outline, relabel_routineHead, listing_relabel,
    relabel_list, List.map_map, listings_relabel]

mutual

/-- The outline of a statement does not tell its places, at any level. -/
theorem outline_relabel_stmt
    [change.KeepsTexts]
    (level : Nat)
    (statement : Stmt) :
    (relabel change statement).outline level = statement.outline level := by
  cases statement with
  | conditional _ positive negative? =>
      cases negative? with
      | none => simp [Stmt.outline, outline_relabel_block _ positive]
      | some negative =>
          simp [Stmt.outline, outline_relabel_block _ positive,
            outline_relabel_block _ negative]
  | whileLoop _ body => simp [Stmt.outline, outline_relabel_block _ body]
  | forLoop _ _ _ step? body =>
      cases step? <;> simp [Stmt.outline, outline_relabel_block _ body]
  | routine _ body => simp [Stmt.outline, outline_relabel_block _ body]
  | result value? => cases value? <;> simp [Stmt.outline]
  | _ => simp [Stmt.outline, Function.comp_def]

theorem outline_relabel_block
    [change.KeepsTexts]
    (level : Nat)
    (block : Block) :
    (relabel change block).outline level = block.outline level := by
  cases block with
  | of statements => simp [Block.outline, outlines_relabel_stmts _ statements]

/-- An outline does not tell where a program stands. -/
theorem outlines_relabel_stmts
    [change.KeepsTexts]
    (level : Nat)
    (statements : List Stmt) :
    Stmt.outlines level (statements.map (relabel change)) =
      Stmt.outlines level statements := by
  cases statements with
  | nil => rfl
  | cons first rest =>
      rw [List.map_cons, Stmt.outlines, Stmt.outlines,
        outline_relabel_stmt _ first, outlines_relabel_stmts _ rest]

end

/-- What is equal up to places has equal outlines. -/
theorem outlines_eq_of_blind
    {first second : List Stmt}
    (alike : first.map (relabel .blind) = second.map (relabel .blind))
    (level : Nat) :
    Stmt.outlines level first = Stmt.outlines level second := by
  rw [← outlines_relabel_stmts .blind, alike, outlines_relabel_stmts]

/--
The outline of two lists of statements is that of the first, and
then that of the second.
-/
theorem outlines_append
    (level : Nat)
    (first second : List Stmt) :
    Stmt.outlines level (first ++ second) =
      Stmt.outlines level first ++ Stmt.outlines level second := by
  induction first with
  | nil => rfl
  | cons statement rest hypothesis =>
      rw [List.cons_append, Stmt.outlines, Stmt.outlines, hypothesis,
        List.append_assoc]

/-! ## Listings -/

mutual

/-- The listing of an expression does not tell its places. -/
@[simp]
theorem listing_relabel_expr
    [change.KeepsTexts]
    (value : Expr) :
    (relabel change value).listing = value.listing := by
  cases value with
  | literal => simp [Expr.listing]
  | name => simp [Expr.listing]
  | unary _ operand => simp [Expr.listing, listing_relabel_expr operand]
  | binary _ left right =>
      simp [Expr.listing, listing_relabel_expr left, listing_relabel_expr right]
  | call callee arguments =>
      simp [Expr.listing, listing_relabel_expr callee,
        listings_relabel_exprs arguments]
  | index target position =>
      simp [Expr.listing, listing_relabel_expr target,
        listing_relabel_expr position]
  | array elements => simp [Expr.listing, listings_relabel_exprs elements]
  | property receiver => simp [Expr.listing, listing_relabel_expr receiver]
  | send receiver _ arguments =>
      simp [Expr.listing, listing_relabel_expr receiver,
        listings_relabel_exprs arguments]
  | field area => simp [Expr.listing, listing_relabel_expr area]
  | codeBlock _ body => simp [Expr.listing, listings_relabel_exprs body]

@[simp]
theorem listings_relabel_exprs
    [change.KeepsTexts]
    (values : List Expr) :
    Expr.listings (values.map (relabel change)) = Expr.listings values := by
  cases values with
  | nil => rfl
  | cons first rest =>
      rw [List.map_cons, Expr.listings, Expr.listings,
        listing_relabel_expr first, listings_relabel_exprs rest]

end

@[simp]
theorem listing_relabel_binding
    [change.KeepsTexts]
    (binding : Binding) :
    (relabel change binding).listing = binding.listing := by
  rcases binding with ⟨name, value?, span⟩
  cases value? <;> simp [Binding.listing]

@[simp]
theorem listing_relabel_head
    [change.KeepsTexts]
    (head : RoutineHead) :
    (relabel change head).listing = head.listing := by
  cases head
  simp only [RoutineHead.listing, relabel_routineHead, listing_relabel,
    relabel_list, List.map_map, listings_relabel]

mutual

/-- The listing of a statement does not tell its places. -/
@[simp]
theorem listing_relabel_stmt
    [change.KeepsTexts]
    (statement : Stmt) :
    (relabel change statement).listing = statement.listing := by
  cases statement with
  | conditional condition positive negative? =>
      rw [relabel_conditional, Stmt.listing.eq_def, Stmt.listing.eq_def]
      cases negative? with
      | none =>
          dsimp only [relabel_option, Option.map_none]
          rw [listing_relabel_expr, listings_relabel_block positive]
      | some negative =>
          dsimp only [relabel_option, Option.map_some]
          rw [listing_relabel_expr, listings_relabel_block positive,
            listings_relabel_block negative]
  | whileLoop condition body =>
      rw [relabel_whileLoop, Stmt.listing.eq_def, Stmt.listing.eq_def]
      dsimp only
      rw [listing_relabel_expr, listings_relabel_block body]
  | forLoop counter first last step? body =>
      rw [relabel_forLoop, Stmt.listing.eq_def, Stmt.listing.eq_def]
      dsimp only
      rw [listing_relabel, listing_relabel_expr, listing_relabel_expr,
        listings_relabel_block body]
      cases step? with
      | none => rfl
      | some step =>
          dsimp only [relabel_option, Option.map_some]
          rw [listing_relabel_expr change step]
  | routine head body =>
      rw [relabel_routine, Stmt.listing.eq_def, Stmt.listing.eq_def]
      dsimp only
      rw [listing_relabel_head, listings_relabel_block body]
      rfl
  | result value? =>
      rw [relabel_result, Stmt.listing.eq_def, Stmt.listing.eq_def]
      cases value? with
      | none => rfl
      | some value =>
          dsimp only [relabel_option, Option.map_some]
          rw [listing_relabel_expr]
  | _ =>
      rw [Stmt.listing.eq_def, Stmt.listing.eq_def]
      simp [Function.comp_def]

@[simp]
theorem listings_relabel_block
    [change.KeepsTexts]
    (block : Block) :
    (relabel change block).listings = block.listings := by
  cases block with
  | of statements => simp [Block.listings, listings_relabel_stmts statements]

/-- The listings of statements do not tell their places. -/
@[simp]
theorem listings_relabel_stmts
    [change.KeepsTexts]
    (statements : List Stmt) :
    Stmt.listings (statements.map (relabel change)) =
      Stmt.listings statements := by
  cases statements with
  | nil => rfl
  | cons first rest =>
      rw [List.map_cons, Stmt.listings, Stmt.listings,
        listing_relabel_stmt first, listings_relabel_stmts rest]

end

/-- What is equal up to places has equal listings. -/
theorem listing_eq_of_blind
    {first second : Program}
    (alike : relabel .blind first = relabel .blind second) :
    first.listing = second.listing := by
  have statements :
      first.statements.map (relabel .blind) =
        second.statements.map (relabel .blind) :=
    congrArg Program.statements alike
  have listings := congrArg Stmt.listings statements
  rw [listings_relabel_stmts, listings_relabel_stmts] at listings
  rw [Program.listing, Program.listing, listings]

end

end Clipper
