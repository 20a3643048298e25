import Clipper.Grammar.Program
import Clipper.Proofs.Syntax.Bare
import Clipper.Syntax.Outline

/-!
# Suffixes of prefix operations

A listing puts a suffix behind the text of its target and a prefix operator in
front of the text of its operand, with no parentheses in either place.  So an
operation with a suffix and the operation on an operand with that suffix have
one text, and no reader can tell the two trees apart.

The reader takes the one in which the suffix belongs to the operand, because
it reads suffixes before it applies the prefix operator.  The other tree is
therefore lost when it is printed: its listing is read as a tree with another
outline.  The example is a message to a negated name, which the reader makes a
negated message; a printable expression has no such node.
-/

namespace Clipper

open Grammar

namespace Grammar

/-- The text of what follows a primary. -/
def SuffixForm.listing : SuffixForm → List Char
  | call arguments => '(' :: (commaSeparated (Expr.listings arguments) ++ [')'])
  | index position => '[' :: (position.listing ++ [']'])
  | property message => ':' :: message.listing
  | send message arguments =>
      ':' :: (message.listing ++ '(' ::
        (commaSeparated (Expr.listings arguments) ++ [')']))
  | field column => '-' :: '>' :: column.listing

theorem listing_suffix
    (target : Expr)
    (suffix : Suffix) :
    (suffix.apply target).listing = target.listing ++ suffix.form.listing := by
  obtain ⟨form, stop⟩ := suffix
  cases form with
  | _ => simp [Suffix.apply, Expr.listing, SuffixForm.listing]

/--
A suffix on a prefix operation is listed like
the operation on an operand with the suffix.
-/
theorem listing_suffix_of_prefix
    (operator : UnaryOperator)
    (operand : Expr)
    (suffix : Suffix)
    (span : Span) :
    (suffix.apply (.unary operator operand span)).listing =
        (Expr.unary operator (suffix.apply operand) span).listing ∧
      (suffix.apply (.unary operator operand span)).bare ≠
        (Expr.unary operator (suffix.apply operand) span).bare := by
  constructor
  · rw [listing_suffix, Expr.listing, Expr.listing, listing_suffix,
      List.append_assoc]
  · obtain ⟨form, stop⟩ := suffix
    cases form with
    | _ => simp [Suffix.apply, Expr.bare]

end Grammar

/--
A program without errors whose text has no error either and is another program.
-/
theorem listing_misread :
    let first := programOfText "(-a):b".toList
    let again := programOfText first.value.listing
    first.reports = [] ∧ again.reports = [] ∧
      first.value.outline = "Send(Neg(Ident(a)), b)\n".toList ∧
      again.value.outline = "Neg(Send(Ident(a), b))\n".toList := by
  decide +kernel

end Clipper
