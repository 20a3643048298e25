import Clipper.Proofs.Grammar.ExpressionPhrase

/-!
# Phrases with more levels left

What tokens spell with some levels left they also spell with more.  The phrases
of lists, primaries, suffixes and operators grow with the phrases they are made
of, and the numbers of levels follow by induction.

This is needed wherever a part of a program is read by itself: inside the
program it had as many levels left as its place allows, and alone it has all
of them.  The other direction does not hold, since a phrase that nests deeply
is spelled with enough levels only.  The levels are compared by an inequality,
so that both the whole and any part may be at any level.
-/

namespace Clipper.Grammar

variable {α : Type}

/-- Whatever tokens spell by the one phrase, they spell by the other. -/
def Phrase.Implies (phrase other : Phrase α) : Prop :=
  ∀ ⦃tokens value⦄, phrase tokens value → other tokens value

section

variable {phrase other : Phrase α} (implies : phrase.Implies other)

include implies

theorem SeparatedPhrase.mono :
    Phrase.Implies (SeparatedPhrase phrase) (SeparatedPhrase other) := by
  intro tokens values phrased
  induction phrased with
  | single only => exact .single (implies only)
  | further first separator _ hypothesis =>
      exact .further (implies first) separator hypothesis

theorem ListPhrase.mono :
    Phrase.Implies (ListPhrase phrase) (ListPhrase other) := by
  intro tokens values phrased
  cases phrased with
  | none => exact .none
  | some items => exact .some (SeparatedPhrase.mono implies items)

end

section

variable {phrase other : Phrase Expr} (implies : phrase.Implies other)

include implies

/--
A primary with nested phrases of one sort is one with nested
phrases of a weaker sort.
-/
theorem PrimaryPhrase.mono :
    Phrase.Implies (PrimaryPhrase phrase) (PrimaryPhrase other) := by
  intro tokens tree phrased
  cases phrased with
  | literal kind span => exact .literal kind span
  | name name span => exact .name name span
  | parenthesized opens between closes span =>
      exact .parenthesized opens (implies between) closes span
  | array opens between closes span =>
      exact .array opens (ListPhrase.mono implies between) closes span
  | codeBlock opens firstBars between secondBars after closes span =>
      exact .codeBlock opens firstBars between secondBars
        (ListPhrase.mono implies after) closes span

/-- The same holds of a primary with suffixes, by induction on the suffixes. -/
theorem SuffixedPhrase.mono :
    Phrase.Implies (SuffixedPhrase phrase) (SuffixedPhrase other) := by
  intro tokens tree phrased
  induction phrased with
  | primary primary => exact .primary (PrimaryPhrase.mono implies primary)
  | call _ noMessage opens between closes span hypothesis =>
      exact .call hypothesis noMessage opens
        (ListPhrase.mono implies between) closes span
  | index _ opens between closes span hypothesis =>
      exact .index hypothesis opens (implies between) closes span
  | property _ colons names span hypothesis =>
      exact .property hypothesis colons names span
  | send _ colons names opens between closes span hypothesis =>
      exact .send hypothesis colons names opens
        (ListPhrase.mono implies between) closes span
  | field _ arrows names span hypothesis =>
      exact .field hypothesis arrows names span

theorem ChainPhrase.mono (level : Nat) :
    Phrase.Implies (ChainPhrase level phrase) (ChainPhrase level other) := by
  intro tokens tree phrased
  induction phrased with
  | operand only => exact .operand (implies only)
  | join _ signs binds last span hypothesis =>
      exact .join hypothesis signs binds (implies last) span

theorem BinaryPhrase.mono :
    Phrase.Implies (BinaryPhrase phrase) (BinaryPhrase other) :=
  ChainPhrase.mono
    (ChainPhrase.mono
      (ChainPhrase.mono (ChainPhrase.mono
        (ChainPhrase.mono (ChainPhrase.mono implies 6) 5) 4) 3) 2)
    1

end

/-- The same holds of prefix operators. -/
theorem PrefixedPhrase.mono
    {deeper deeperOther nested nestedOther : Phrase Expr}
    (impliesDeeper : deeper.Implies deeperOther)
    (implies : nested.Implies nestedOther) :
    Phrase.Implies (PrefixedPhrase deeper nested)
      (PrefixedPhrase deeperOther nestedOther) := by
  intro tokens tree phrased
  cases phrased with
  | operator signs after span =>
      exact .operator signs (impliesDeeper after) span
  | suffixed suffixed => exact .suffixed (SuffixedPhrase.mono implies suffixed)

/-! ## Levels -/

theorem Phrase.never_implies (phrase : Phrase α) :
    Phrase.never.Implies phrase :=
  fun _ _ impossible => impossible.elim

/-- An operand that nests in some levels nests in more. -/
theorem OperandPhrase.mono
    {levels more : Nat}
    (le : levels ≤ more) :
    (OperandPhrase levels).Implies (OperandPhrase more) := by
  induction levels generalizing more with
  | zero =>
      cases more with
      | zero => exact fun _ _ phrased => phrased
      | succ more =>
          exact PrefixedPhrase.mono (Phrase.never_implies _)
            (Phrase.never_implies _)
  | succ levels hypothesis =>
      cases more with
      | zero => exact absurd le (Nat.not_succ_le_zero levels)
      | succ more =>
          have implies := hypothesis (Nat.le_of_succ_le_succ le)
          exact PrefixedPhrase.mono implies (BinaryPhrase.mono implies)

/-- An expression that nests in some levels nests in more. -/
theorem ExpressionPhrase.mono
    {levels more : Nat}
    (le : levels ≤ more) :
    (ExpressionPhrase levels).Implies (ExpressionPhrase more) := by
  cases levels with
  | zero => exact Phrase.never_implies _
  | succ levels =>
      cases more with
      | zero => exact absurd le (Nat.not_succ_le_zero levels)
      | succ more =>
          exact BinaryPhrase.mono
            (OperandPhrase.mono (Nat.le_of_succ_le_succ le))

theorem binary_of_operand (phrase : Phrase Expr) :
    phrase.Implies (BinaryPhrase phrase) :=
  fun _ _ phrased =>
    .operand (.operand (.operand (.operand (.operand (.operand phrased)))))

end Clipper.Grammar
