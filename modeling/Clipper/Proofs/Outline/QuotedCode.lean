import Mathlib.Data.Nat.Digits.Defs
import Clipper.Proofs.Lexeme.Words
import Clipper.Text.Quoted

/-!
# Quoted texts are read back

A quoted text tells what it quotes and where it ends, whatever stands behind it:
every character has a form of its own between the quotes, and none of these
forms begins with a quote or begins another one.  Characters that are written by
number end at a brace, which is no digit.

This is a prefix code, and so the statement is made with any rest behind the
quoted texts: if two quoted texts with rests are the same, then so are the
texts and the rests.  That form can be used by induction inside longer texts.
The characters with a form of their own are the quote, the backslash, the
usual control characters, and those that are not printed, which are given by
their number.
-/

namespace Clipper

/--
Texts that begin with runs of a kind agree in the runs and in what follows.
-/
theorem append_inj_of_runs
    {test : Char → Bool}
    {first second rest others : List Char}
    (inside : ∀ character ∈ first, test character = true)
    (outside : ∀ character ∈ rest.head?, test character = false)
    (insideToo : ∀ character ∈ second, test character = true)
    (outsideToo : ∀ character ∈ others.head?, test character = false)
    (same : first ++ rest = second ++ others) :
    first = second ∧ rest = others := by
  have runs := congrArg (List.takeWhile test) same
  rw [Lexeme.takeWhile_append_of_head inside outside,
    Lexeme.takeWhile_append_of_head insideToo outsideToo] at runs
  subst runs
  exact ⟨rfl, List.append_cancel_left same⟩

namespace Text

/-! ## Numbers in base sixteen -/

/-- Two digits in base sixteen that are written alike are the same. -/
theorem digitChar_injective
    {first second : Nat}
    (isDigit : first < 16)
    (isDigitToo : second < 16)
    (same : first.digitChar = second.digitChar) :
    first = second := by
  have alike : ∀ one < 16, ∀ other < 16,
      Nat.digitChar one = Nat.digitChar other → one = other := by
    decide
  exact alike first isDigit second isDigitToo same

/--
A number in base sixteen is its last digit
behind the digits of its sixteenth part.
-/
theorem hexadecimal_eq (value : Nat) :
    hexadecimal value =
      (if value < 16 then [] else hexadecimal (value / 16)) ++
        [(value % 16).digitChar] := by
  rw [hexadecimal, Nat.toDigits_eq_if (by decide)]
  split
  · next small => rw [Nat.mod_eq_of_lt small, List.nil_append]
  · rfl

/-- A number in base sixteen holds no brace. -/
theorem brace_not_mem_hexadecimal (value : Nat) :
    '\x7d' ∉ hexadecimal value := by
  induction value using Nat.strongRecOn with
  | ind value hypothesis =>
      have noDigit : ∀ digit < 16, '\x7d' ≠ Nat.digitChar digit := by decide
      rw [hexadecimal_eq, List.mem_append, not_or, List.mem_singleton]
      refine ⟨?_, noDigit _ (Nat.mod_lt _ (by decide))⟩
      split
      · exact List.not_mem_nil
      · exact hypothesis _ (by omega)

/--
A number in base sixteen tells the number that it stands for: the last digit
tells the remainder, and the others tell the quotient.
-/
theorem hexadecimal_injective : Function.Injective hexadecimal := by
  intro first
  induction first using Nat.strongRecOn with
  | ind first hypothesis =>
      intro second same
      rw [hexadecimal_eq first, hexadecimal_eq second] at same
      obtain ⟨heads, last⟩ := List.append_inj' same rfl
      have digits := digitChar_injective (Nat.mod_lt _ (by decide))
        (Nat.mod_lt _ (by decide))
        (List.singleton_inj.mp last)
      have nonempty (value : Nat) : hexadecimal value ≠ [] :=
        Nat.toDigits_ne_nil
      split at heads <;> split at heads
      · omega
      · exact absurd heads.symm (nonempty _)
      · exact absurd heads (nonempty _)
      · have quotients := hypothesis (first / 16) (by omega) heads
        omega

/-! ## Characters -/

/--
The characters that are escaped by name, with what stands behind the backslash.
-/
def namedEscapes : List (Char × Char) :=
  [('"', '"'), ('\\', '\\'), ('\t', 't'), ('\r', 'r'), ('\n', 'n'),
    ('\x00', '0')]

/-- The forms in which characters are written between quotes. -/
inductive Escaped (character : Char) : List Char → Prop where
  | named (mark : Char) (member : (character, mark) ∈ namedEscapes) :
      Escaped character ['\\', mark]
  | numbered :
      Escaped character
        ('\\' :: 'u' :: '\x7b' :: (hexadecimal character.toNat ++ ['\x7d']))
  | plain (noSlash : character ≠ '\\') (noQuote : character ≠ '"') : Escaped
      character [character]

/-- The way in which a character is written is one of the forms of the code. -/
theorem escaped_escape (character : Char) :
    Escaped character (escape character) := by
  have named {mark : Char} (member : (character, mark) ∈ namedEscapes) :
      Escaped character ['\\', mark] :=
    .named mark member
  unfold escape
  split
  · next same => exact named (by subst same; decide)
  split
  · next same => exact named (by subst same; decide)
  split
  · next same => exact named (by subst same; decide)
  split
  · next same => exact named (by subst same; decide)
  split
  · next same => exact named (by subst same; decide)
  split
  · next same => exact named (by subst same; decide)
  split
  · exact .numbered
  · next noQuote noSlash _ _ _ _ _ => exact .plain noSlash noQuote

/-- What is written tells the character and where it ends. -/
theorem Escaped.append_inj
    {first second : Char}
    {text other rest others : List Char}
    (escaped : Escaped first text)
    (escapedToo : Escaped second other)
    (same : text ++ rest = other ++ others) :
    first = second ∧ rest = others := by
  have marks : ∀ one ∈ namedEscapes, one.2 ≠ 'u' ∧
      ∀ other ∈ namedEscapes, one.2 = other.2 → one.1 = other.1 := by
    decide
  cases escaped with
  | named mark member =>
      cases escapedToo with
      | named markToo memberToo =>
          obtain ⟨sameMark, sameRest⟩ := List.cons.inj (List.cons.inj same).2
          exact ⟨(marks _ member).2 _ memberToo sameMark, sameRest⟩
      | numbered =>
          exact absurd (List.cons.inj (List.cons.inj same).2).1
            (marks _ member).1
      | plain noSlash => exact absurd (List.cons.inj same).1.symm noSlash
  | numbered =>
      cases escapedToo with
      | named markToo memberToo =>
          exact absurd (List.cons.inj (List.cons.inj same).2).1.symm
            (marks _ memberToo).1
      | numbered =>
          have numbers : hexadecimal first.toNat ++ ['\x7d'] ++ rest =
              hexadecimal second.toNat ++ ['\x7d'] ++ others :=
            (List.cons.inj (List.cons.inj (List.cons.inj same).2).2).2
          rw [List.append_assoc, List.append_assoc] at numbers
          have inside (value : Nat) : ∀ digit ∈ hexadecimal value,
              (digit != '\x7d') = true :=
            fun digit member => bne_iff_ne.mpr fun isBrace =>
              brace_not_mem_hexadecimal value (isBrace ▸ member)
          obtain ⟨digits, ends⟩ :=
            append_inj_of_runs (inside _) (by simp) (inside _) (by simp) numbers
          exact ⟨Char.toNat_inj.mp (hexadecimal_injective digits),
            (List.cons.inj ends).2⟩
      | plain noSlash => exact absurd (List.cons.inj same).1.symm noSlash
  | plain noSlash =>
      cases escapedToo with
      | named | numbered => exact absurd (List.cons.inj same).1 noSlash
      | plain => exact List.cons.inj same

/-- No character is written with a quote at its beginning. -/
theorem Escaped.ne_quote
    {character : Char}
    {text rest others : List Char}
    (escaped : Escaped character text) :
    text ++ rest ≠ '"' :: others := by
  intro same
  cases escaped with
  | named | numbered => exact absurd (List.cons.inj same).1 (by decide)
  | plain _ noQuote => exact noQuote (List.cons.inj same).1

/-- A quoted text tells the text and where it ends. -/
theorem quoted_append_inj
    {first second rest others : List Char}
    (same : quoted first ++ rest = quoted second ++ others) :
    first = second ∧ rest = others := by
  have inner : first.flatMap escape ++
      '"' :: rest = second.flatMap escape ++ '"' :: others := by
    simpa [quoted] using same
  clear same
  induction first generalizing second with
  | nil =>
      cases second with
      | nil => exact ⟨rfl, (List.cons.inj inner).2⟩
      | cons character second =>
          rw [List.flatMap_cons, List.append_assoc] at inner
          exact absurd inner.symm (escaped_escape character).ne_quote
  | cons character first hypothesis =>
      rw [List.flatMap_cons, List.append_assoc] at inner
      cases second with
      | nil => exact absurd inner (escaped_escape character).ne_quote
      | cons other second =>
          rw [List.flatMap_cons, List.append_assoc] at inner
          obtain ⟨rfl, later⟩ :=
            (escaped_escape character).append_inj (escaped_escape other) inner
          obtain ⟨rfl, ends⟩ := hypothesis later
          exact ⟨rfl, ends⟩

end Text

end Clipper
