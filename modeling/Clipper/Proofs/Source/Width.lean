import Clipper.Source.Text

/-!
# Widths and boundaries of a text

A piece of text that has a character has a width.  A boundary of a text is an
offset between two of its characters.  Skipping characters moves a cut by the
width of the characters that are skipped.

Offsets of the program are byte offsets, and proofs go by characters.  The
lemmas here carry facts from one to the other: widths add up over texts that
are put together, a proper part has a smaller width, and a boundary is the
width of a text before it.
-/

namespace Clipper.Source

@[simp]
theorem byteWidth_nil : byteWidth [] = 0 :=
  rfl

@[simp]
theorem byteWidth_cons
    (character : Char)
    (rest : List Char) :
    byteWidth (character :: rest) = character.utf8Size + byteWidth rest :=
  rfl

/-- A text with a character has a width. -/
theorem byteWidth_pos
    {text : List Char}
    (nonempty : text ≠ []) :
    0 < byteWidth text := by
  cases text with
  | nil => exact absurd rfl nonempty
  | cons character rest =>
      have positive := character.utf8Size_pos
      rw [byteWidth_cons]
      omega

@[simp]
theorem byteWidth_reverse (text : List Char) :
    byteWidth text.reverse = byteWidth text := by
  induction text with
  | nil => rfl
  | cons character rest hypothesis =>
      rw [List.reverse_cons, byteWidth_append, hypothesis, byteWidth_cons,
        byteWidth_cons, byteWidth_nil]
      omega

theorem byteWidth_le_of_prefix
    {first text : List Char}
    (opens : first <+: text) :
    byteWidth first ≤ byteWidth text := by
  rcases opens with ⟨rest, rfl⟩
  rw [byteWidth_append]
  exact Nat.le_add_right _ _

/-- An offset between two characters of a text, or at one of its ends. -/
def IsBoundary
    (text : List Char)
    (offset : Nat) :
    Prop :=
  ∃ before after, text = before ++ after ∧ byteWidth before = offset

theorem IsBoundary.le
    {text : List Char}
    {offset : Nat}
    (boundary : IsBoundary text offset) :
    offset ≤ byteWidth text := by
  rcases boundary with ⟨before, after, rfl, rfl⟩
  rw [byteWidth_append]
  exact Nat.le_add_right _ _

namespace Cut

/--
To skip characters moves them from behind the cut to before it, and moves the
offset by their width.
-/
theorem skip_spec
    (count : Nat)
    (cut : Cut) :
    cut.skip count =
      ⟨(cut.after.take count).reverse ++ cut.before, cut.after.drop count,
        cut.offset + byteWidth (cut.after.take count)⟩ := by
  induction count generalizing cut with
  | zero => simp [skip]
  | succ count hypothesis =>
      rw [skip, hypothesis]
      cases shape : cut.after with
      | nil =>
          cases cut
          simp_all [next]
      | cons character rest => simp [next, shape, Nat.add_assoc]

theorem skip_skip
    (first second : Nat)
    (cut : Cut) :
    (cut.skip first).skip second = cut.skip (first + second) := by
  induction first generalizing cut with
  | zero => rw [skip, Nat.zero_add]
  | succ first hypothesis => rw [skip, hypothesis, Nat.add_right_comm, skip]

end Cut

end Clipper.Source
