import Mathlib.Data.List.TakeWhile

/-!
# The longest run that passes a test

The run at the beginning of a text, and the run at its end, are told by what
stands next to them: there the text ends, or an item fails the test.

These two laws are used wherever a definition takes a run with `takeWhile` or
drops one: they turn the definition into a statement about how a text is
split, which can be read without it.  The law for the end of a text comes from
that for its beginning, by reversal.
-/

namespace Clipper.Source

variable {Item : Type} {test : Item → Bool} {text run rest : List Item}

/--
A split of a text is the one into its longest run and the rest if all items of
the first part pass the test and the first item of the second part fails it.
-/
theorem takeWhile_dropWhile_iff :
    (text.takeWhile test = run ∧ text.dropWhile test = rest) ↔
      text = run ++ rest ∧ (∀ item ∈ run, test item = true) ∧
        ∀ item ∈ rest.head?, test item = false := by
  constructor
  · rintro ⟨rfl, rfl⟩
    refine ⟨List.takeWhile_append_dropWhile.symm, fun _ =>
      List.mem_takeWhile_imp, ?_⟩
    intro item first
    have fails := List.head?_dropWhile_not test text
    rwa [Option.mem_def.mp first] at fails
  · rintro ⟨rfl, inside, outside⟩
    rw [List.takeWhile_append_of_pos inside,
      List.dropWhile_append_of_pos inside]
    cases rest with
    | nil => exact ⟨List.append_nil run, rfl⟩
    | cons item rest =>
        have fails := outside item rfl
        simp [fails]

theorem takeWhile_dropWhile_reverse_iff :
    ((text.reverse.takeWhile test).reverse = run ∧
        (text.reverse.dropWhile test).reverse = rest) ↔
      text = rest ++ run ∧ (∀ item ∈ run, test item = true) ∧
        ∀ item ∈ rest.getLast?, test item = false := by
  rw [List.reverse_eq_iff, List.reverse_eq_iff, takeWhile_dropWhile_iff,
    ← List.reverse_append, List.reverse_inj, List.head?_reverse]
  simp only [List.mem_reverse]

end Clipper.Source
