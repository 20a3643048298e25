import Clipper.Proofs.Source.Occurrence
import Clipper.Source.Span

/-!
# The text that a span covers

A span covers a part of a text when it begins and ends between two characters.
The part is the one that is as wide as the span and has the text before it.

The two forms of the statement are both needed.  That there is a part is shown
by cutting the text twice; and that a given part of the text is the one which
a span covers is what later proofs use, where the text is known as a text
before, a piece, and a text behind.
-/

namespace Clipper.Source

/--
The part of a text that a span covers; none
where the span cuts a character in two.
-/
def slice?
    (text : List Char)
    (span : Span) :
    Option (List Char) := do
  let start ← cutAt? text span.start
  let stop ← cutAt? text span.stop
  if span.start ≤ span.stop then
    some (start.after.take (start.after.length - stop.after.length))
  else none

/--
A cut at an offset leaves behind it what is not in the text before it, and
that text is as wide as the offset.
-/
theorem exists_before_cutAt?
    {text : List Char}
    {offset : Nat}
    {cut : Cut}
    (found : cutAt? text offset = some cut) :
    ∃ before, text = before ++ cut.after ∧ byteWidth before = offset := by
  rw [cutAt?] at found
  split at found
  · next same =>
      cases found
      obtain ⟨raw, split, place⟩ := seek_spec offset [] 0 text
      rw [cutFrom, place, Nat.zero_add] at same
      exact ⟨raw, split, same⟩
  · cases found

theorem cutAt?_append
    (before after : List Char) :
    ∃ cut, cutAt? (before ++ after) (byteWidth before) = some cut ∧
      cut.after = after := by
  have found := seek_append [] 0 before after
  rw [Nat.zero_add] at found
  exact ⟨_, if_pos found.2, found.1⟩

/--
What a span covers stands behind the text
before the span and is as wide as the span.
-/
theorem slice?_eq_some_iff
    {text piece : List Char}
    {span : Span} :
    slice? text span = some piece ↔
      ∃ before after,
        text = before ++ (piece ++ after) ∧
          span = ⟨byteWidth before, byteWidth before + byteWidth piece⟩ := by
  constructor
  · intro found
    simp only [slice?, Option.bind_eq_bind, Option.bind_eq_some_iff] at found
    obtain ⟨start, isStart, stop, isStop, found⟩ := found
    split at found
    · next order =>
        cases found
        obtain ⟨before, split, begins⟩ := exists_before_cutAt? isStart
        obtain ⟨second, laterSplit, ends⟩ := exists_before_cutAt? isStop
        obtain ⟨raw, behind, place⟩ :=
          exists_between split begins laterSplit ends order
        have part : start.after.take (start.after.length - stop.after.length) =
            raw := by
          rw [behind, List.length_append, Nat.add_sub_cancel, List.take_left]
        rw [part]
        refine ⟨before, stop.after, by rw [split, behind], ?_⟩
        rw [begins, ← place]
    · cases found
  · rintro ⟨before, after, rfl, rfl⟩
    obtain ⟨start, isStart, startAfter⟩ := cutAt?_append before (piece ++ after)
    obtain ⟨stop, isStop, stopAfter⟩ := cutAt?_append (before ++ piece) after
    rw [List.append_assoc, byteWidth_append] at isStop
    simp [slice?, isStart, isStop, startAfter, stopAfter]

end Clipper.Source
