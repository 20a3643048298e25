import Mathlib.Data.List.TakeWhile
import Clipper.Proofs.Source.Width

/-!
# Occurrences of a character

The text at an offset is what follows the cut there; at an offset inside a
character, or past the end, there is none.  The last occurrence of a character
in a piece of text lies behind a bound if and only if any occurrence does.

The remembering line reader keeps offsets of the last occurrences, whereas the
question is about any occurrence behind a place.  The two agree, as the last
of the occurrences is the one that lies furthest behind.  The search for a cut
in a text, by which the program goes to an offset, is described here too: it
stops at the first boundary at or behind the offset.
-/

namespace Clipper.Source

/-! ## The text at an offset -/

/-- The text that begins at an offset; nothing where no character begins. -/
def textAt
    (text : List Char)
    (offset : Nat) :
    List Char :=
  ((cutAt? text offset).map Cut.after).getD []

/--
The search stops behind a part of the text, at the offset of that part's end,
and no sooner than the offset that is looked for, unless the text ends.
-/
theorem seek_spec
    (offset : Nat)
    (before : List Char)
    (position : Nat)
    (text : List Char) :
    ∃ raw,
      text = raw ++ (seek offset before position text).after ∧
        (seek offset before position text).offset =
          position + byteWidth raw := by
  induction text generalizing before position with
  | nil => exact ⟨[], rfl, rfl⟩
  | cons character rest hypothesis =>
      rw [seek]
      split
      · exact ⟨[], rfl, rfl⟩
      · obtain ⟨raw, same, place⟩ :=
          hypothesis (character :: before) (position + character.utf8Size)
        refine ⟨character :: raw, congrArg (character :: ·) same, ?_⟩
        rw [place, byteWidth_cons, Nat.add_assoc]

/-- The search for a boundary stops there. -/
theorem seek_append
    (before : List Char)
    (position : Nat)
    (raw after : List Char) :
    (seek (position + byteWidth raw) before position (raw ++ after)).after =
      after ∧
      (seek (position + byteWidth raw) before position (raw ++ after)).offset =
        position + byteWidth raw := by
  induction raw generalizing before position with
  | nil => cases after <;> simp [seek]
  | cons character raw hypothesis =>
      have positive := character.utf8Size_pos
      have further : ¬ position + byteWidth (character :: raw) ≤ position := by
        rw [byteWidth_cons]
        omega
      rw [List.cons_append, seek, if_neg further, byteWidth_cons,
        ← Nat.add_assoc]
      exact hypothesis _ _

/-- After a beginning of a text, the text at its end is the rest. -/
@[simp]
theorem textAt_append (before after : List Char) :
    textAt (before ++ after) (byteWidth before) = after := by
  have found := seek_append [] 0 before after
  rw [Nat.zero_add] at found
  rw [textAt, cutAt?, cutFrom, if_pos found.2, Option.map_some,
    Option.getD_some, found.1]

/--
Where there is text at an offset, the offset is that of a beginning of the text.
-/
theorem exists_before_textAt
    {text : List Char}
    {offset : Nat}
    (nonempty : textAt text offset ≠ []) :
    ∃ before, text = before ++ textAt text offset ∧
      byteWidth before = offset := by
  rw [textAt, cutAt?, cutFrom] at nonempty ⊢
  split at nonempty
  · next found =>
      obtain ⟨raw, same, place⟩ := seek_spec offset [] 0 text
      rw [if_pos found]
      refine ⟨raw, same, ?_⟩
      rw [place, Nat.zero_add] at found
      exact found
  · exact absurd rfl nonempty

/--
Of two places in a text, the earlier one
is followed by what stands between them.
-/
theorem exists_between
    {text before after second later : List Char}
    {offset place : Nat}
    (split : text = before ++ after)
    (begins : byteWidth before = offset)
    (laterSplit : text = second ++ later)
    (laterBegins : byteWidth second = place)
    (order : offset ≤ place) :
    ∃ raw, after = raw ++ later ∧ place = offset + byteWidth raw := by
  subst begins laterBegins
  rcases List.append_eq_append_iff.mp (split.symm.trans laterSplit) with
    ⟨raw, rfl, rest⟩ | ⟨raw, rfl, rest⟩
  · exact ⟨raw, rest, byteWidth_append ..⟩
  · rw [byteWidth_append] at order ⊢
    cases raw with
    | nil => exact ⟨[], rest.symm, by simp⟩
    | cons character raw =>
        have positive := byteWidth_pos (List.cons_ne_nil character raw)
        omega

/-! ## Walks along a text -/

/-- A walk that goes past a piece of text goes on behind the piece. -/
theorem takeWhile_append_of_lt
    {test : Char → Bool}
    {raw after : List Char}
    (passed : byteWidth raw < byteWidth ((raw ++ after).takeWhile test)) :
    (raw ++ after).takeWhile test = raw ++ after.takeWhile test := by
  have walk : (raw ++ after).takeWhile test <+: raw ++ after :=
    List.takeWhile_prefix _
  have opens : raw <+: (raw ++ after).takeWhile test := by
    rcases List.prefix_or_prefix_of_prefix (List.prefix_append raw after) walk
      with
        inside | outside
    · exact inside
    · have narrow := byteWidth_le_of_prefix outside
      omega
  exact List.takeWhile_append_of_pos
    (fun character member => List.mem_takeWhile_imp (opens.subset member))

/-! ## The last occurrence -/

/--
A character occurs behind a bound in a piece of text that begins at an offset.
-/
def OccursBehind
    (character : Char)
    (bound offset : Nat)
    (text : List Char) :
    Prop :=
  ∃ before after, text = before ++ character :: after ∧
    bound < offset + byteWidth before

section

variable {character : Char} {bound offset : Nat}

theorem not_occursBehind_nil : ¬ OccursBehind character bound offset [] := by
  rintro ⟨before, after, same, -⟩
  exact absurd same.symm
    (List.append_ne_nil_of_right_ne_nil _ (List.cons_ne_nil _ _))

/--
A character occurs behind a bound if it is the first one and stands behind it,
or if it occurs so in the rest.
-/
theorem occursBehind_cons
    {first : Char}
    {rest : List Char} :
    OccursBehind character bound offset (first :: rest) ↔
      first = character ∧ bound < offset ∨
        OccursBehind character bound (offset + first.utf8Size) rest := by
  constructor
  · rintro ⟨before, after, same, behind⟩
    cases before with
    | nil =>
        cases same
        exact .inl ⟨rfl, behind⟩
    | cons second before =>
        cases same
        refine .inr ⟨before, after, rfl, ?_⟩
        rw [byteWidth_cons] at behind
        omega
  · rintro (⟨rfl, behind⟩ | ⟨before, after, rfl, behind⟩)
    · exact ⟨[], rest, rfl, behind⟩
    · refine ⟨first :: before, after, rfl, ?_⟩
      rw [byteWidth_cons]
      omega

/-- Text that ends no later than the bound holds no occurrence behind it. -/
theorem occursBehind_append
    {raw text : List Char}
    (passed : offset + byteWidth raw ≤ bound) :
    OccursBehind character bound offset (raw ++ text) ↔
      OccursBehind character bound (offset + byteWidth raw) text := by
  induction raw generalizing offset with
  | nil => rfl
  | cons first raw hypothesis =>
      rw [byteWidth_cons, ← Nat.add_assoc] at passed ⊢
      rw [List.cons_append, occursBehind_cons, hypothesis passed]
      exact or_iff_right (fun here => by omega)

/-- Before the whole text, an occurrence is any occurrence. -/
theorem occursBehind_iff_mem
    {text : List Char}
    (before : bound < offset) :
    OccursBehind character bound offset text ↔ character ∈ text := by
  rw [List.mem_iff_append]
  constructor
  · rintro ⟨first, after, same, -⟩
    exact ⟨first, after, same⟩
  · rintro ⟨first, after, same⟩
    exact ⟨first, after, same, by omega⟩

/-- The last occurrence in a text does not stand before the text. -/
theorem le_of_lastOffset?
    {text : List Char}
    {last : Nat}
    (found : lastOffset? character offset text = some last) :
    offset ≤ last := by
  induction text generalizing offset with
  | nil => cases found
  | cons first rest hypothesis =>
      rw [lastOffset?] at found
      split at found
      · next later =>
          cases found
          have bound := hypothesis later
          omega
      · split at found
        · cases found
          exact Nat.le_refl _
        · cases found

/-- An occurrence lies behind a bound if and only if the last one does. -/
theorem any_lastOffset?_iff {text : List Char} :
    (lastOffset? character offset text).any
      (fun last => decide (bound < last)) = true ↔
      OccursBehind character bound offset text := by
  induction text generalizing offset with
  | nil => simpa [lastOffset?] using not_occursBehind_nil
  | cons first rest hypothesis =>
      rw [occursBehind_cons, ← hypothesis, lastOffset?]
      cases later : lastOffset? character (offset + first.utf8Size) rest with
      | none =>
          by_cases here : first = character <;> simp [here]
      | some last =>
          simp only [Option.any_some, decide_eq_true_eq]
          refine ⟨.inr, ?_⟩
          rintro (⟨-, behind⟩ | behind)
          · have bound := le_of_lastOffset? later
            omega
          · exact behind

end

end Clipper.Source
