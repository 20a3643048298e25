import Clipper.Proofs.Directive.Lines
import Clipper.Proofs.Source.LongestRun

/-!
# Removed lines

Which lines of a text are removed is told by their first text and by the line
before them: a line is removed if it begins with the name of a directive, or if
the line before it was removed and goes on behind a semicolon.

`BeginsDirective` and `EndsInSemicolon` say of a line what the walk looks at:
blanks, a `#`, more blanks and one of the names, then anything but a letter;
and a semicolon as the last visible character.  The mark of a line depends on
these two and on the mark of the line before it, and the last lemma says so of
every place in the list of lines.
-/

namespace Clipper.Directive

open Source

/-! ## First and last texts of a line -/

/--
Behind blanks a line begins with `#`, and behind further blanks stands, as a
whole word of letters, the name of a directive, in upper or lower case.
-/
def BeginsDirective (line : List Char) : Prop :=
  ∃ blanks gap word rest,
    line = blanks ++ '#' :: (gap ++ (word ++ rest)) ∧
      (∀ character ∈ blanks ++ gap, Text.isBlank character = true) ∧
      (∀ character ∈ word, character.isAlpha = true) ∧
      (∀ character ∈ rest.head?, character.isAlpha = false) ∧
      ∃ name ∈ names, sameIgnoringCase (String.ofList word) name = true

/-- Behind the last semicolon of a line stand only blanks. -/
def EndsInSemicolon (line : List Char) : Prop :=
  ∃ front blanks,
    line = front ++ ';' :: blanks ∧
    ∀ character ∈ blanks, Text.isBlank character = true

/--
No letter is a blank, so the name of a directive ends the blanks before it.
-/
theorem isBlank_of_isAlpha
    {character : Char}
    (letter : character.isAlpha = true) :
    Text.isBlank character = false := by
  have ranges : (decide ('A'.val ≤ character.val ∧ character.val ≤ 'Z'.val) ||
      decide ('a'.val ≤ character.val) && decide (character.val ≤ 'z'.val)) =
      true := letter
  simp only [Bool.or_eq_true, Bool.and_eq_true, decide_eq_true_eq,
    UInt32.le_iff_toNat_le]
    at ranges
  have bounds :
      'A'.val.toNat = 65 ∧ 'Z'.val.toNat = 90 ∧ 'a'.val.toNat = 97 ∧
      'z'.val.toNat = 122 := by
    decide
  simp only [Text.isBlank, Text.blankRanges, List.any_cons, List.any_nil,
    Bool.or_false, Bool.or_eq_false_iff, Bool.and_eq_false_iff,
    decide_eq_false_iff_not, Char.toNat]
  omega

/-- The names of directives are written in lower case. -/
theorem lowerCase_of_mem_names : ∀ name ∈ names, lowerCase name = name := by
  decide +kernel

/--
A word is the name of a directive, in any case of letters, if and only if its
lower-case form is in the list of names.
-/
theorem sameName_iff (word : List Char) :
    (∃ name ∈ names, sameIgnoringCase (String.ofList word) name = true) ↔
      names.contains (lowerCase (String.ofList word)) = true := by
  rw [List.contains_iff_mem]
  constructor
  · rintro ⟨name, member, same⟩
    rw [sameIgnoringCase, lowerCase_of_mem_names name member] at same
    rwa [eq_of_beq same]
  · intro member
    refine ⟨_, member, ?_⟩
    rw [sameIgnoringCase, lowerCase_of_mem_names _ member, beq_self_eq_true]

/--
The test of a line agrees with its description: the line begins with blanks, a
`#`, blanks and the name of a directive, and the name is a whole word.
-/
theorem opensDirective_iff (line : List Char) :
    opensDirective line = true ↔ BeginsDirective line := by
  constructor
  · intro opens
    rw [opensDirective] at opens
    split at opens
    · next rest shape =>
        obtain ⟨whole, blanks, -⟩ := takeWhile_dropWhile_iff.mp ⟨rfl, shape⟩
        obtain ⟨wholeRest, gap, -⟩ := takeWhile_dropWhile_iff.mp
          (⟨rfl, rfl⟩ : rest.takeWhile Text.isBlank = _ ∧
            _ = Text.trimStart rest)
        obtain ⟨wholeWord, letters, stops⟩ := takeWhile_dropWhile_iff.mp
          (⟨rfl, rfl⟩ : (Text.trimStart rest).takeWhile Char.isAlpha = _ ∧
            _ = _)
        refine ⟨line.takeWhile Text.isBlank, rest.takeWhile Text.isBlank,
          (Text.trimStart rest).takeWhile Char.isAlpha,
          (Text.trimStart rest).dropWhile Char.isAlpha, ?_, ?_, letters, stops,
          (sameName_iff _).mpr opens⟩
        · rw [← wholeWord, ← wholeRest]
          exact whole
        · exact fun character member =>
            (List.mem_append.mp member).elim (blanks character) (gap character)
    · cases opens
  · rintro ⟨blanks, gap, word, rest, rfl, blank, letters, stops, name⟩
    have fromSign : Text.trimStart (blanks ++ '#' :: (gap ++ (word ++ rest))) =
        '#' :: (gap ++ (word ++ rest)) := by
      refine (takeWhile_dropWhile_iff.mpr
        ⟨rfl, fun character member => ?_, ?_⟩).2
      · exact blank character (List.mem_append_left gap member)
      · rintro _ ⟨⟩
        decide
    have fromWord : Text.trimStart (gap ++ (word ++ rest)) = word ++ rest := by
      refine (takeWhile_dropWhile_iff.mpr
        ⟨rfl, fun character member => ?_, ?_⟩).2
      · exact blank character (List.mem_append_right blanks member)
      · -- A name is not empty, and begins with a letter.
        cases word with
        | nil =>
            rw [sameName_iff] at name
            exact absurd name (by decide +kernel)
        | cons letter word =>
            rintro _ ⟨⟩
            exact isBlank_of_isAlpha (letters letter List.mem_cons_self)
    rw [opensDirective, fromSign]
    change names.contains (lowerCase (String.ofList
      ((Text.trimStart (gap ++ (word ++ rest))).takeWhile Char.isAlpha))) = true
    rw [fromWord, (takeWhile_dropWhile_iff.mpr ⟨rfl, letters, stops⟩).1]
    exact (sameName_iff word).mp name

/--
The test for a continued line agrees with its description: the last character
that is not a blank is a semicolon.
-/
theorem isContinued_iff (line : List Char) :
    isContinued line = true ↔ EndsInSemicolon line := by
  rw [isContinued, Text.trimEnd, beq_iff_eq, List.getLast?_eq_some_iff]
  constructor
  · rintro ⟨front, shape⟩
    obtain ⟨whole, blanks, -⟩ := takeWhile_dropWhile_reverse_iff.mp ⟨rfl, shape⟩
    rw [List.append_assoc] at whole
    exact ⟨front, _, whole, blanks⟩
  · rintro ⟨front, blanks, rfl, blank⟩
    refine ⟨front, (takeWhile_dropWhile_reverse_iff.mpr ⟨?_, blank, ?_⟩).2⟩
    · rw [List.append_assoc]
      rfl
    · intro last isLast
      rw [List.getLast?_concat] at isLast
      obtain rfl : ';' = last := Option.some.inj isLast
      decide

/-! ## Marks -/

/--
The mark of the first line, and what it hands on to the marks of the rest.
-/
theorem markFrom_cons
    (inside : Bool)
    (text : List Char)
    (rest : List (List Char)) :
    markFrom inside (text :: rest) =
      ⟨text, !(inside || opensDirective text)⟩ ::
        markFrom ((inside || opensDirective text) && isContinued text)
          rest := by
  rw [markFrom]
  cases inside || opensDirective text with
  | true => rfl
  | false => rfl

/--
A line is removed if it opens a directive,
or if the line before is one that goes on.
-/
theorem kept_markFrom_iff
    {inside : Bool}
    {texts : List (List Char)}
    {before after : List Line}
    {line : Line}
    (split : markFrom inside texts = before ++ line :: after) :
    line.kept = false ↔
      opensDirective line.text = true ∨ (before = [] ∧ inside = true) ∨
        ∃ earlier ∈ before.getLast?, earlier.kept = false ∧
          isContinued earlier.text = true := by
  induction texts generalizing inside before with
  | nil => simp [markFrom] at split
  | cons text rest hypothesis =>
      rw [markFrom_cons] at split
      cases before with
      | nil =>
          obtain ⟨rfl, -⟩ := List.cons.inj split
          cases inside with
          | true => simp
          | false => simp
      | cons first before =>
          obtain ⟨rfl, later⟩ := List.cons.inj split
          rw [hypothesis later]
          cases before with
          | nil =>
              cases inside with
              | true => simp
              | false => simp
          | cons second before => simp

end Clipper.Directive
