import Clipper.Proofs.Source.LetterCase

/-!
# Respelled lines

A respelling changes a text line by line.  It keeps the characters of a line,
but for the case of letters, and puts no more than carriage returns to its end;
what it does to the lines behind is left open.  So whatever is told by a line,
and does not tell a capital letter from its small letter, is told alike by the
respelled text.

That the lines behind are left open is what makes the notion fit both of its
uses.  In a text in lower case every line is respelled in the same way; in a
text with returns each line feed has become two characters, and what comes
behind it is another line.  As a piece on its line sees no more than that
line, a lemma about respelled lines serves both.
-/

namespace Clipper.Source

theorem firstLine_cons
    {first : Char}
    (inLine : first ≠ '\n')
    (rest : List Char) :
    firstLine (first :: rest) = first :: firstLine rest :=
  List.takeWhile_cons_of_pos (bne_iff_ne.mpr inLine)

/--
A change of texts that keeps the characters
of a line, but for the case of letters.
-/
structure Respelling where
  text : List Char → List Char
  letter : Char → Char
  text_nil : text [] = []
  text_cons : ∀ first rest, first ≠ '\n' →
    text (first :: rest) = letter first :: text rest
  text_newline : ∀ rest, ∀ character ∈ firstLine (text ('\n' :: rest)),
    character = '\r'
  letter_cases : ∀ character, letter character = character ∨
    letter character = character.toLower

namespace Respelling

/-- Where no letter changes, every letter stays as it is. -/
theorem letter_cases_id (character : Char) :
    id character = character ∨ id character = character.toLower :=
  .inl rfl

variable (change : Respelling)

/-! ## Characters -/

section

variable {α : Type} {test : Char → α} {mark : Char}

theorem test_letter
    (ignores : IgnoresCase test)
    (character : Char) :
    test (change.letter character) = test character := by
  rcases change.letter_cases character with same | lower
  · rw [same]
  · rw [lower, ignores]

/-- A character that is no letter stays as it is. -/
theorem letter_of_noLetter (noLetter : mark.isAlpha = false) :
    change.letter mark = mark := by
  rcases change.letter_cases mark with same | lower
  · exact same
  · rw [lower, toLower_of_noLetter noLetter]

theorem letter_eq_iff
    (noLetter : mark.isAlpha = false)
    {character : Char} :
    change.letter character = mark ↔ character = mark := by
  rcases change.letter_cases character with same | lower
  · rw [same]
  · rw [lower, toLower_eq_iff noLetter]

/-- A character that is no letter is at the same places of a respelled text. -/
theorem mem_map_letter_iff
    (noLetter : mark.isAlpha = false)
    {text : List Char} :
    mark ∈ text.map change.letter ↔ mark ∈ text := by
  simp only [List.mem_map, change.letter_eq_iff noLetter, exists_eq_right]

end

/-! ## Ends of lines -/

/-- At the end of a line, nothing or a line break follows. -/
theorem newline_cases (rest : List Char) :
    change.text ('\n' :: rest) = [] ∨
      (∃ later, change.text ('\n' :: rest) = '\n' :: later) ∨
      ∃ later, change.text ('\n' :: rest) = '\r' :: later := by
  have onlyReturns := change.text_newline rest
  cases shape : change.text ('\n' :: rest) with
  | nil => exact .inl rfl
  | cons character later =>
      by_cases feed : character = '\n'
      · exact .inr (.inl ⟨later, by rw [feed]⟩)
      · rw [shape, firstLine_cons feed] at onlyReturns
        exact .inr
          (.inr ⟨later, by rw [onlyReturns character List.mem_cons_self]⟩)

section

variable {test : Char → Bool}
variable (ignores : IgnoresCase test)
variable (stopsAtReturn : test '\r' = false) (stops : test '\n' = false)

include ignores stopsAtReturn stops

/--
A question about the first character, which tells no letter from its other
case, has the same answer in the respelled text.
-/
theorem any_head?_text (text : List Char) :
    (change.text text).head?.any test = text.head?.any test := by
  cases text with
  | nil => rw [change.text_nil]
  | cons first rest =>
      by_cases feed : first = '\n'
      · subst feed
        rw [List.head?_cons, Option.any_some, stops]
        rcases change.newline_cases rest
          with shape | ⟨later, shape⟩ | ⟨later, shape⟩
        · rw [shape]
          rfl
        · rw [shape, List.head?_cons, Option.any_some, stops]
        · rw [shape, List.head?_cons, Option.any_some, stopsAtReturn]
      · rw [change.text_cons first rest feed]
        exact change.test_letter ignores first

/-- A run that ends with its line is respelled. -/
theorem takeWhile_text (text : List Char) :
    (change.text text).takeWhile test =
      (text.takeWhile test).map change.letter := by
  induction text with
  | nil => rw [change.text_nil, List.takeWhile_nil, List.map_nil]
  | cons first rest hypothesis =>
      by_cases feed : first = '\n'
      · subst feed
        rw [List.takeWhile_cons, stops, if_neg Bool.false_ne_true, List.map_nil]
        rcases change.newline_cases rest
          with shape | ⟨later, shape⟩ | ⟨later, shape⟩
        · rw [shape, List.takeWhile_nil]
        · rw [shape, List.takeWhile_cons, stops, if_neg Bool.false_ne_true]
        · rw [shape, List.takeWhile_cons, stopsAtReturn,
            if_neg Bool.false_ne_true]
      · rw [change.text_cons first rest feed, List.takeWhile_cons,
          List.takeWhile_cons, change.test_letter ignores, hypothesis]
        split <;> rfl

end

section

variable {text : List Char} {mark : Char}

/-- What is no line break begins the text and the respelled text alike. -/
theorem head?_text_iff
    (noLetter : mark.isAlpha = false)
    (noReturn : mark ≠ '\r')
    (noNewline : mark ≠ '\n') :
    (change.text text).head? = some mark ↔ text.head? = some mark := by
  have opens (text : List Char) : text.head? = some mark ↔
      text.head?.any (· == mark) = true := by
    simp [Option.any_eq_true]
  have same := change.any_head?_text (ignoresCase_beq noLetter)
    (beq_false_of_ne noReturn.symm)
    (beq_false_of_ne noNewline.symm) text
  rw [opens, opens, same]

/--
The beginning of a text on its first line is
respelled, and so is what is left behind it.
-/
theorem split_text
    {count : Nat}
    (oneLine : '\n' ∉ text.take count) :
    (change.text text).take count = (text.take count).map change.letter ∧
      (change.text text).drop count = change.text (text.drop count) := by
  induction count generalizing text with
  | zero => exact ⟨rfl, rfl⟩
  | succ count hypothesis =>
      cases text with
      | nil => simp [change.text_nil]
      | cons first rest =>
          rw [List.take_succ_cons, List.mem_cons, not_or] at oneLine
          obtain ⟨taken, left⟩ := hypothesis oneLine.2
          rw [change.text_cons first rest (Ne.symm oneLine.1),
            List.take_succ_cons, List.take_succ_cons, List.map_cons, taken,
            List.drop_succ_cons, List.drop_succ_cons]
          exact ⟨rfl, left⟩

/-- What is left behind a run that ends with its line is respelled. -/
theorem drop_run_text
    {test : Char → Bool}
    (stops : test '\n' = false)
    (text : List Char) :
    (change.text text).drop (text.takeWhile test).length =
      change.text (text.drop (text.takeWhile test).length) := by
  refine (change.split_text ?_).2
  rw [← List.prefix_iff_eq_take.mp (List.takeWhile_prefix test)]
  intro member
  rw [List.mem_takeWhile_imp member] at stops
  cases stops

/--
A respelled line is the line respelled, with
no more than carriage returns behind it.
-/
theorem exists_firstLine_text (text : List Char) :
    ∃ returns,
      firstLine (change.text text) =
        (firstLine text).map change.letter ++ returns ∧
        ∀ character ∈ returns, character = '\r' := by
  induction text with
  | nil => exact ⟨[], by rw [change.text_nil]; rfl, List.forall_mem_nil _⟩
  | cons first rest hypothesis =>
      by_cases feed : first = '\n'
      · subst feed
        exact ⟨_, rfl, change.text_newline rest⟩
      · obtain ⟨returns, line, onlyReturns⟩ := hypothesis
        have noFeed : change.letter first ≠ '\n' := by
          rwa [ne_eq, change.letter_eq_iff rfl]
        refine ⟨returns, ?_, onlyReturns⟩
        rw [change.text_cons first rest feed, firstLine_cons noFeed,
          firstLine_cons feed, line]
        rfl

theorem mem_firstLine_text_iff
    (noLetter : mark.isAlpha = false)
    (noReturn : mark ≠ '\r') :
    mark ∈ firstLine (change.text text) ↔ mark ∈ firstLine text := by
  obtain ⟨returns, line, onlyReturns⟩ := change.exists_firstLine_text text
  have notBehind : mark ∉ returns :=
    fun isBehind => noReturn (onlyReturns mark isBehind)
  rw [line, List.mem_append, or_iff_left notBehind,
    change.mem_map_letter_iff noLetter]

end

end Respelling

end Clipper.Source
