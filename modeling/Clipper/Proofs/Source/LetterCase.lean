import Clipper.Proofs.Source.Width
import Clipper.Proofs.Syntax.Relabelling
import Mathlib.Data.List.TakeWhile

/-!
# The case of letters

A text in lower case has small letters in place of the capital letters of ASCII,
and every other character by itself.  Questions that no capital letter answers
differently from its small letter have the same answers along both texts, so the
runs of characters that they mark off are the same up to case.

The questions that rules ask of a character are listed here, each with its
answer for letters: whether it is a blank, a digit, a part of a name, or one
of the signs.  A run of characters that pass such a question is as long in the
lowered text, and what stands behind it is the lowered rest.  The respelling
of a text in lower case is made from these facts.
-/

namespace Clipper.Source

/-! ## Characters -/

/-- The capital letter at a place of the alphabet. -/
def capital (place : Nat) : Char :=
  Char.ofNat ('A'.toNat + place)

/-- What a capital letter and its small letter have in common. -/
def IgnoresCase
    {α : Type}
    (test : Char → α) :
    Prop :=
  ∀ character, test character.toLower = test character

/-- A character is a capital letter, or it is its own small letter. -/
theorem toLower_cases (character : Char) :
    character.toLower = character ∨
    ∃ place < 26, character = capital place := by
  by_cases isCapital : character.isUpper = true
  · obtain ⟨above, below⟩ := of_decide_eq_true isCapital
    have above : 'A'.toNat ≤ character.toNat := above
    have below : character.toNat ≤ 'Z'.toNat := below
    have last : 'Z'.toNat = 'A'.toNat + 25 := rfl
    refine .inr ⟨character.toNat - 'A'.toNat, by omega, ?_⟩
    rw [capital, Nat.add_sub_cancel' above, Char.ofNat_toNat]
  · exact .inl (dif_neg fun bounds => isCapital (decide_eq_true bounds))

section

variable {α : Type} {test : Char → α} {mark : Char}

/-- What holds of the 26 capital letters holds of all characters. -/
theorem IgnoresCase.of_capitals
    (capitals : ∀ place < 26, test (capital place).toLower =
      test (capital place)) :
    IgnoresCase test := by
  intro character
  rcases toLower_cases character with same | ⟨place, within, rfl⟩
  · rw [same]
  · exact capitals place within

theorem ignoresCase_toLower : IgnoresCase Char.toLower :=
  .of_capitals (by decide)

theorem ignoresCase_utf8Size : IgnoresCase Char.utf8Size :=
  .of_capitals (by decide)

theorem ignoresCase_isAlpha : IgnoresCase Char.isAlpha :=
  .of_capitals (by decide)

theorem ignoresCase_isDigit : IgnoresCase Char.isDigit :=
  .of_capitals (by decide)

@[simp]
theorem toLower_toLower (character : Char) :
    character.toLower.toLower = character.toLower :=
  ignoresCase_toLower character

theorem isAlpha_capital
    {place : Nat}
    (within : place < 26) :
    (capital place).isAlpha = true := by
  revert place
  decide

/-- A character that is no letter is its own small letter. -/
theorem toLower_of_noLetter (noLetter : mark.isAlpha = false) :
    mark.toLower = mark := by
  rcases toLower_cases mark with same | ⟨place, within, rfl⟩
  · exact same
  · rw [isAlpha_capital within] at noLetter
    cases noLetter

/-- A character that is no letter is the small letter of itself alone. -/
theorem toLower_eq_iff
    (noLetter : mark.isAlpha = false)
    {character : Char} :
    character.toLower = mark ↔ character = mark := by
  constructor
  · rintro rfl
    rw [ignoresCase_isAlpha] at noLetter
    exact (toLower_of_noLetter noLetter).symm
  · rintro rfl
    exact toLower_of_noLetter noLetter

theorem ignoresCase_beq (noLetter : mark.isAlpha = false) :
    IgnoresCase (· == mark) := by
  intro character
  rw [Bool.eq_iff_iff, beq_iff_eq, beq_iff_eq, toLower_eq_iff noLetter]

theorem ignoresCase_bne (noLetter : mark.isAlpha = false) :
    IgnoresCase (· != mark) := by
  intro character
  exact congrArg not (ignoresCase_beq noLetter character)

end

/-! ## Texts -/

/-- The text in lower case. -/
def lowered (text : List Char) : List Char :=
  text.map Char.toLower

section

variable {text : List Char} {mark : Char}

@[simp]
theorem lowered_cons
    (first : Char)
    (rest : List Char) :
    lowered (first :: rest) = first.toLower :: lowered rest :=
  rfl

@[simp]
theorem lowered_append (first second : List Char) :
    lowered (first ++ second) = lowered first ++ lowered second :=
  List.map_append

@[simp]
theorem length_lowered (text : List Char) :
    (lowered text).length = text.length :=
  List.length_map _

@[simp]
theorem reverse_lowered (text : List Char) :
    (lowered text).reverse = lowered text.reverse :=
  List.map_reverse.symm

@[simp]
theorem drop_lowered
    (count : Nat)
    (text : List Char) :
    (lowered text).drop count = lowered (text.drop count) :=
  List.map_drop.symm

@[simp]
theorem byteWidth_lowered (text : List Char) :
    byteWidth (lowered text) = byteWidth text := by
  induction text with
  | nil => rfl
  | cons first rest hypothesis =>
      rw [lowered_cons, byteWidth_cons, byteWidth_cons, hypothesis,
        ignoresCase_utf8Size first]

/-- What is no letter begins both texts alike. -/
theorem head?_lowered_iff
    (noLetter : mark.isAlpha = false) :
    (lowered text).head? = some mark ↔ text.head? = some mark := by
  cases text with
  | nil => exact Iff.rfl
  | cons first rest =>
      simp only [lowered_cons, List.head?_cons, Option.some.injEq,
        toLower_eq_iff noLetter]

/-! ## Runs of characters -/

variable {test : Char → Bool}

theorem takeWhile_lowered
    (ignores : IgnoresCase test)
    (text : List Char) :
    (lowered text).takeWhile test = lowered (text.takeWhile test) := by
  have same : test ∘ Char.toLower = test := funext ignores
  rw [lowered, List.takeWhile_map, same, lowered]

theorem dropWhile_lowered
    (ignores : IgnoresCase test)
    (text : List Char) :
    (lowered text).dropWhile test = lowered (text.dropWhile test) := by
  have same : test ∘ Char.toLower = test := funext ignores
  rw [lowered, List.dropWhile_map, same, lowered]

theorem any_lowered
    (ignores : IgnoresCase test)
    (text : List Char) :
    (lowered text).any test = text.any test := by
  have same : test ∘ Char.toLower = test := funext ignores
  rw [lowered, List.any_map, same]

@[simp]
theorem firstLine_lowered (text : List Char) :
    firstLine (lowered text) = lowered (firstLine text) :=
  takeWhile_lowered (ignoresCase_bne rfl) text

end

/-! ## Words -/

theorem map_ofList
    (letter : Char → Char)
    (text : List Char) :
    (String.ofList text).map letter = String.ofList (text.map letter) := by
  rw [← String.toList_inj, String.toList_map, String.toList_ofList,
    String.toList_ofList]

theorem lowerCase_ofList (text : List Char) :
    lowerCase (String.ofList text) = String.ofList (lowered text) :=
  map_ofList Char.toLower text

@[simp]
theorem lowerCase_ofList_lowered (text : List Char) :
    lowerCase (String.ofList (lowered text)) =
      lowerCase (String.ofList text) := by
  rw [lowerCase_ofList, lowerCase_ofList]
  refine congrArg String.ofList ?_
  rw [lowered, lowered, List.map_map]
  exact List.map_congr_left fun character _ => toLower_toLower character

theorem lowerCase_empty : lowerCase "" = "" :=
  lowerCase_ofList []

@[simp]
theorem lowerCase_lowerCase (text : String) :
    lowerCase (lowerCase text) = lowerCase text := by
  have idempotent := lowerCase_ofList_lowered text.toList
  rwa [← lowerCase_ofList, String.ofList_toList] at idempotent

theorem sameIgnoringCase_lowerCase (first second : String) :
    sameIgnoringCase (lowerCase first) (lowerCase second) =
      sameIgnoringCase first second := by
  rw [sameIgnoringCase, sameIgnoringCase, lowerCase_lowerCase,
    lowerCase_lowerCase]

end Clipper.Source

namespace Clipper

open Source

theorem lowerCase_placeholderName :
    lowerCase Identifier.placeholderName = Identifier.placeholderName := by
  decide +kernel

/--
What lower case does to all that is made of
spans and texts: the texts of tokens change.
-/
def Relabelling.lowered : Relabelling :=
  { Relabelling.same with
    lexeme := fun _ => lowerCase
    lexeme_placeholder := lowerCase_placeholderName
    lexeme_endOfFile := lowerCase_empty
    sameName := sameIgnoringCase_lowerCase }

end Clipper
