import Clipper.Proofs.Listing.Printable

/-!
# The text of an expression spells its tokens

The text of a printable expression stands on one line, begins with no character
that would make an operator before it longer, and ends in a visible one.  It
spells the tokens of the expression wherever no part of a word follows.

There are three things to know of each piece of text: which tokens it spells
and before what, that it has no line break, and how it begins and ends.  They
are collected for names, numbers, strings and lists first.  The main lemma
follows the tree; in every case the text is a few pieces put together, and the
end of each piece satisfies the beginning of the next one.
-/

namespace Clipper

open Lexeme

namespace Lexeme

/-! ## Characters of words -/

/-- The characters of names and numbers. -/
def isWordPart (character : Char) : Bool :=
  isNamePart character || character == ':' || character == '.'

/-- A text of characters of names and numbers. -/
structure IsWordText (text : List Char) : Prop where
  nonempty : text ≠ []
  parts : ∀ character ∈ text, isWordPart character = true

theorem isWordPart_of_isNamePart
    {character : Char}
    (part : isNamePart character = true) :
    isWordPart character = true := by
  rw [isWordPart, part]
  rfl

/--
A plain name is a word: it begins as names do, and holds parts of names only.
-/
theorem isWordText_of_plainName
    {text : List Char}
    (plain : isPlainName text = true) :
    IsWordText text := by
  cases text with
  | nil => cases plain
  | cons first rest =>
      rw [isPlainName, Bool.and_eq_true, List.all_eq_true] at plain
      refine ⟨List.cons_ne_nil _ _, List.forall_mem_cons.mpr ⟨?_, ?_⟩⟩
      · exact isWordPart_of_isNamePart (isNamePart_of_nameStart plain.1)
      · exact fun character member =>
          isWordPart_of_isNamePart (plain.2 character member)

/-- A scoped name is a word, although colons stand at its beginning. -/
theorem isWordText_of_scopedName
    {text : List Char}
    (isScoped : isScopedName text = true) :
    IsWordText text := by
  unfold isScopedName at isScoped
  split at isScoped
  · exact ⟨List.cons_ne_nil _ _,
      List.forall_mem_cons.mpr ⟨rfl, List.forall_mem_cons.mpr
      ⟨rfl, (isWordText_of_plainName isScoped).parts⟩⟩⟩
  · cases isScoped

theorem isWordPart_of_isDigit
    {character : Char}
    (digit : character.isDigit = true) :
    isWordPart character = true :=
  isWordPart_of_isNamePart (by simp [isNamePart, Char.isAlphanum, digit])

/-- A numeral is a word: digits, with or without a fraction. -/
theorem isWordText_of_numeral
    {text : List Char}
    (numeral : isNumeral text = true) :
    IsWordText text := by
  rw [isNumeral, Bool.and_eq_true] at numeral
  refine ⟨?_, fun character member => ?_⟩
  · rintro rfl
    cases numeral.1
  · rw [← List.takeWhile_append_dropWhile (p := Char.isDigit) (l := text),
      List.mem_append]
      at member
    obtain inDigits | inFraction := member
    · exact isWordPart_of_isDigit (List.mem_takeWhile_imp inDigits)
    · have further := numeral.2
      split at further
      · next empty =>
          rw [empty] at inFraction
          cases inFraction
      · next digits isFraction =>
          rw [Bool.and_eq_true, List.all_eq_true] at further
          rw [isFraction, List.mem_cons] at inFraction
          obtain rfl | inDigits := inFraction
          · rfl
          · exact isWordPart_of_isDigit (further.2 character inDigits)
      · cases further

/-- Characters that a text on one line without paths and escapes is made of. -/
def IsClean (text : List Char) : Prop :=
  ∀ character ∈ text, character ≠ '\\' ∧ character ≠ '\n'

instance (text : List Char) : Decidable (IsClean text) :=
  List.decidableBAll _ text

/-- A text that ends in a visible character. -/
def EndsVisibly (text : List Char) : Prop :=
  ∃ front last, text = front ++ [last] ∧ isSpace last = false

namespace IsWordText

variable {text : List Char} (word : IsWordText text)

include word

theorem isClean : IsClean text := by
  intro character member
  have part := word.parts character member
  constructor <;> (rintro rfl; cases part)

theorem endsVisibly : EndsVisibly text := by
  refine ⟨text.dropLast, text.getLast word.nonempty,
    (List.dropLast_append_getLast word.nonempty).symm, ?_⟩
  have part := word.parts _ (List.getLast_mem word.nonempty)
  refine Bool.eq_false_iff.mpr fun space => ?_
  simp only [isSpace, isBlank, Bool.or_eq_true, beq_iff_eq] at space
  rcases space with (((blank | blank) | blank) | blank) | blank
  all_goals
    rw [blank] at part
    cases part

theorem endsSign (rest : List Char) : endsSign (text ++ rest) = true := by
  cases text with
  | nil => exact absurd rfl word.nonempty
  | cons first others =>
      have part := word.parts first List.mem_cons_self
      rw [List.cons_append, endsSign_cons]
      refine ⟨?_, ?_, ?_, ?_, ?_⟩ <;> (rintro rfl; cases part)

end IsWordText

theorem EndsVisibly.append
    {text : List Char}
    (visibly : EndsVisibly text)
    (before : List Char) :
    EndsVisibly (before ++ text) := by
  obtain ⟨front, last, rfl, visible⟩ := visibly
  exact ⟨before ++ front, last, (List.append_assoc _ _ _).symm, visible⟩

theorem endsVisibly_single
    {last : Char}
    (visible : isSpace last = false)
    (before : List Char) :
    EndsVisibly (before ++ [last]) :=
  ⟨before, last, rfl, visible⟩

theorem EndsVisibly.cons
    {text : List Char}
    {first : Char}
    (visibly : EndsVisibly text) :
    EndsVisibly (first :: text) :=
  visibly.append [first]

/--
After a visible character and a space, something stands before on the line.
-/
theorem EndsVisibly.withinLine
    {text : List Char}
    (visibly : EndsVisibly text)
    (before : List Char) :
    withinLine ((text ++ [' ']).reverse ++ before) = true := by
  obtain ⟨front, last, rfl, visible⟩ := visibly
  simp only [isSpace, Bool.or_eq_false_iff, beq_eq_false_iff_ne] at visible
  have blank : isBlank ' ' = true := rfl
  simp [Lexeme.withinLine, atLineStart, visible, blank]

/-! ## Texts made of several -/

section

variable {preceded last : List Char → Bool}

/-- An operator between two texts, with a space on either side. -/
theorem SpellsAfter.operation
    {left operator right : List Char}
    {leftTokens operatorTokens rightTokens : List Token}
    (first : SpellsAfter preceded left leftTokens endsWord)
    (visibly : EndsVisibly left)
    (middle : SpellsAfter withinLine operator operatorTokens endsSign)
    (second : Spells right rightTokens last) :
    SpellsAfter preceded (left ++ ' ' :: (operator ++ ' ' :: right))
      (leftTokens ++ (operatorTokens ++ rightTokens)) last := by
  have gap : SpellsAfter preceded (left ++ [' ']) (leftTokens ++ []) anyText :=
    first.append spells_space (fun _ _ => rfl)
  have joined := gap.then middle (fun before _ => visibly.withinLine before)
      (fun _ _ => rfl)
  have whole := joined.append (spells_space.append second (fun _ _ => rfl))
      (fun _ _ => rfl)
  simpa [List.append_assoc] using whole

theorem commaSeparated_single (piece : List Char) :
    commaSeparated [piece] = piece := by
  simp [commaSeparated, List.intercalate]

theorem commaSeparated_cons_cons
    (first second : List Char)
    (rest : List (List Char)) :
    commaSeparated (first :: second :: rest) =
      first ++ ([','] ++ ([' '] ++ commaSeparated (second :: rest))) := by
  simp [commaSeparated, List.intercalate]

/--
Texts with commas between them spell their tokens with commas between them.
-/
theorem spells_commaSeparated
    {α : Type}
    {text : α → List Char}
    {group : α → List Token}
    (values : List α)
    (each : ∀ value ∈ values, Spells (text value) (group value) endsWord) :
    Spells (commaSeparated (values.map text)) (commaTokens (values.map group))
      endsWord := by
  induction values with
  | nil => exact spells_nothing
  | cons first rest hypothesis =>
      rw [List.forall_mem_cons] at each
      cases rest with
      | nil =>
          rw [List.map_singleton, List.map_singleton, commaSeparated_single,
            commaTokens_single]
          exact each.1
      | cons second others =>
          rw [List.map_cons, List.map_cons, commaSeparated_cons_cons,
            List.map_cons, List.map_cons, commaTokens_cons_cons]
          have comma := spells_delimiter ',' .comma (by decide)
          exact each.1.append
            (comma.append
              (spells_space.append (hypothesis each.2) (fun _ _ => rfl))
              (fun _ _ => rfl)) (fun _ _ => rfl)

end

/-- In a clean text before a closing bracket, no path ends. -/
theorem noPath_of_isClean
    {text : List Char}
    (clean : IsClean text)
    (rest : List Char) :
    noPath (text ++ ']' :: rest) = true := by
  have inside : ∀ character ∈ Lookahead.pathText (text ++ ']' :: rest),
      character ∈ text := by
    intro character member
    induction text with
    | nil => cases member
    | cons first others hypothesis =>
        rw [Lookahead.pathText, List.cons_append, List.takeWhile_cons] at member
        split at member
        · obtain rfl | later := List.mem_cons.mp member
          · exact List.mem_cons_self
          · exact List.mem_cons_of_mem _
              (hypothesis (fun character member =>
                clean character (List.mem_cons_of_mem _ member))
                  later)
        · cases member
  simp only [noPath, Bool.not_eq_true', List.contains_eq_mem,
    decide_eq_false_iff_not]
  exact fun backslash => (clean _ (inside _ backslash)).1 rfl

end Lexeme

/-! ## Names and literals -/

namespace Identifier

variable {identifier : Identifier}

theorem isWordText_of_isPlain (plain : identifier.isPlain = true) :
    IsWordText identifier.listing := by
  rw [isPlain, Bool.and_eq_true] at plain
  exact isWordText_of_plainName plain.1

theorem isWordText (printable : identifier.isPrintable = true) :
    IsWordText identifier.listing := by
  rw [isPrintable, Bool.or_eq_true] at printable
  obtain plain | isScoped := printable
  · exact isWordText_of_isPlain plain
  · exact isWordText_of_scopedName isScoped

theorem spells_of_isPlain (plain : identifier.isPlain = true) :
    Spells identifier.listing [identifier.token] endsWord := by
  rw [isPlain, Bool.and_eq_true, Option.isNone_iff_eq_none] at plain
  have spells := spells_plainName plain.1
  rwa [String.ofList_toList, plain.2, Option.getD_none] at spells

theorem spells (printable : identifier.isPrintable = true) :
    Spells identifier.listing [identifier.token] endsWord := by
  rw [isPrintable, Bool.or_eq_true] at printable
  obtain plain | isScoped := printable
  · exact spells_of_isPlain plain
  · have spells := spells_scopedName isScoped
    rwa [String.ofList_toList] at spells

/--
The listing of a plain name begins as a name does, whatever stands behind it.
-/
theorem beginsName (plain : identifier.isPlain = true) (rest : List Char) :
    beginsName (identifier.listing ++ rest) = true := by
  rw [isPlain, Bool.and_eq_true] at plain
  rw [listing]
  cases text : identifier.name.toList with
  | nil =>
      rw [text] at plain
      cases plain.1
  | cons first others =>
      rw [text, isPlainName, Bool.and_eq_true] at plain
      exact plain.1.1

end Identifier

namespace Lexeme

theorem reserved_nil : Word.reserved? "NIL" = some .nil := by
  decide +kernel

theorem spells_yes : Spells ".T.".toList [.unplaced .yes ".T."] anyText := by
  have isWord : Word.dotted? (String.ofList ['T']) = some .yes := by
    decide +kernel
  exact spells_dotted isWord (by decide) (by decide)

theorem spells_no : Spells ".F.".toList [.unplaced .no ".F."] anyText := by
  have isWord : Word.dotted? (String.ofList ['F']) = some .no := by
    decide +kernel
  exact spells_dotted isWord (by decide) (by decide)

/-- A text between double quotes has no line break, if the text has none. -/
theorem isClean_quote
    {text : List Char}
    (quotable : isQuotable text = true) :
    IsClean (Literal.quote text) := by
  intro character member
  rw [isQuotable, List.all_eq_true] at quotable
  simp only [Literal.quote, List.mem_cons, List.mem_append, List.mem_flatMap,
    List.not_mem_nil, or_false] at member
  have quote : '"' ≠ '\\' ∧ '"' ≠ '\n' := by decide
  obtain rfl | ⟨original, inText, written⟩ | rfl := member
  · exact quote
  · split at written
    · simp only [List.mem_cons, List.not_mem_nil, or_false, or_self] at written
      rw [written]
      exact quote
    · rw [List.mem_singleton] at written
      have plain := quotable original inText
      rw [written]
      simp at plain
      exact ⟨plain.1, plain.2.1⟩
  · exact quote

end Lexeme

namespace Literal

variable {literal : Literal} (printable : literal.isPrintable = true)

include printable

/-- The listing of a printable literal is the text of its token. -/
theorem spells : Spells literal.listing [literal.token] endsWord := by
  obtain ⟨kind, text⟩ := literal
  cases kind with
  | number =>
      have spells := spells_numeral
          (show isNumeral text.toList = true from printable)
      rwa [String.ofList_toList] at spells
  | string =>
      have spells := spells_quote
          (show isQuotable text.toList = true from printable)
      rwa [String.ofList_toList] at spells
  | nil =>
      obtain rfl := beq_iff_eq.mp printable
      have spells := spells_plainName
          (show isPlainName "NIL".toList = true from rfl)
      rwa [String.ofList_toList, reserved_nil] at spells
  | logical =>
      rw [isPrintable, Bool.or_eq_true, beq_iff_eq, beq_iff_eq] at printable
      obtain yes | no := printable
      · obtain rfl : text = ".T." := yes
        exact spells_yes.weaken (fun _ => id) (fun _ _ => rfl)
      · obtain rfl : text = ".F." := no
        exact spells_no.weaken (fun _ => id) (fun _ _ => rfl)

/-- The text of a literal is a word, or a string between quotes. -/
theorem isWordText_or_quote :
    IsWordText literal.listing ∨
      ∃ text, isQuotable text = true ∧ literal.listing = quote text := by
  obtain ⟨kind, text⟩ := literal
  cases kind with
  | number => exact Or.inl (isWordText_of_numeral printable)
  | string => exact Or.inr ⟨text.toList, printable, rfl⟩
  | nil =>
      obtain rfl := beq_iff_eq.mp printable
      exact Or.inl ⟨by decide, List.all_eq_true.mp rfl⟩
  | logical =>
      rw [isPrintable, Bool.or_eq_true, beq_iff_eq, beq_iff_eq] at printable
      obtain yes | no := printable
      · obtain rfl : text = ".T." := yes
        exact Or.inl ⟨by decide, List.all_eq_true.mp rfl⟩
      · obtain rfl : text = ".F." := no
        exact Or.inl ⟨by decide, List.all_eq_true.mp rfl⟩

theorem isClean : IsClean literal.listing := by
  obtain word | ⟨text, quotable, same⟩ := isWordText_or_quote printable
  · exact word.isClean
  · rw [same]
    exact isClean_quote quotable

theorem endsVisibly : EndsVisibly literal.listing := by
  obtain word | ⟨text, -, same⟩ := isWordText_or_quote printable
  · exact word.endsVisibly
  · rw [same]
    exact endsVisibly_single rfl ('"' :: _)

theorem endsSign (rest : List Char) :
    Lexeme.endsSign (literal.listing ++ rest) = true := by
  obtain word | ⟨text, -, same⟩ := isWordText_or_quote printable
  · exact word.endsSign rest
  · rw [same]
    rfl

end Literal

/-! ## Expressions -/

namespace Lexeme

theorem IsClean.append
    {first second : List Char}
    (clean : IsClean first)
    (others : IsClean second) :
    IsClean (first ++ second) := by
  intro character member
  obtain inFirst | inSecond := List.mem_append.mp member
  · exact clean character inFirst
  · exact others character inSecond

theorem IsClean.cons
    {text : List Char}
    {first : Char}
    (others : IsClean text)
    (clean : first ≠ '\\' ∧ first ≠ '\n') :
    IsClean (first :: text) :=
  List.forall_mem_cons.mpr ⟨clean, others⟩

theorem isClean_nil : IsClean [] :=
  fun _ member => by cases member

/-- Pieces without line breaks have none when commas stand between them. -/
theorem isClean_commaSeparated
    (pieces : List (List Char))
    (clean : ∀ piece ∈ pieces, IsClean piece) :
    IsClean (commaSeparated pieces) := by
  induction pieces with
  | nil => exact isClean_nil
  | cons first rest hypothesis =>
      rw [List.forall_mem_cons] at clean
      cases rest with
      | nil =>
          rw [commaSeparated_single]
          exact clean.1
      | cons second others =>
          rw [commaSeparated_cons_cons]
          exact clean.1.append
            (((hypothesis clean.2).cons (by decide)).cons (by decide))

end Lexeme

namespace Expr

/-- The text of an expression makes no operator before it longer. -/
theorem endsSign
    (value : Expr)
    (printable : value.isPrintable = true)
    (rest : List Char) :
    Lexeme.endsSign (value.listing ++ rest) = true := by
  cases value with
  | literal value => exact value.endsSign printable rest
  | name identifier => exact (Identifier.isWordText printable).endsSign rest
  | unary operator operand => cases operator <;> rfl
  | binary | array | codeBlock => rfl
  | call callee | index callee | send callee | field callee =>
      simp only [isPrintable, Bool.and_eq_true] at printable
      simp only [listing, List.append_assoc]
      exact endsSign callee (by simp only [printable]) _
  | property callee =>
      simp only [isPrintable, Bool.and_eq_true] at printable
      simp only [listing, List.append_assoc]
      exact endsSign callee printable.1.1 _

/--
The listing of a printable expression ends in a visible character, so that a
sign may be put behind it without a gap.
-/
theorem endsVisibly
    (value : Expr)
    (printable : value.isPrintable = true) :
    EndsVisibly value.listing := by
  cases value with
  | literal value => exact value.endsVisibly printable
  | name identifier => exact (Identifier.isWordText printable).endsVisibly
  | unary operator operand =>
      exact (endsVisibly operand printable).append _
  | binary operator left right =>
      exact .cons (.append
        (.cons (.append (.cons (endsVisibly_single rfl right.listing)) _)) _)
  | call callee arguments => exact .append (.cons (endsVisibly_single rfl _)) _
  | index target position => exact .append (.cons (endsVisibly_single rfl _)) _
  | array elements => exact .cons (endsVisibly_single rfl _)
  | property receiver message =>
      simp only [isPrintable, Bool.and_eq_true] at printable
      exact .append
        (.cons (Identifier.isWordText_of_isPlain printable.2).endsVisibly) _
  | send receiver message arguments =>
      exact .append (.cons (.append (.cons (endsVisibly_single rfl _)) _)) _
  | field area column =>
      simp only [isPrintable, Bool.and_eq_true] at printable
      exact .append
        (.cons (.cons (Identifier.isWordText printable.2).endsVisibly)) _
  | codeBlock parameters body =>
      exact .cons (.cons (.append (.cons (.cons (endsVisibly_single rfl _))) _))

mutual

/-- The text of an expression stands on one line and has no backslash. -/
theorem isClean
    (value : Expr)
    (printable : value.isPrintable = true) :
    IsClean value.listing := by
  cases value with
  | literal value => exact value.isClean printable
  | name identifier => exact (Identifier.isWordText printable).isClean
  | unary operator operand =>
      have spelling : IsClean operator.spelling.toList := by
        cases operator <;> decide
      exact spelling.append (isClean operand printable)
  | binary operator left right =>
      simp only [isPrintable, Bool.and_eq_true] at printable
      have spelling : IsClean operator.spelling.toList := by
        cases operator <;> decide
      have after : IsClean (' ' :: (right.listing ++ [')'])) :=
        ((isClean right printable.2).append (by decide)).cons (by decide)
      exact ((isClean left printable.1).append
        ((spelling.append after).cons (by decide))).cons
        (by decide)
  | call callee arguments =>
      simp only [isPrintable, Bool.and_eq_true] at printable
      exact (isClean callee printable.1.1.1).append
        (((isClean_commaSeparated _
          (isClean_listings arguments printable.2)).append
          (by decide)).cons (by decide))
  | index target position =>
      simp only [isPrintable, Bool.and_eq_true] at printable
      exact (isClean target printable.1.1).append
        (((isClean position printable.2).append (by decide)).cons (by decide))
  | array elements =>
      exact ((isClean_commaSeparated _
        (isClean_listings elements printable)).append
        (by decide)).cons (by decide)
  | property receiver message =>
      simp only [isPrintable, Bool.and_eq_true] at printable
      exact (isClean receiver printable.1.1).append
        ((Identifier.isWordText_of_isPlain printable.2).isClean.cons
          (by decide))
  | send receiver message arguments =>
      simp only [isPrintable, Bool.and_eq_true] at printable
      exact (isClean receiver printable.1.1.1).append
        (((Identifier.isWordText_of_isPlain printable.1.2).isClean.append
          (((isClean_commaSeparated _
            (isClean_listings arguments printable.2)).append
            (by decide)).cons (by decide))).cons (by decide))
  | field area column =>
      simp only [isPrintable, Bool.and_eq_true] at printable
      exact (isClean area printable.1.1).append
        (((Identifier.isWordText printable.2).isClean.cons (by decide)).cons
          (by decide))
  | codeBlock parameters body =>
      simp only [isPrintable, Bool.and_eq_true, List.all_eq_true] at printable
      have names : ∀ piece ∈ parameters.map Identifier.listing,
          IsClean piece := by
        intro piece member
        obtain ⟨parameter, isParameter, rfl⟩ := List.mem_map.mp member
        exact (Identifier.isWordText
          (printable.1 parameter isParameter)).isClean
      exact (((isClean_commaSeparated _ names).append
        ((((isClean_commaSeparated _ (isClean_listings body printable.2)).append
          (by decide)).cons (by decide)).cons (by decide))).cons
          (by decide)).cons (by decide)

/-- The texts of printable expressions have no line breaks. -/
theorem isClean_listings
    (values : List Expr)
    (printable : arePrintable values = true) :
    ∀ piece ∈ listings values, IsClean piece := by
  cases values with
  | nil => exact fun _ member => by cases member
  | cons first rest =>
      rw [arePrintable, Bool.and_eq_true] at printable
      exact List.forall_mem_cons.mpr
        ⟨isClean first printable.1, isClean_listings rest printable.2⟩

end

theorem spells_separated
    {values : List Expr}
    (each : ∀ value ∈ values, Spells value.listing value.tokens endsWord) :
    Spells (commaSeparated (listings values)) (commaTokens (tokenGroups values))
      endsWord := by
  rw [listings_eq_map, tokenGroups_eq_map]
  exact spells_commaSeparated values each

/-- Arguments between parentheses. -/
theorem spells_arguments
    {arguments : List Expr}
    (each : ∀ value ∈ arguments, Spells value.listing value.tokens endsWord) :
    Spells ('(' :: (commaSeparated (listings arguments) ++ [')']))
      (.unplaced .leftParenthesis "(" ::
        (commaTokens (tokenGroups arguments) ++
          [.unplaced .rightParenthesis ")"])) endsWord := by
  have inside := (spells_separated each).append
    (spells_delimiter ')' .rightParenthesis (by decide)) (fun _ _ => rfl)
  exact ((spells_delimiter '(' .leftParenthesis (by decide)).append inside
    (fun _ _ => rfl)).weaken (fun _ => id) (fun _ _ => rfl)

mutual

/-- The text of a printable expression spells the tokens of the expression. -/
theorem spells
    (value : Expr)
    (printable : value.isPrintable = true) :
    Spells value.listing value.tokens endsWord := by
  cases value with
  | literal value => exact value.spells printable
  | name identifier => exact Identifier.spells printable
  | unary operator operand =>
      exact operator.spells.append (spells operand printable)
        (fun rest _ => operand.endsSign printable rest)
  | binary operator left right =>
      simp only [isPrintable, Bool.and_eq_true] at printable
      have inner := (spells left printable.1).operation
        (left.endsVisibly printable.1)
        operator.spells ((spells right printable.2).append
          (spells_delimiter ')' .rightParenthesis (by decide)) (fun _ _ => rfl))
      exact ((spells_delimiter '(' .leftParenthesis (by decide)).append inner
        (fun _ _ => rfl)).weaken (fun _ => id) (fun _ _ => rfl)
  | call callee arguments =>
      simp only [isPrintable, Bool.and_eq_true] at printable
      exact (spells callee printable.1.1.1).append
        (spells_arguments (spells_listings arguments printable.2))
        (fun _ _ => rfl)
  | index target position =>
      simp only [isPrintable, Bool.and_eq_true] at printable
      have inside := (spells position printable.2).append
        (spells_delimiter ']' .rightBracket (by decide)) (fun _ _ => rfl)
      have bracketed := spells_leftBracket.append inside (fun rest _ => by
        rw [List.append_assoc]
        exact noPath_of_isClean (position.isClean printable.2) rest)
      exact ((spells target printable.1.1).append bracketed
        (fun _ _ => rfl)).weaken (fun _ => id)
        (fun _ _ => rfl)
  | array elements =>
      have inside :=
        (spells_separated (spells_listings elements printable)).append
          (spells_delimiter '\x7d' .rightBrace (by decide)) (fun _ _ => rfl)
      exact ((spells_delimiter '\x7b' .leftBrace (by decide)).append inside
        (fun _ _ => rfl)).weaken (fun _ => id) (fun _ _ => rfl)
  | property receiver message =>
      simp only [isPrintable, Bool.and_eq_true] at printable
      exact (spells receiver printable.1.1).append
        (spells_colon.append (Identifier.spells_of_isPlain printable.2)
          (fun rest _ => Identifier.beginsName printable.2 rest))
          (fun _ _ => rfl)
  | send receiver message arguments =>
      simp only [isPrintable, Bool.and_eq_true] at printable
      have named := (Identifier.spells_of_isPlain printable.1.2).append
        (spells_arguments (spells_listings arguments printable.2))
        (fun _ _ => rfl)
      exact (spells receiver printable.1.1.1).append
        (spells_colon.append named (fun rest _ => by
          change Lexeme.beginsName (message.listing ++ _ ++ rest) = true
          rw [List.append_assoc]
          exact Identifier.beginsName printable.1.2 _)) (fun _ _ => rfl)
  | field area column =>
      simp only [isPrintable, Bool.and_eq_true] at printable
      exact (spells area printable.1.1).append
        ((spells_longSign '-' '>' .arrow (by decide)).append
          (Identifier.spells printable.2)
          (fun _ _ => rfl)) (fun _ _ => rfl)
  | codeBlock parameters body =>
      simp only [isPrintable, Bool.and_eq_true, List.all_eq_true] at printable
      have names := spells_commaSeparated parameters
        (fun parameter member =>
          Identifier.spells (printable.1 parameter member))
      have inside :=
        (spells_separated (spells_listings body printable.2)).append
          (spells_delimiter '\x7d' .rightBrace (by decide)) (fun _ _ => rfl)
      have bar := spells_delimiter '|' .bar (by decide)
      have afterNames := names.append
        (bar.append (spells_space.append inside (fun _ _ => rfl))
          (fun _ _ => rfl))
        (fun _ _ => rfl)
      exact ((spells_delimiter '\x7b' .leftBrace (by decide)).append
        (bar.append afterNames (fun _ _ => rfl)) (fun _ _ => rfl)).weaken
        (fun _ => id)
          (fun _ _ => rfl)

/-- The texts of printable expressions spell their tokens. -/
theorem spells_listings
    (values : List Expr)
    (printable : arePrintable values = true) :
    ∀ value ∈ values, Spells value.listing value.tokens endsWord := by
  cases values with
  | nil => exact fun _ member => by cases member
  | cons first rest =>
      rw [arePrintable, Bool.and_eq_true] at printable
      exact List.forall_mem_cons.mpr
        ⟨spells first printable.1, spells_listings rest printable.2⟩

end

end Expr

end Clipper
