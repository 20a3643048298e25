import Clipper.Proofs.Lexeme.QuotedLiteral
import Clipper.Proofs.Lexeme.Spelling

/-!
# Words and signs

Each word of the language, each sign and each literal spells its one token,
given that the text after it does not make it longer.

The conditions on the text after it are few: a word or a number must not go
on, a sign of one character must not become a sign of two, and a colon must be
followed by a name that does not make it a scope.  They are the boundaries
that the listing of a program puts between its tokens, as blanks or as other
signs.  The kinds are tables of the model, so the lemmas for words and signs
are each proved once, for every entry of a table.
-/

namespace Clipper

namespace Lexeme

open Clipper.Source

/-! ## What ends a word or a sign -/

/-- No part of a name, no dot and no double quote comes next. -/
def endsWord (rest : List Char) : Bool :=
  rest.head?.all (fun character =>
    !isNamePart character && character != '.' && character != '"')

/-- No character comes next that makes an operator longer. -/
def endsSign (rest : List Char) : Bool :=
  rest.head?.all (fun character =>
    !(['=', '>', '/', '*', '?'].contains character))

theorem endsWord_cons
    {character : Char}
    {rest : List Char} :
    endsWord (character :: rest) = true ↔
      isNamePart character = false ∧ character ≠ '.' ∧ character ≠ '"' := by
  simp [endsWord, and_assoc]

theorem endsSign_cons
    {character : Char}
    {rest : List Char} :
    endsSign (character :: rest) = true ↔
      character ≠ '=' ∧ character ≠ '>' ∧ character ≠ '/' ∧ character ≠ '*' ∧
      character ≠ '?' := by
  simp [endsSign]

theorem isDigit_of_not_isNamePart
    {character : Char}
    (noPart : isNamePart character = false) :
    character.isDigit = false := by
  simp only [isNamePart, Char.isAlphanum, Bool.or_eq_false_iff] at noPart
  exact noPart.1.2

/-- A run of characters that pass a test ends where the next one fails it. -/
theorem takeWhile_append_of_head
    {test : Char → Bool}
    {text rest : List Char}
    (inside : ∀ character ∈ text, test character = true)
    (outside : ∀ character ∈ rest.head?, test character = false) :
    (text ++ rest).takeWhile test = text := by
  rw [List.takeWhile_append_of_pos inside]
  cases rest with
  | nil => simp
  | cons character rest => simp [outside character rfl]

/-! ## Names -/

theorem opensLineComment_of_ne
    {first : Char}
    (noSlash : first ≠ '/')
    (noAnd : first ≠ '&')
    (rest : List Char) :
    opensLineComment (first :: rest) = false := by
  simp [opensLineComment, noSlash, noAnd]

theorem opensStarComment_of_ne
    {first : Char}
    (noStar : first ≠ '*')
    (before rest : List Char) :
    opensStarComment before (first :: rest) = false := by
  simp [opensStarComment, noStar]

/-- The characters that open something else than a number, a name or a sign. -/
def specialCharacters : List Char :=
  [' ', '\t', '\r', '\x0c', '\n', '/', '&', '*', ';', '"', '\'', '[', '.', ':']

/--
A character without a rule of its own opens a number, a name or a sign,
whatever stands around it.
-/
theorem opening_of_ordinary
    {first : Char}
    (ordinary : first ∉ specialCharacters)
    (before rest : List Char) :
    Opening.of before first rest =
      if first.isDigit then .digit else if isNameStart first then .name
      else .sign := by
  simp only [specialCharacters, List.mem_cons, List.not_mem_nil, or_false,
    not_or] at ordinary
  simp [Opening.of, ordinary, isSpace, isBlank, opensLineComment_of_ne,
    opensStarComment_of_ne]

/-- All letters stand behind the digits. -/
theorem isDigit_of_nameStart
    {character : Char}
    (starts : isNameStart character = true) :
    character.isDigit = false := by
  rw [isNameStart, Bool.or_eq_true, beq_iff_eq] at starts
  have behind : '9'.val < character.val := by
    obtain letter | rfl := starts
    · obtain upper | lower := (Bool.or_eq_true _ _).mp letter
      · have first : 'A'.val ≤ character.val := (of_decide_eq_true upper).1
        exact UInt32.lt_of_lt_of_le (by decide) first
      · have both : (decide ('a'.val ≤ character.val) &&
            decide (character.val ≤ 'z'.val)) = true :=
          lower
        rw [Bool.and_eq_true, decide_eq_true_eq] at both
        exact UInt32.lt_of_lt_of_le (by decide) both.1
    · decide
  rw [Char.isDigit, Bool.and_eq_false_iff, decide_eq_false_iff_not,
    decide_eq_false_iff_not]
  exact .inr (UInt32.not_le.mpr behind)

theorem isNamePart_of_nameStart
    {character : Char}
    (starts : isNameStart character = true) :
    isNamePart character = true := by
  simp only [isNameStart, isNamePart, Char.isAlphanum, Bool.or_eq_true]
    at starts ⊢
  exact starts.imp_left Or.inl

/-- A character that begins names opens a name. -/
theorem opening_of_nameStart
    {first : Char}
    (starts : isNameStart first = true)
    (before rest : List Char) :
    Opening.of before first rest = .name := by
  have ordinary : first ∉ specialCharacters := by
    have others : specialCharacters.all
        (fun character => !isNameStart character) = true := rfl
    intro special
    have other := List.all_eq_true.mp others first special
    rw [starts] at other
    cases other
  rw [opening_of_ordinary ordinary, isDigit_of_nameStart starts, starts]
  rfl

/-- A digit opens a number. -/
theorem opening_of_digit
    {first : Char}
    (digit : first.isDigit = true)
    (before rest : List Char) :
    Opening.of before first rest = .digit := by
  have ordinary : first ∉ specialCharacters := by
    have others : specialCharacters.all (fun character => !character.isDigit) =
        true := rfl
    intro special
    have other := List.all_eq_true.mp others first special
    rw [digit] at other
    cases other
  rw [opening_of_ordinary ordinary, digit]
  rfl

/-- A name ends with its text, if no part of a name follows. -/
theorem takeWhile_namePart
    {text rest : List Char}
    (parts : ∀ character ∈ text, isNamePart character = true)
    (ends : endsWord rest = true) :
    (text ++ rest).takeWhile isNamePart = text := by
  refine takeWhile_append_of_head parts fun character member => ?_
  cases rest with
  | nil => cases member
  | cons head others =>
      cases member
      exact (endsWord_cons.mp ends).1

/-- The text of a name without a scope: a beginning and further parts. -/
def isPlainName : List Char → Bool
  | [] => false
  | first :: rest => isNameStart first && rest.all isNamePart

/-- A plain name spells a reserved word or an identifier. -/
theorem spells_plainName
    {text : List Char}
    (plain : isPlainName text = true) :
    Spells text
      [.unplaced ((Word.reserved? (String.ofList text)).getD .identifier)
        (String.ofList text)]
      endsWord := by
  cases text with
  | nil => cases plain
  | cons first tail =>
      rw [isPlainName, Bool.and_eq_true, List.all_eq_true] at plain
      refine spells_token fun before offset rest ends => ?_
      rw [cutPiece, opening_of_nameStart plain.1]
      simp only [namePiece, takeWhile_namePart plain.2 ends]

/-- The text of a name behind two colons. -/
def isScopedName : List Char → Bool
  | ':' :: ':' :: name => isPlainName name
  | _ => false

/--
A scoped name spells one name, which holds its colons.  The blanks that may
stand behind the colons are not part of it.
-/
theorem spells_scopedName
    {text : List Char}
    (isScoped : isScopedName text = true) :
    Spells text [.unplaced .identifier (String.ofList text)] endsWord := by
  unfold isScopedName at isScoped
  split at isScoped
  · next name =>
      cases name with
      | nil => cases isScoped
      | cons first tail =>
          rw [isPlainName, Bool.and_eq_true, List.all_eq_true] at isScoped
          refine spells_token fun before offset rest ends => ?_
          have parts : ∀ character ∈ first :: tail,
              isNamePart character = true :=
            List.forall_mem_cons.mpr
              ⟨isNamePart_of_nameStart isScoped.1, isScoped.2⟩
          have whole := takeWhile_namePart parts ends
          have noGap : (first == ' ' || first == '\t') = false := by
            refine Bool.eq_false_iff.mpr fun blank => ?_
            rw [Bool.or_eq_true, beq_iff_eq, beq_iff_eq] at blank
            obtain rfl | rfl := blank
            · cases isScoped.1
            · cases isScoped.1
          have opens : Opening.of before ':' (':' :: first :: tail ++ rest) =
              .scope := rfl
          rw [cutPiece, opens]
          rw [List.cons_append] at whole
          simp only [scopePiece, List.cons_append, List.drop_succ_cons,
            List.drop_zero, List.takeWhile_cons, noGap]
          simp [isScoped.1, whole, Nat.add_comm]
  · cases isScoped

/-! ## Numbers -/

/-- Digits, and a dot with further digits or nothing. -/
def isNumeral (text : List Char) : Bool :=
  text.head?.any Char.isDigit &&
    (match text.dropWhile Char.isDigit with
      | [] => true
      | '.' :: digits => !digits.isEmpty && digits.all Char.isDigit
      | _ => false)

/-- A run of digits ends with its text, if no part of a word follows. -/
theorem takeWhile_isDigit
    {text rest : List Char}
    (digits : ∀ character ∈ text, character.isDigit = true)
    (ends : endsWord rest = true) :
    (text ++ rest).takeWhile Char.isDigit = text := by
  refine takeWhile_append_of_head digits fun character member => ?_
  cases rest with
  | nil => cases member
  | cons head others =>
      cases member
      exact isDigit_of_not_isNamePart (endsWord_cons.mp ends).1

theorem opensFraction_of_endsWord
    {rest : List Char}
    (ends : endsWord rest = true) :
    opensFraction rest = false := by
  cases rest with
  | nil => rfl
  | cons head others => simp [opensFraction, (endsWord_cons.mp ends).2.1]

/--
A numeral spells one number: digits, with a dot and a fraction or without, and
nothing that would make it longer.
-/
theorem spells_numeral
    {text : List Char}
    (numeral : isNumeral text = true) :
    Spells text [.unplaced .number (String.ofList text)] endsWord := by
  cases text with
  | nil => cases numeral
  | cons first tail =>
      rw [isNumeral, Bool.and_eq_true, List.head?_cons, Option.any_some]
        at numeral
      obtain ⟨digit, further⟩ := numeral
      rw [List.dropWhile_cons_of_pos digit] at further
      obtain ⟨digits, inside, parts⟩ :
          ∃ digits, (∀ character ∈ digits, character.isDigit = true) ∧
            tail = digits ++ tail.dropWhile Char.isDigit :=
        ⟨_, fun _ => List.mem_takeWhile_imp,
          List.takeWhile_append_dropWhile.symm⟩
      refine spells_token fun before offset rest ends => ?_
      rw [cutPiece, opening_of_digit digit]
      split at further
      · next noFraction =>
          rw [noFraction, List.append_nil] at parts
          subst parts
          simp [numberPiece, takeWhile_isDigit inside ends,
            opensFraction_of_endsWord ends]
      · next more isFraction =>
          rw [isFraction] at parts
          rw [Bool.and_eq_true, List.all_eq_true] at further
          have whole : (digits ++ '.' :: (more ++ rest)).takeWhile
              Char.isDigit = digits :=
            takeWhile_append_of_head inside (by simp)
          have opens : opensFraction ('.' :: (more ++ rest)) = true := by
            cases more with
            | nil => cases further.1
            | cons next others => exact further.2 next List.mem_cons_self
          subst parts
          simp [numberPiece, whole, opens, takeWhile_isDigit further.2 ends]
      · cases further

/-! ## Strings -/

/-- Whether a text can stand between quotes as it is, but for its quotes. -/
def isQuotable (text : List Char) : Bool :=
  text.all (fun character => !(['\\', '\n', '\r'].contains character))

/-- A text with every double quote in it doubled. -/
def doubleQuotes (text : List Char) : List Char :=
  text.flatMap (fun character =>
    if character = '"' then ['"', '"'] else [character])

/--
Where there is no backslash, to double the quotes is all that a literal needs.
-/
theorem withDoubled_of_quotable
    {text : List Char}
    (quotable : isQuotable text = true) :
    withDoubled '"' text = doubleQuotes text := by
  induction text with
  | nil => rfl
  | cons character text hypothesis =>
      rw [isQuotable, List.all_cons, Bool.and_eq_true] at quotable
      have noSlash : character ≠ '\\' := by
        rintro rfl
        cases quotable.1
      rw [withDoubled, doubleQuotes, List.flatMap_cons, List.flatMap_cons,
        ← withDoubled, ← doubleQuotes, hypothesis quotable.2]
      by_cases same : character = '"' <;> simp [noSlash, same]

/--
A text with its double quotes doubled is read back from between double quotes,
if there is no backslash in it.
-/
theorem readQuoted_doubleQuotes
    {text rest : List Char}
    (quotable : isQuotable text = true)
    (ends : endsWord rest = true)
    (offset : Nat) :
    readQuoted .plain '"' () offset (doubleQuotes text ++ '"' :: rest) =
      ⟨text, (doubleQuotes text).length + 1, true, ()⟩ := by
  have oneLine : ∀ character ∈ text, character ≠ '\n' ∧ character ≠ '\r' := by
    intro character member
    have plain := List.all_eq_true.mp quotable character member
    constructor
    all_goals
      rintro rfl
      cases plain
  have single : rest.head? ≠ some '"' := by
    cases rest with
    | nil => nofun
    | cons following after =>
        exact fun same => (endsWord_cons.mp ends).2.2 (Option.some_inj.mp same)
  rw [← withDoubled_of_quotable quotable]
  exact readQuoted_withDoubled (.inl rfl) oneLine single

/-- A text between double quotes spells one string, which holds the text. -/
theorem spells_quote
    {text : List Char}
    (quotable : isQuotable text = true) :
    Spells (Literal.quote text) [.unplaced .string (String.ofList text)]
      endsWord := by
  change Spells ('"' :: (doubleQuotes text ++ ['"'])) _ _
  refine spells_token fun before offset rest ends => ?_
  have opens : Opening.of before '"' (doubleQuotes text ++ ['"'] ++ rest) =
      .quote := rfl
  rw [cutPiece, opens]
  simp only [quotePiece, List.append_assoc, List.singleton_append,
    readQuoted_doubleQuotes quotable ends]
  simp

/-! ## Words between dots -/

/--
A word between dots spells its one token, if it is in the table of dot words.
-/
theorem spells_dotted
    {word : List Char}
    {kind : TokenKind}
    (isWord : Word.dotted? (String.ofList word) = some kind)
    (noDot : '.' ∉ word)
    (oneLine : '\n' ∉ word) :
    Spells ('.' :: (word ++ ['.']))
      [.unplaced kind (String.ofList ('.' :: (word ++ ['.'])))] anyText := by
  refine spells_token fun before offset rest _ => ?_
  have opens : Opening.of before '.' (word ++ ['.'] ++ rest) = .dot := rfl
  have line : firstLine (word ++ ['.'] ++ rest) =
      word ++ '.' :: firstLine rest := by
    rw [firstLine, List.append_assoc, List.takeWhile_append_of_pos]
    · rfl
    · intro character member
      refine bne_iff_ne.mpr ?_
      rintro rfl
      exact oneLine member
  have inner : (word ++ '.' :: firstLine rest).takeWhile (· != '.') = word :=
    takeWhile_append_of_head
      (fun character member =>
        bne_iff_ne.mpr (by rintro rfl; exact noDot member)) (by simp)
  rw [cutPiece, opens]
  simp only [dotPiece, line, inner, isWord]
  simp

theorem dotted_and : Word.dotted? (String.ofList ['a', 'n', 'd']) =
    some .and := by
  decide +kernel

theorem dotted_or : Word.dotted? (String.ofList ['o', 'r']) = some .or := by
  decide +kernel

/-! ## Signs -/

/--
A run of characters that opens a sign and is cut off as one
piece spells its token.
-/
theorem spells_sign
    {preceded followed : List Char → Bool}
    {first : Char}
    {tail : List Char}
    {kind : TokenKind}
    (opens :
      ∀ before rest, preceded before = true → followed rest = true →
        Opening.of before first (tail ++ rest) = .sign)
    (isSign :
      ∀ rest, followed rest = true →
        sign? (first :: (tail ++ rest)) = some (kind, tail.length + 1)) :
    SpellsAfter preceded (first :: tail)
      [.unplaced kind (kind.commonSpelling?.getD
        (String.ofList (first :: tail)))] followed := by
  have sound (lexeme : String) :
      ∀ cause, Content.token kind lexeme ≠ .fault cause := by simp
  refine spells_of_piece (sound _)
    fun before offset rest isPreceded isFollowed => ?_
  rw [cutPiece, opens before rest isPreceded isFollowed]
  simp [signPiece, isSign rest isFollowed]

/-- The delimiters, which nothing makes longer. -/
def delimiters : List (Char × TokenKind) :=
  [('(', .leftParenthesis), (')', .rightParenthesis), ('\x7b', .leftBrace),
    ('\x7d', .rightBrace), (']', .rightBracket), (',', .comma), ('|', .bar)]

/--
A delimiter spells its token before any text: no other sign begins with it.
-/
theorem spells_delimiter
    (character : Char)
    (kind : TokenKind)
    (member : (character, kind) ∈ delimiters) :
    Spells [character] [.unplaced kind (String.ofList [character])]
      anyText := by
  simp only [delimiters, List.mem_cons, List.not_mem_nil, or_false,
    Prod.mk.injEq] at member
  rcases member with ⟨rfl, rfl⟩ | ⟨rfl, rfl⟩ | ⟨rfl, rfl⟩ | ⟨rfl, rfl⟩ | ⟨rfl,
    rfl⟩ | ⟨rfl, rfl⟩ |
    ⟨rfl, rfl⟩
  all_goals exact spells_sign (fun _ _ _ _ => rfl) (fun _ _ => rfl)

/-- The signs of two characters. -/
def longSigns : List (Char × Char × TokenKind) :=
  [('+', '=', .plusEqual), ('-', '=', .minusEqual), ('/', '=', .slashEqual),
    (':', '=', .assign), ('=', '=', .exactlyEqual), ('!', '=', .notEqual),
    ('<', '=', .lessEqual), ('>', '=', .greaterEqual), ('-', '>', .arrow),
    ('?', '?', .doubleQuestion)]

/--
A sign of two characters spells its token before any text,
as no sign is longer.
-/
theorem spells_longSign
    (first second : Char)
    (kind : TokenKind)
    (member : (first, second, kind) ∈ longSigns) :
    Spells [first, second] [.unplaced kind (String.ofList [first, second])]
      anyText := by
  simp only [longSigns, List.mem_cons, List.not_mem_nil, or_false,
    Prod.mk.injEq] at member
  rcases member
    with ⟨rfl, rfl, rfl⟩ | ⟨rfl, rfl, rfl⟩ | ⟨rfl, rfl, rfl⟩ | ⟨rfl, rfl, rfl⟩ |
    ⟨rfl, rfl, rfl⟩ | ⟨rfl, rfl, rfl⟩ | ⟨rfl, rfl, rfl⟩ | ⟨rfl, rfl,
      rfl⟩ | ⟨rfl, rfl, rfl⟩ |
    ⟨rfl, rfl, rfl⟩
  all_goals exact spells_sign (fun _ _ _ _ => rfl) (fun _ _ => rfl)

/-- The signs of one character that a further one could make longer. -/
def shortSigns : List (Char × TokenKind) :=
  [('+', .plus), ('-', .minus), ('/', .slash), ('%', .percent), ('=', .equal),
    ('!', .not), ('<', .less), ('>', .greater), ('$', .dollar),
    ('?', .question)]

/--
A sign of one character spells its token where the next character
does not make it longer.
-/
theorem spells_shortSign
    (character : Char)
    (kind : TokenKind)
    (member : (character, kind) ∈ shortSigns) :
    Spells [character] [.unplaced kind (String.ofList [character])]
      endsSign := by
  simp only [shortSigns, List.mem_cons, List.not_mem_nil, or_false,
    Prod.mk.injEq] at member
  rcases member with ⟨rfl, rfl⟩ | ⟨rfl, rfl⟩ | ⟨rfl, rfl⟩ | ⟨rfl, rfl⟩ | ⟨rfl,
    rfl⟩ | ⟨rfl, rfl⟩ |
    ⟨rfl, rfl⟩ | ⟨rfl, rfl⟩ | ⟨rfl, rfl⟩ | ⟨rfl, rfl⟩
  all_goals
    refine spells_sign (fun before rest _ ends => ?_) (fun rest ends => ?_)
    · cases rest with
      | nil => rfl
      | cons next rest =>
          simp [Opening.of, isSpace, isBlank, opensLineComment,
            opensStarComment, isNameStart, endsSign_cons.mp ends]
    · cases rest with
      | nil => rfl
      | cons next rest => simp [sign?, endsSign_cons.mp ends]

/-! ### Signs that depend on their surroundings -/

/-- Something stands before on the same line. -/
def withinLine (before : List Char) : Bool :=
  !atLineStart before

theorem opening_of_star
    {before : List Char}
    (within : withinLine before = true)
    (rest : List Char) :
    Opening.of before '*' rest = .sign := by
  simp only [withinLine, Bool.not_eq_true'] at within
  simp [Opening.of, isSpace, isBlank, opensLineComment, opensStarComment,
    isNameStart, within]

theorem spells_star :
    SpellsAfter withinLine ['*'] [.unplaced .star "*"] endsSign := by
  refine spells_sign (fun before rest within _ => opening_of_star within _)
    (fun rest ends => ?_)
  cases rest with
  | nil => rfl
  | cons next rest => simp [sign?, endsSign_cons.mp ends]

theorem spells_starEqual :
    SpellsAfter withinLine ['*', '='] [.unplaced .starEqual "*="] anyText :=
  spells_sign (fun _ _ within _ => opening_of_star within _) (fun _ _ => rfl)

/-- A name comes next. -/
def beginsName (rest : List Char) : Bool :=
  rest.head?.any isNameStart

/--
A colon spells its token before a name: it is neither an
assignment nor a scope there.
-/
theorem spells_colon : Spells [':'] [.unplaced .colon ":"] beginsName := by
  have differs {next : Char} (starts : isNameStart next = true) :
      next ≠ ':' ∧ next ≠ '=' := by
    constructor <;> (rintro rfl; cases starts)
  refine spells_sign (fun before rest _ begins => ?_) (fun rest begins => ?_)
  · cases rest with
    | nil => cases begins
    | cons next rest =>
        have other := differs (show isNameStart next = true from begins)
        simp [Opening.of, isSpace, isBlank, opensLineComment, opensStarComment,
          isNameStart, other]
  · cases rest with
    | nil => cases begins
    | cons next rest =>
        have other := differs (show isNameStart next = true from begins)
        simp [sign?, other]

/-- No backslash stands before the next closing bracket of the line. -/
def noPath (rest : List Char) : Bool :=
  !(Lookahead.pathText rest).contains '\\'

theorem spells_leftBracket :
    Spells ['['] [.unplaced .leftBracket "["] noPath := by
  refine spells_token fun before offset rest plain => ?_
  have opens : Opening.of before '[' ([] ++ rest) = .bracket := rfl
  have noBackslash : '\\' ∉ Lookahead.pathText rest := by
    simpa [noPath] using plain
  rw [cutPiece, opens]
  simp [bracketPiece, LineReader.plain, Lexeme.pathEnd?, noBackslash]

end Lexeme

/-! ## Operators -/

open Lexeme

/-- The kind of the token that stands for an operator. -/
def BinaryOperator.kind : BinaryOperator → TokenKind
  | add => .plus
  | subtract => .minus
  | multiply => .star
  | divide => .slash
  | modulo => .percent
  | equal => .equal
  | exactlyEqual => .exactlyEqual
  | notEqual => .notEqual
  | less => .less
  | lessEqual => .lessEqual
  | greater => .greater
  | greaterEqual => .greaterEqual
  | contains => .dollar
  | and => .and
  | or => .or

@[simp]
theorem BinaryOperator.ofKind?_kind (operator : BinaryOperator) :
    ofKind? operator.kind = some operator := by
  cases operator <;> rfl

/-- The kind of the token that stands for a prefix operator. -/
def UnaryOperator.kind : UnaryOperator → TokenKind
  | negate => .minus
  | plus => .plus
  | not => .not

@[simp]
theorem UnaryOperator.ofKind?_kind (operator : UnaryOperator) :
    ofKind? operator.kind = some operator := by
  cases operator <;> rfl

/-- The kind of the token that stands for an updating operator. -/
def UpdateOperator.kind : UpdateOperator → TokenKind
  | add => .plusEqual
  | subtract => .minusEqual
  | multiply => .starEqual
  | divide => .slashEqual

@[simp]
theorem UpdateOperator.ofKind?_kind (operator : UpdateOperator) :
    ofKind? operator.kind = some operator := by
  cases operator <;> rfl

/--
A binary operator spells its token behind something visible on its line.  A
star at the beginning of a line would open a comment.
-/
theorem BinaryOperator.spells (operator : BinaryOperator) :
    SpellsAfter withinLine operator.spelling.toList
      [.unplaced operator.kind operator.spelling] endsSign := by
  have short (character : Char) (kind : TokenKind)
      (member : (character, kind) ∈ shortSigns) :
      SpellsAfter withinLine [character]
        [.unplaced kind (String.ofList [character])] endsSign :=
    (spells_shortSign character kind member).weaken (fun _ _ => rfl)
      (fun _ => id)
  have long (first second : Char) (kind : TokenKind)
      (member : (first, second, kind) ∈ longSigns) :
      SpellsAfter withinLine [first, second]
        [.unplaced kind (String.ofList [first, second])] endsSign :=
    (spells_longSign first second kind member).weaken (fun _ _ => rfl)
      (fun _ _ => rfl)
  cases operator with
  | multiply => exact spells_star
  | add => exact short '+' .plus (by decide)
  | subtract => exact short '-' .minus (by decide)
  | divide => exact short '/' .slash (by decide)
  | modulo => exact short '%' .percent (by decide)
  | equal => exact short '=' .equal (by decide)
  | less => exact short '<' .less (by decide)
  | greater => exact short '>' .greater (by decide)
  | contains => exact short '$' .dollar (by decide)
  | exactlyEqual => exact long '=' '=' .exactlyEqual (by decide)
  | notEqual => exact long '!' '=' .notEqual (by decide)
  | lessEqual => exact long '<' '=' .lessEqual (by decide)
  | greaterEqual => exact long '>' '=' .greaterEqual (by decide)
  | and =>
      exact (spells_dotted dotted_and (by decide) (by decide)).weaken
        (fun _ _ => rfl) (fun _ _ => rfl)
  | or =>
      exact (spells_dotted dotted_or (by decide) (by decide)).weaken
        (fun _ _ => rfl) (fun _ _ => rfl)

theorem UnaryOperator.spells (operator : UnaryOperator) :
    Spells operator.spelling.toList [.unplaced operator.kind operator.spelling]
      endsSign := by
  cases operator with
  | negate => exact spells_shortSign '-' .minus (by decide)
  | plus => exact spells_shortSign '+' .plus (by decide)
  | not => exact spells_shortSign '!' .not (by decide)

/-- The sign of an updating assignment spells its token. -/
theorem UpdateOperator.spells (operator : UpdateOperator) :
    SpellsAfter withinLine operator.spelling.toList
      [.unplaced operator.kind operator.spelling] anyText := by
  have long (first second : Char) (kind : TokenKind)
      (member : (first, second, kind) ∈ longSigns) :
      SpellsAfter withinLine [first, second]
        [.unplaced kind (String.ofList [first, second])] anyText :=
    (spells_longSign first second kind member).weaken (fun _ _ => rfl)
      (fun _ => id)
  cases operator with
  | multiply => exact spells_starEqual
  | add => exact long '+' '=' .plusEqual (by decide)
  | subtract => exact long '-' '=' .minusEqual (by decide)
  | divide => exact long '/' '=' .slashEqual (by decide)

end Clipper
