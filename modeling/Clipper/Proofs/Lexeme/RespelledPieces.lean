import Clipper.Proofs.Lexeme.TokenText
import Clipper.Proofs.Source.Respelling

/-!
# Pieces of respelled lines

A piece that is neither skipped nor a semicolon is told by its line, and does
not depend on the case of letters: words are looked up in lower case, and every
sign is made of other characters.  So a respelled line has the same pieces, with
their texts respelled.

A respelling changes the letters of a line, and may put a return before its
line feed: to lower all letters is one, and to give every line feed its return
is another.  The lemmas go through the sorts of pieces, and each shows that
the respelled text opens a piece of the same sort, of the same length and with
a respelled content.  A word is looked up in lower case, so a reserved word
stays one.
-/

namespace Clipper

open Source

/-- The fault with its word respelled. -/
def Fault.respelled (letter : Char → Char) : Fault → Fault
  | unknownDotWord word => unknownDotWord (word.map letter)
  | fault => fault

namespace Lexeme

/-- The content with its text respelled. -/
def Content.respelled (letter : Char → Char) : Content → Content
  | .skipped => .skipped
  | .token kind lexeme => .token kind (lexeme.map letter)
  | .fault cause => .fault (cause.respelled letter)

/-- The piece with its text respelled. -/
def Piece.respelled
    (letter : Char → Char)
    (piece : Piece) :
    Piece :=
  { piece with content := piece.content.respelled letter }

/-- Where no letter changes, nothing is respelled. -/
@[simp]
theorem Content.respelled_id (content : Content) :
    content.respelled id = content := by
  cases content with
  | skipped => rfl
  | token kind lexeme => rw [respelled, String.map_id]
  | fault cause =>
      cases cause with
      | unknownDotWord word => rw [respelled, Fault.respelled, String.map_id]
      | _ => rfl

@[simp]
theorem Piece.respelled_id (piece : Piece) : piece.respelled id = piece := by
  rw [respelled, Content.respelled_id]

/-! ## Classes of characters -/

theorem ignoresCase_isBlank : IgnoresCase isBlank :=
  .of_capitals (by decide)

theorem ignoresCase_isSpace : IgnoresCase isSpace :=
  .of_capitals (by decide)

theorem ignoresCase_isNameStart : IgnoresCase isNameStart :=
  .of_capitals (by decide)

theorem ignoresCase_isNamePart : IgnoresCase isNamePart :=
  .of_capitals (by decide)

/-! ## Block comments -/

theorem commentLength?_cons
    {first : Char}
    {rest : List Char}
    (goesOn : first = '*' → rest.head? ≠ some '/') :
    commentLength? (first :: rest) = (commentLength? rest).map (· + 1) := by
  rw [commentLength?]
  rintro later rfl rfl
  exact goesOn rfl rfl

section

variable (change : Respelling)
variable {text rest before other : List Char} {first : Char}
    {offset place : Nat}

/-! ## Texts of tokens -/

theorem map_letter_of_noLetters
    {text : String}
    (noLetters : text.toList.any Char.isAlpha = false) :
    text.map change.letter = text := by
  rw [← String.toList_inj, String.toList_map]
  conv_rhs => rw [← List.map_id text.toList]
  refine List.map_congr_left fun character member =>
    change.letter_of_noLetter ?_
  exact Bool.eq_false_iff.mpr (List.any_eq_false.mp noLetters character member)

theorem lowerCase_map_letter (word : String) :
    lowerCase (word.map change.letter) = lowerCase word := by
  rw [← String.toList_inj, lowerCase, lowerCase, String.toList_map,
    String.toList_map, String.toList_map, List.map_map]
  exact List.map_congr_left fun character _ =>
    change.test_letter ignoresCase_toLower character

theorem reserved?_respelled (word : String) :
    Word.reserved? (word.map change.letter) = Word.reserved? word := by
  rw [Word.reserved?, Word.reserved?, lowerCase_map_letter]

theorem dotted?_respelled (word : String) :
    Word.dotted? (word.map change.letter) = Word.dotted? word := by
  rw [Word.dotted?, Word.dotted?, lowerCase_map_letter]

/-! ## Openings -/

/--
A sign stands first in the respelled text if and only if it stands first in
the text, because no respelling makes a sign of a letter.
-/
theorem head?_text_of_visible
    {mark : Char}
    (noLetter : mark.isAlpha = false)
    (visible : isSpace mark = false) :
    (change.text text).head? = some mark ↔ text.head? = some mark := by
  refine change.head?_text_iff noLetter ?_ ?_
  · rintro rfl
    cases visible
  · rintro rfl
    cases visible

/-- A visible mark at the head of a respelled text is one of the text. -/
theorem eq_cons_of_text
    {mark : Char}
    {after : List Char}
    (noLetter : mark.isAlpha = false)
    (visible : isSpace mark = false)
    (same : change.text text = mark :: after) :
    ∃ tail, text = mark :: tail := by
  have begins : text.head? = some mark := by
    rw [← head?_text_of_visible change noLetter visible, same]
    rfl
  obtain ⟨tail, split⟩ := List.head?_eq_some_iff.mp begins
  exact ⟨tail, split⟩

/-- A mark that ends no line stays where a text is respelled. -/
theorem text_cons_mark
    {mark : Char}
    (noLetter : mark.isAlpha = false)
    (inLine : mark ≠ '\n')
    (rest : List Char) :
    change.text (mark :: rest) = mark :: change.text rest := by
  rw [change.text_cons mark rest inLine, change.letter_of_noLetter noLetter]

/-- How a piece opens is told by its line and by the line before it. -/
theorem Opening.of_respelled
    (sameStart : first = '*' → atLineStart other = atLineStart before) :
    Opening.of other (change.letter first) (change.text rest) =
      Opening.of before first rest := by
  have opens (mark : Char) (noLetter : mark.isAlpha = false) :
      change.letter first = mark ↔ first = mark :=
    change.letter_eq_iff noLetter
  have goesOn (mark : Char) (noLetter : mark.isAlpha = false)
      (visible : isSpace mark = false) :
      (change.text rest).head? = some mark ↔ rest.head? = some mark :=
    head?_text_of_visible change noLetter visible
  have comment : opensLineComment (change.letter first :: change.text rest) =
      opensLineComment (first :: rest) := by
    rw [Bool.eq_iff_iff, opensLineComment_cons, opensLineComment_cons,
      opens '/' rfl, opens '&' rfl, goesOn '/' rfl rfl, goesOn '&' rfl rfl]
  have star : opensStarComment other (change.letter first :: change.text rest) =
      opensStarComment before (first :: rest) := by
    rw [opensStarComment_cons, opensStarComment_cons,
      change.test_letter (ignoresCase_beq rfl) first]
    by_cases isStar : first = '*'
    · rw [sameStart isStar]
    · rw [beq_false_of_ne isStar, Bool.false_and, Bool.false_and]
  simp only [Opening.of, comment, star, change.test_letter ignoresCase_isSpace,
    change.test_letter ignoresCase_isDigit,
    change.test_letter ignoresCase_isNameStart, opens '/' rfl, opens ';' rfl,
    opens '"' rfl, opens '\'' rfl, opens '[' rfl, opens '.' rfl, opens ':' rfl,
    goesOn '*' rfl rfl, goesOn ':' rfl rfl]

/-! ## Strings -/

/-- A quoted string with its content respelled. -/
def Quoted.respelled
    (letter : Char → Char)
    (quoted : Quoted Unit) :
    Quoted Unit :=
  { quoted with content := quoted.content.map letter }

theorem push_respelled
    (letter : Char → Char)
    (character : Char)
    (count : Nat)
    (quoted : Quoted Unit) :
    (quoted.push character count).respelled letter =
      (quoted.respelled letter).push (letter character) count :=
  rfl

theorem IsQuote.noLetter (isQuote : IsQuote first) : first.isAlpha = false := by
  rcases isQuote with rfl | rfl
  · rfl
  · rfl

theorem IsQuote.visible (isQuote : IsQuote first) : isSpace first = false := by
  rcases isQuote with rfl | rfl
  · rfl
  · rfl

theorem IsQuote.ne_newline (isQuote : IsQuote first) : first ≠ '\n' := by
  rcases isQuote with rfl | rfl
  · decide
  · decide

theorem escapesQuote_respelled (text : List Char) :
    escapesQuote
      ('\\' :: '"' :: change.text text) = escapesQuote ('\\' :: '"' ::
        text) := by
  rw [Bool.eq_iff_iff, escapesQuote, escapesQuote, List.contains_iff_mem,
    List.contains_iff_mem, change.mem_firstLine_text_iff rfl (by decide)]

/-- A string ends with its line. -/
theorem readQuoted_newline
    (memory : Unit)
    (offset : Nat)
    (rest : List Char) :
    readQuoted .plain first memory offset (change.text ('\n' :: rest)) =
      ⟨[], 0, false, memory⟩ := by
  rcases change.newline_cases rest with shape | ⟨later, shape⟩ | ⟨later, shape⟩
  · rw [shape]
    rfl
  · rw [shape]
    rfl
  · rw [shape]
    rfl

/-- A string is read from its line, and its content is respelled. -/
theorem readQuoted_respelled
    {quote : Char}
    (isQuote : IsQuote quote)
    (place offset : Nat)
    (text : List Char) :
    readQuoted .plain quote () place (change.text text) =
      (readQuoted .plain quote () offset text).respelled change.letter := by
  have slash (rest : List Char) :
      change.text ('\\' :: rest) = '\\' :: change.text rest :=
    text_cons_mark change rfl (by decide) rest
  have double (rest : List Char) :
      change.text ('"' :: rest) = '"' :: change.text rest :=
    text_cons_mark change rfl (by decide) rest
  have quotes := text_cons_mark change isQuote.noLetter isQuote.ne_newline
  have sameSlash : change.letter '\\' = '\\' := change.letter_of_noLetter rfl
  have sameDouble : change.letter '"' = '"' := change.letter_of_noLetter rfl
  have sameQuote : change.letter quote = quote :=
    change.letter_of_noLetter isQuote.noLetter
  generalize () = memory
  -- The place varies along the text, as the offset does, and neither of them
  -- tells anything.
  fun_induction readQuoted .plain quote memory offset text
    generalizing place with
  | case1 =>
      rw [change.text_nil]
      rfl
  | case2 memory offset rest =>
      exact readQuoted_newline change memory place rest
  | case3 memory offset rest =>
      rw [text_cons_mark change rfl (by decide)]
      rfl
  | case4 memory offset rest hypothesis =>
      rw [slash, slash, readQuoted, hypothesis (place + 2),
        push_respelled, sameSlash]
  | case5 memory offset rest isDouble following answer hypothesis =>
      subst isDouble
      have escapes : escapesQuote ('\\' :: '"' :: rest) = true :=
        (Prod.mk.inj answer).1
      rw [slash, double,
        readQuoted_escaped ((escapesQuote_respelled change rest).trans escapes),
        hypothesis (place + 2), push_respelled, sameDouble]
  | case6 memory offset rest isDouble escapes following answer notEscaped
      hypothesis =>
      subst isDouble
      have unescaped : escapesQuote ('\\' :: '"' :: rest) = false :=
        (Prod.mk.inj answer).1.trans (Bool.eq_false_iff.mpr notEscaped)
      have inner := hypothesis (place + 1)
      rw [double] at inner
      rw [slash, double,
        readQuoted_unescaped
          ((escapesQuote_respelled change rest).trans unescaped), inner,
        push_respelled, sameSlash]
  | case7 memory offset rest notDouble hypothesis =>
      have inner := hypothesis (place + 1)
      rw [double] at inner
      rw [slash, double, readQuoted, if_neg notDouble, inner,
        push_respelled, sameSlash]
  | case8 memory offset rest notSlash notQuote hypothesis =>
      rw [slash, readQuoted, hypothesis (place + 1), push_respelled, sameSlash]
      · rintro after same
        obtain ⟨tail, rfl⟩ := eq_cons_of_text change rfl rfl same
        exact notSlash _ rfl
      · rintro after same
        obtain ⟨tail, rfl⟩ := eq_cons_of_text change rfl rfl same
        exact notQuote _ rfl
  | case9 =>
      rw [quotes, change.text_nil]
      exact readQuoted_closing isQuote (by simp)
  | case10 memory offset rest _ _ _ _ _ hypothesis =>
      rw [quotes, quotes, readQuoted_doubled isQuote, hypothesis (place + 2),
        push_respelled, sameQuote]
  | case11 _ _ following after notDoubled =>
      rw [quotes]
      refine readQuoted_closing isQuote fun doubled => notDoubled ?_
      rw [head?_text_of_visible change isQuote.noLetter isQuote.visible]
        at doubled
      exact Option.some.inj doubled
  | case12 memory offset character rest lineFeed carriageReturn _ _ notSlash
      notQuote hypothesis =>
      have other {mark : Char} (noLetter : mark.isAlpha = false)
          (differs : character ≠ mark) : change.letter character ≠ mark := by
        rwa [ne_eq, change.letter_eq_iff noLetter]
      rw [change.text_cons character rest lineFeed,
        readQuoted_cons (other rfl lineFeed) (other rfl carriageReturn)
          (other rfl notSlash) (other isQuote.noLetter notQuote),
        hypothesis (place + (change.letter character).utf8Size), push_respelled]

/-- A quoted string of a respelled text is the string of the text, respelled. -/
theorem quotePiece_respelled
    (isQuote : IsQuote first)
    (rest : List Char) :
    (quotePiece .plain () place (change.letter first) (change.text rest)).1 =
      (quotePiece .plain () offset first rest).1.respelled change.letter := by
  rw [change.letter_of_noLetter isQuote.noLetter]
  simp only [quotePiece,
    readQuoted_respelled change isQuote (place + 1) (offset + 1),
    Quoted.respelled]
  cases (readQuoted .plain first () (offset + 1) rest).closed with
  | true => simp only [if_true, Piece.respelled, Content.respelled, map_ofList]
  | false => rfl

/-! ## Brackets -/

theorem ignoresCase_pathText :
    IgnoresCase fun character =>
      character != '\n' && character != '\r' && character != ']' :=
  .of_capitals (by decide)

theorem pathText_respelled (text : List Char) :
    Lookahead.pathText (change.text text) =
      (Lookahead.pathText text).map change.letter :=
  change.takeWhile_text ignoresCase_pathText (by decide) (by decide) text

theorem opensPath_respelled (text : List Char) : OpensPath (change.text text) ↔
    OpensPath text := by
  have behind : (change.text text).drop (Lookahead.pathText text).length =
      change.text (text.drop (Lookahead.pathText text).length) :=
    change.drop_run_text (by decide) text
  rw [OpensPath, OpensPath, pathText_respelled, List.length_map, behind,
    head?_text_of_visible change rfl rfl, change.mem_map_letter_iff rfl]

theorem bracketPiece_respelled (rest : List Char) :
    (bracketPiece .plain () place (change.text rest)).1 =
      (bracketPiece .plain () offset rest).1.respelled change.letter := by
  rw [bracketPiece_plain, bracketPiece_plain, pathText_respelled,
    List.length_map, ← map_ofList]
  simp only [opensPath_respelled]
  split
  · rfl
  · rw [Piece.respelled, Content.respelled, map_letter_of_noLetters change rfl]

/-! ## Words and numbers -/

theorem namePiece_respelled
    (first : Char)
    (rest : List Char) :
    namePiece (change.letter first) (change.text rest) =
      (namePiece first rest).respelled change.letter := by
  have tail := change.takeWhile_text ignoresCase_isNamePart rfl rfl rest
  simp only [namePiece, tail, List.length_map, ← List.map_cons, ← map_ofList,
    reserved?_respelled, Piece.respelled, Content.respelled]

/-- A word on a line goes up to its dot. -/
theorem inner_respelled
    {line : List Char}
    (dotted : '.' ∈ line)
    (returns : List Char) :
    (line.map change.letter ++ returns).takeWhile (· != '.') =
      (line.takeWhile (· != '.')).map change.letter := by
  have dot : change.letter '.' = '.' := change.letter_of_noLetter rfl
  obtain ⟨word, later, rfl, noDot⟩ := List.eq_append_cons_of_mem dotted
  have inside : ∀ character ∈ word, (character != '.') = true := by
    intro character member
    refine bne_iff_ne.mpr ?_
    rintro rfl
    exact noDot member
  have insideMapped : ∀ character ∈ word.map change.letter,
      (character != '.') = true := by
    rw [List.forall_mem_map]
    exact fun character member =>
      (change.test_letter (ignoresCase_bne rfl) character).trans
        (inside character member)
  rw [List.map_append, List.map_cons, dot, List.append_assoc, List.cons_append,
    takeWhile_append_of_head insideMapped (by simp),
    takeWhile_append_of_head inside (by simp)]

/--
A dot word of a respelled text is the dot word of the text: words are
looked up in lower case.
-/
theorem dotPiece_respelled (rest : List Char) :
    dotPiece (change.text rest) = (dotPiece rest).respelled change.letter := by
  have dot : change.letter '.' = '.' := change.letter_of_noLetter rfl
  have dotted : '.' ∈ firstLine (change.text rest) ↔ '.' ∈ firstLine rest :=
    change.mem_firstLine_text_iff rfl (by decide)
  obtain ⟨returns, line, -⟩ := change.exists_firstLine_text rest
  simp only [dotPiece, dotted]
  split
  · next isDotted =>
      rw [line, inner_respelled change isDotted, List.length_map, ← map_ofList,
        dotted?_respelled]
      generalize (firstLine rest).takeWhile (· != '.') = word
      have spelling : (String.ofList ('.' :: (word ++ ['.']))).map
          change.letter =
          String.ofList ('.' :: (word.map change.letter ++ ['.'])) := by
        rw [map_ofList, List.map_cons, List.map_append, List.map_singleton, dot]
      rw [← spelling]
      cases Word.dotted? (String.ofList word) <;> rfl
  · rfl

theorem opensFraction_cons
    (first : Char)
    (rest : List Char) :
    opensFraction (first :: rest) =
      (first == '.' && rest.head?.any Char.isDigit) := by
  by_cases dot : first = '.'
  · subst dot
    cases rest <;> simp [opensFraction]
  · simp [opensFraction, dot]

/-- A fraction stands on one line. -/
theorem opensFraction_respelled (text : List Char) :
    opensFraction (change.text text) = opensFraction text := by
  cases text with
  | nil => rw [change.text_nil]
  | cons first rest =>
      by_cases feed : first = '\n'
      · subst feed
        rcases change.newline_cases rest
          with shape | ⟨later, shape⟩ | ⟨later, shape⟩
        · rw [shape, opensFraction_cons]
          rfl
        · rw [shape, opensFraction_cons, opensFraction_cons]
          rfl
        · rw [shape, opensFraction_cons, opensFraction_cons]
          rfl
      · rw [change.text_cons first rest feed, opensFraction_cons,
          opensFraction_cons, change.test_letter (ignoresCase_beq rfl) first,
          change.any_head?_text ignoresCase_isDigit rfl rfl]

/--
A number of a respelled text is the number of the text, since a respelling
leaves digits and dots as they are.
-/
theorem numberPiece_respelled
    (first : Char)
    (rest : List Char) :
    numberPiece (change.letter first) (change.text rest) =
      (numberPiece first rest).respelled change.letter := by
  have run (text : List Char) : (change.text text).takeWhile Char.isDigit =
      (text.takeWhile Char.isDigit).map change.letter :=
    change.takeWhile_text ignoresCase_isDigit rfl rfl text
  have behind : (change.text rest).drop (rest.takeWhile Char.isDigit).length =
      change.text (rest.drop (rest.takeWhile Char.isDigit).length) :=
    change.drop_run_text rfl rest
  have dot : change.letter '.' = '.' := change.letter_of_noLetter rfl
  simp only [numberPiece, run, List.length_map, behind, opensFraction_respelled]
  generalize rest.drop (rest.takeWhile Char.isDigit).length = tail
  by_cases opens : opensFraction tail = true
  · obtain ⟨later, rfl⟩ : ∃ later, tail = '.' :: later := by
      unfold opensFraction at opens
      split at opens
      · exact ⟨_, rfl⟩
      · cases opens
    rw [if_pos opens, if_pos opens, change.text_cons '.' later (by decide),
      List.drop_one, List.drop_one, List.tail_cons, List.tail_cons, run,
      Piece.respelled, Content.respelled, map_ofList]
    simp only [List.length_cons, List.length_map, List.map_cons,
      List.map_append, dot]
  · rw [if_neg opens, if_neg opens, Piece.respelled,
      Content.respelled, map_ofList]
    simp only [List.map_cons, List.map_append, List.map_nil]

/-- A scoped name of a respelled text is the name of the text, respelled. -/
theorem scopePiece_respelled
    (colon : rest.head? = some ':') :
    scopePiece (change.text rest) =
      (scopePiece rest).respelled change.letter := by
  obtain ⟨tail, rfl⟩ := List.head?_eq_some_iff.mp colon
  let isGap (character : Char) : Bool := character == ' ' || character == '\t'
  have ignores : IgnoresCase isGap := .of_capitals (by decide)
  have gap : (change.text tail).takeWhile isGap =
      (tail.takeWhile isGap).map change.letter :=
    change.takeWhile_text ignores (by decide) (by decide) tail
  have behind : (change.text tail).drop (tail.takeWhile isGap).length =
      change.text (tail.drop (tail.takeWhile isGap).length) :=
    change.drop_run_text (by decide) tail
  simp only [isGap] at gap behind
  simp only [scopePiece, change.text_cons ':' tail (by decide), List.drop_one,
    List.tail_cons, gap, List.length_map, behind]
  generalize tail.drop _ = named
  rw [change.any_head?_text ignoresCase_isNameStart rfl rfl,
    change.takeWhile_text ignoresCase_isNamePart rfl rfl, List.length_map]
  split
  · rw [Piece.respelled, Content.respelled, map_ofList, List.map_cons,
      List.map_cons, change.letter_of_noLetter rfl]
  · rfl

/-! ## Signs -/

/-- A character that ends no sign is no part of a sign. -/
theorem sign?_of_first
    {first second : Char}
    (noEqual : second ≠ '=')
    (noGreater : second ≠ '>')
    (noQuestion : second ≠ '?')
    (rest : List Char) :
    sign? (first :: second :: rest) = sign? [first] := by
  cases found : sign? [first] with
  | none =>
      cases longer : sign? (first :: second :: rest) with
      | none => rfl
      | some sign =>
          unfold sign? at longer
          split at longer
          all_goals cases longer
          all_goals
            next shape =>
              cases shape
              cases found
  | some sign =>
      unfold sign? at found
      split at found
      all_goals cases found
      all_goals
        next shape =>
          cases shape
          all_goals simp [sign?, noEqual, noGreater, noQuestion]

/-- A sign has two characters at most. -/
theorem sign?_second
    (first second : Char)
    (rest following : List Char) :
    sign? (first :: second :: rest) = sign? (first :: second :: following) := by
  cases found : sign? (first :: second :: rest) with
  | some sign => exact (sign?_double found).symm
  | none =>
      cases other : sign? (first :: second :: following) with
      | none => rfl
      | some sign => exact found.symm.trans (sign?_double other)

/-- No sign begins with a letter. -/
theorem sign?_of_isAlpha
    (letter : first.isAlpha = true)
    (rest : List Char) :
    sign? (first :: rest) = none := by
  cases found : sign? (first :: rest) with
  | none => rfl
  | some sign =>
      unfold sign? at found
      split at found
      all_goals cases found
      all_goals
        next shape =>
          cases shape
          cases letter

/-- A space behind a character makes no longer sign of it. -/
theorem sign?_of_space
    {second : Char}
    (space : isSpace second = true)
    (rest : List Char) :
    sign? (first :: second :: rest) = sign? [first] := by
  have other {character : Char} (visible : isSpace character = false) :
      second ≠ character := by
    rintro rfl
    rw [visible] at space
    cases space
  exact sign?_of_first (other rfl) (other rfl) (other rfl) rest

/-- A letter behind a character makes no longer sign of it. -/
theorem sign?_of_letter
    {second : Char}
    (letter : second.isAlpha = true)
    (rest : List Char) :
    sign? (first :: second :: rest) = sign? [first] := by
  have other {character : Char} (noLetter : character.isAlpha = false) :
      second ≠ character := by
    rintro rfl
    rw [noLetter] at letter
    cases letter
  exact sign?_of_first (other rfl) (other rfl) (other rfl) rest

/-- A sign has no letters and ends on its line. -/
theorem sign?_respelled
    (first : Char)
    (rest : List Char) :
    sign? (change.letter first :: change.text rest) =
      sign? (first :: rest) := by
  have stillLetter {character : Char} (letter : character.isAlpha = true) :
      (change.letter character).isAlpha = true :=
    (change.test_letter ignoresCase_isAlpha character).trans letter
  cases letter : first.isAlpha with
  | true => rw [sign?_of_isAlpha letter, sign?_of_isAlpha (stillLetter letter)]
  | false =>
      rw [change.letter_of_noLetter letter]
      cases rest with
      | nil => rw [change.text_nil]
      | cons second rest =>
          by_cases feed : second = '\n'
          · subst feed
            rw [sign?_of_space rfl]
            rcases change.newline_cases rest
              with shape | ⟨later, shape⟩ | ⟨later, shape⟩
            · rw [shape]
            · rw [shape, sign?_of_space rfl]
            · rw [shape, sign?_of_space rfl]
          · rw [change.text_cons second rest feed]
            cases letterBehind : second.isAlpha with
            | true =>
                rw [sign?_of_letter letterBehind,
                  sign?_of_letter (stillLetter letterBehind)]
            | false =>
                rw [change.letter_of_noLetter letterBehind]
                exact sign?_second first second _ _

/--
The spelling of a sign is either common to all its forms, which have no
letters, or its own text.
-/
theorem commonSpelling?_getD_respelled
    (kind : TokenKind)
    (spelling : String) :
    kind.commonSpelling?.getD (spelling.map change.letter) =
      (kind.commonSpelling?.getD spelling).map change.letter := by
  have noLetters : "!=".map change.letter = "!=" :=
    map_letter_of_noLetters change rfl
  unfold TokenKind.commonSpelling?
  split
  · exact noLetters.symm
  · rfl

/-- A sign of a respelled text is the sign of the text. -/
theorem signPiece_respelled
    (visible : first ≠ '\n')
    (rest : List Char) :
    signPiece (change.letter first) (change.text rest) =
      (signPiece first rest).respelled change.letter := by
  rw [signPiece, signPiece, sign?_respelled]
  cases found : sign? (first :: rest) with
  | none => rfl
  | some sign =>
      obtain ⟨kind, length⟩ := sign
      have spelling := (change.split_text (newline_not_mem_sign found)).1
      rw [change.text_cons first rest visible] at spelling
      simp only [spelling, ← map_ofList, commonSpelling?_getD_respelled]
      rfl

/-! ## Pieces -/

/--
A piece that is neither skipped nor a semicolon is respelled with its line.
-/
theorem cutPiece_respelled
    (visible : first ≠ '\n')
    (sameStart : first = '*' → atLineStart other = atLineStart before)
    (noGap : (Opening.of before first rest).isGap = false)
    (noSemicolon : Opening.of before first rest ≠ .semicolon) :
    (cutPiece .plain () other place (change.letter first)
      (change.text rest)).1 =
      (cutPiece .plain () before offset first rest).1.respelled
        change.letter := by
  have begins := Opening.begins before first rest
  unfold cutPiece
  rw [Opening.of_respelled change sameStart]
  cases opening : Opening.of before first rest with
  | space | lineComment | blockComment | starComment =>
      rw [opening] at noGap
      cases noGap
  | semicolon => exact absurd opening noSemicolon
  | quote =>
      rw [opening] at begins
      exact quotePiece_respelled change begins rest
  | bracket => exact bracketPiece_respelled change rest
  | dot => exact dotPiece_respelled change rest
  | digit => exact numberPiece_respelled change first rest
  | scope =>
      rw [opening] at begins
      exact scopePiece_respelled change begins.2
  | name => exact namePiece_respelled change first rest
  | sign => exact signPiece_respelled change visible rest

end

end Lexeme

end Clipper
