import Clipper.Proofs.Lexeme.Words

/-!
# Pieces of a text that ends behind them

A piece is cut off with a look at the text behind it: at a dot after digits, at
the next quote of the line, at the next closing bracket.  Where the text is
curtailed to an end behind the piece, the piece stays what it is.  Two pieces
need more than that: a star needs what stands before it on its line, and a
semicolon needs the next line to be a continuation.

Each form of piece has a lemma of its own here, in the order in which a piece
is cut.  They share two hypotheses: the piece ends within the text that is
left, and it has no fault.  A fault would not survive the curtailing, because
it says how far a text goes on without the sign that is missing; so the lemmas
say nothing of such pieces.
-/

namespace Clipper.Lexeme

open Clipper.Source

variable {text dropped : List Char}

/-! ## Runs of characters -/

/-- A run that lies within the curtailed text is a run of it. -/
theorem takeWhile_curtailed
    {test : Char → Bool}
    (within : ((text ++ dropped).takeWhile test).length ≤ text.length) :
    (text ++ dropped).takeWhile test = text.takeWhile test := by
  rw [List.takeWhile_append] at within ⊢
  split at within
  · next whole =>
      have run : text.takeWhile test = text :=
        (List.takeWhile_prefix test).eq_of_length whole
      have none : dropped.takeWhile test = [] := by
        rw [List.length_append] at within
        exact List.length_eq_zero_iff.mp (by omega)
      rw [if_pos whole, none, List.append_nil, run]
  · next part => rw [if_neg part]

/-- A curtailed text with at least one character begins like the whole text. -/
theorem exists_cons_of_append
    {first : Char}
    {rest : List Char}
    (whole : text ++ dropped = first :: rest)
    (nonempty : 1 ≤ text.length) :
    ∃ tail, text = first :: tail ∧ tail ++ dropped = rest := by
  cases text with
  | nil => cases nonempty
  | cons character tail =>
      cases whole
      exact ⟨tail, rfl, rfl⟩

/--
A text of two characters or more begins with the first two
characters of what it begins.
-/
theorem exists_cons_cons_of_append
    {first second : Char}
    {rest : List Char}
    (whole : text ++ dropped = first :: second :: rest)
    (two : 2 ≤ text.length) :
    ∃ tail, text = first :: second :: tail ∧ tail ++ dropped = rest := by
  obtain ⟨following, rfl, same⟩ := exists_cons_of_append whole (by omega)
  rw [List.length_cons] at two
  obtain ⟨tail, rfl, rest⟩ := exists_cons_of_append same (by omega)
  exact ⟨tail, rfl, rest⟩

/-! ## Openings -/

/--
The two signs for a comment up to the end of the line, each of which doubles
its first character.
-/
theorem opensLineComment_cons (first : Char) (rest : List Char) :
    opensLineComment (first :: rest) = true ↔
      first = '/' ∧ rest.head? = some '/' ∨ first = '&' ∧
        rest.head? = some '&' := by
  constructor
  · intro opens
    unfold opensLineComment at opens
    split at opens
    · next equal =>
        cases equal
        exact .inl ⟨rfl, rfl⟩
    · next equal =>
        cases equal
        exact .inr ⟨rfl, rfl⟩
    · cases opens
  · rintro (⟨rfl, second⟩ | ⟨rfl, second⟩)
    · obtain ⟨tail, rfl⟩ := List.head?_eq_some_iff.mp second
      rfl
    · obtain ⟨tail, rfl⟩ := List.head?_eq_some_iff.mp second
      rfl

theorem opensStarComment_cons (before : List Char) (first : Char)
    (rest : List Char) :
    opensStarComment before (first :: rest) =
      (first == '*' && atLineStart before) := by
  by_cases star : first = '*' <;> simp [opensStarComment, star]

/--
How a piece opens depends on the next visible
character and on the line before a star.
-/
theorem Opening.of_congr
    {before other rest following : List Char}
    {first : Char}
    (sameStart : first = '*' → atLineStart before = atLineStart other)
    (sameNext :
      ∀ next, isSpace next = false →
        (rest.head? = some next ↔ following.head? = some next)) :
    Opening.of before first rest = Opening.of other first following := by
  have comment : opensLineComment (first :: rest) =
      opensLineComment (first :: following) := by
    rw [Bool.eq_iff_iff, opensLineComment_cons, opensLineComment_cons,
      sameNext '/' rfl, sameNext '&' rfl]
  have star : opensStarComment before (first :: rest) =
      opensStarComment other (first :: following) := by
    by_cases isStar : first = '*'
    · rw [opensStarComment_cons, opensStarComment_cons, sameStart isStar]
    · rw [opensStarComment_cons, opensStarComment_cons,
        beq_eq_false_iff_ne.mpr isStar]
      rfl
  simp only [Opening.of, comment, star, sameNext '*' rfl, sameNext ':' rfl]

/-- The openings that are decided by the character after the first. -/
def Opening.isDouble : Opening → Bool
  | .lineComment | .blockComment | .scope => true
  | _ => false

/--
A piece that its next character does not decide
opens in the same way at the end of a text.
-/
theorem Opening.of_atEnd
    {before other rest : List Char}
    {first : Char}
    (sameStart : first = '*' → atLineStart before = atLineStart other)
    (single : (Opening.of before first rest).isDouble = false) :
    Opening.of other first [] = Opening.of before first rest := by
  have star : opensStarComment other [first] =
      opensStarComment before (first :: rest) := by
    by_cases isStar : first = '*'
    · rw [opensStarComment_cons, opensStarComment_cons, sameStart isStar]
    · rw [opensStarComment_cons, opensStarComment_cons,
        beq_eq_false_iff_ne.mpr isStar]
      rfl
  have noComment : opensLineComment [first] = false := by
    rw [Bool.eq_false_iff, ne_eq, opensLineComment_cons]
    simp
  unfold Opening.of at single ⊢
  by_cases space : isSpace first = true
  · rw [if_pos space, if_pos space]
  rw [if_neg space] at single
  rw [if_neg space, if_neg space, noComment, star]
  by_cases comment : opensLineComment (first :: rest) = true
  · rw [if_pos comment] at single
    cases single
  rw [if_neg comment] at single
  rw [if_neg comment, if_neg Bool.false_ne_true]
  by_cases block : first = '/' ∧ rest.head? = some '*'
  · rw [if_pos block] at single
    cases single
  rw [if_neg block] at single
  rw [if_neg block, if_neg (by simp)]
  by_cases scope : first = ':' ∧ rest.head? = some ':'
  · obtain ⟨rfl, colon⟩ := scope
    rw [opensStarComment_cons, if_neg (by simp), if_neg (by decide),
      if_neg (by decide), if_neg (by decide), if_neg (by decide),
      if_neg (by decide), if_pos ⟨rfl, colon⟩] at single
    cases single
  · rw [if_neg scope, if_neg
      (show ¬ (first = ':' ∧ [].head? = some ':') by simp)]


/-! ## Comments -/

/--
A block comment that is closed within a text is closed at the same place
when more text follows.
-/
theorem commentLength?_append
    {length : Nat}
    (closed : commentLength? text = some length) :
    commentLength? (text ++ dropped) = some length := by
  fun_induction commentLength? text generalizing length with
  | case1 => cases closed
  | case2 rest => exact closed
  | case3 first rest notClosed hypothesis =>
      obtain ⟨shorter, closedLater, rfl⟩ := Option.map_eq_some_iff.mp closed
      have later := hypothesis closedLater
      rw [List.cons_append, commentLength?, later]
      · rfl
      · rintro after rfl same
        cases rest with
        | nil => cases closedLater
        | cons second rest =>
            cases same
            exact notClosed rest rfl rfl

theorem two_le_commentLength?
    {length : Nat}
    (closed : commentLength? text = some length) :
    2 ≤ length := by
  obtain ⟨inner, later, -, rfl, -⟩ := commentLength?_spec closed
  omega

/-- A comment that is closed within the curtailed text is closed there. -/
theorem commentLength?_curtailed
    {length : Nat}
    (closed : commentLength? (text ++ dropped) = some length)
    (within : length ≤ text.length) :
    commentLength? text = some length := by
  have atLeast := two_le_commentLength? closed
  fun_induction commentLength? text generalizing length with
  | case1 =>
      rw [List.length_nil] at within
      omega
  | case2 rest => exact closed
  | case3 first rest notClosed hypothesis =>
      rw [List.length_cons] at within
      rw [List.cons_append, commentLength?] at closed
      · obtain ⟨shorter, closedLater, rfl⟩ := Option.map_eq_some_iff.mp closed
        rw [hypothesis closedLater (by omega)
          (two_le_commentLength? closedLater)]
        rfl
      · rintro after rfl same
        obtain ⟨tail, rfl, rfl⟩ := exists_cons_of_append same (by omega)
        exact notClosed tail rfl rfl

/--
A block comment that ends within the text is the same comment without
what follows.  Its end is looked for from the left, so text behind the
first end plays no part.
-/
theorem blockCommentPiece_curtailed
    (star : text.head? = some '*')
    (within : (blockCommentPiece (text ++ dropped)).extra ≤ text.length)
    (sound : ∀ cause, (blockCommentPiece (text ++ dropped)).content ≠
      .fault cause) :
    blockCommentPiece text = blockCommentPiece (text ++ dropped) := by
  obtain ⟨inside, rfl⟩ := List.head?_eq_some_iff.mp star
  unfold blockCommentPiece at within sound ⊢
  simp only [List.cons_append, List.drop_one, List.tail_cons] at within sound ⊢
  cases closed : commentLength? (inside ++ dropped) with
  | none =>
      rw [closed] at sound
      exact absurd rfl (sound .openComment)
  | some length =>
      rw [closed] at within
      dsimp only at within
      rw [List.length_cons] at within
      rw [commentLength?_curtailed closed (by omega)]

/-! ## Semicolons -/

theorem dropWhile_append_of_ne_nil
    {test : Char → Bool}
    (stops : text.dropWhile test ≠ []) :
    (text ++ dropped).dropWhile test = text.dropWhile test ++ dropped := by
  rw [List.dropWhile_append, if_neg]
  simpa using stops

/--
A text that opens a comment up to the end of its line still does so
when more text follows.
-/
theorem opensLineComment_append
    (opens : opensLineComment text = true) :
    opensLineComment (text ++ dropped) = true := by
  cases text with
  | nil => cases opens
  | cons first rest =>
      rw [opensLineComment_cons] at opens
      rw [List.cons_append, opensLineComment_cons]
      have kept {second : Char} (next : rest.head? = some second) :
          (rest ++ dropped).head? = some second := by
        rw [List.head?_append, next]
        rfl
      exact opens.imp (And.imp_right kept) (And.imp_right kept)

/-- A line that ends within a text ends there when more text follows. -/
theorem afterBlanksAndComment_append
    {next : List Char}
    (ends : afterBlanksAndComment text = '\n' :: next) :
    afterBlanksAndComment (text ++ dropped) = '\n' :: (next ++ dropped) := by
  unfold afterBlanksAndComment at ends ⊢
  dsimp only at ends ⊢
  by_cases comment : opensLineComment (text.dropWhile isBlank) = true
  · rw [if_pos comment] at ends
    have someText : text.dropWhile isBlank ≠ [] := by
      intro none
      rw [none] at comment
      cases comment
    have stops : (text.dropWhile isBlank).dropWhile (· != '\n') ≠ [] := by
      rw [ends]
      exact List.cons_ne_nil _ _
    rw [dropWhile_append_of_ne_nil someText,
      if_pos (opensLineComment_append comment),
      dropWhile_append_of_ne_nil stops, ends]
    rfl
  · rw [if_neg comment] at ends
    have someText : text.dropWhile isBlank ≠ [] := by
      rw [ends]
      exact List.cons_ne_nil _ _
    rw [dropWhile_append_of_ne_nil someText, ends]
    exact if_neg (by simp [opensLineComment])

theorem firstLine_prefix_append (text dropped : List Char) :
    firstLine text <+: firstLine (text ++ dropped) := by
  rw [firstLine, firstLine, List.takeWhile_append]
  split
  · next whole =>
      rw [(List.takeWhile_prefix _).eq_of_length whole]
      exact List.prefix_append _ _
  · exact List.prefix_refl _

/-- A line that is continued stays so when more text follows. -/
theorem continuesLine_append
    (continues : continuesLine (';' :: text) = true) :
    continuesLine (';' :: (text ++ dropped)) = true := by
  rw [continuesLine] at continues ⊢
  split at continues
  · next next ends =>
      rw [afterBlanksAndComment_append ends]
      change (firstLine (next ++ dropped)).any
        (fun character => !isBlank character) = true
      rw [List.any_eq_true] at continues ⊢
      obtain ⟨character, member, visible⟩ := continues
      exact ⟨character, (firstLine_prefix_append next dropped).subset member,
        visible⟩
  · cases continues

/-! ## Strings -/

section

variable {σ : Type} {reader : LineReader σ} {quote : Char} {memory : σ}
    {offset : Nat}

/-- A string that is closed has a closing quote on its line. -/
theorem quote_mem_of_closed
    (narrow : quote ≠ '\n')
    (closed : (readQuoted reader quote memory offset text).closed = true) :
    1 ≤ (readQuoted reader quote memory offset text).taken ∧
    quote ∈ firstLine text := by
  fun_induction readQuoted reader quote memory offset text
  all_goals simp_all [Quoted.push, firstLine]

end

/-- An escaped quote stays one when more text follows. -/
theorem escapesQuote_append
    (escapes : escapesQuote ('\\' :: '"' :: text) = true) :
    escapesQuote ('\\' :: '"' :: (text ++ dropped)) = true := by
  simp only [escapesQuote, List.contains_iff_mem] at escapes ⊢
  exact (firstLine_prefix_append text dropped).subset escapes

section

variable {quote : Char} {memory : Unit} {offset : Nat}

theorem readQuoted_escaped
    (escapes : escapesQuote ('\\' :: '"' :: text) = true) :
    readQuoted .plain '"' memory offset ('\\' :: '"' :: text) =
      (readQuoted .plain '"' () (offset + 2) text).push '"' 2 := by
  rw [readQuoted, if_pos rfl]
  simp only [LineReader.plain, escapes, if_true]

theorem readQuoted_unescaped
    (stays : escapesQuote ('\\' :: '"' :: text) = false) :
    readQuoted .plain '"' memory offset ('\\' :: '"' :: text) =
      (readQuoted .plain '"' () (offset + 1) ('"' :: text)).push '\\' 1 := by
  rw [readQuoted, if_pos rfl]
  simp only [LineReader.plain, stays]
  exact if_neg Bool.false_ne_true

/--
A string that is closed within the curtailed text is read there as in the whole
text: a quote that is escaped has the closing quote behind it.
-/
theorem readQuoted_curtailed
    (isQuote : IsQuote quote)
    (other : Nat)
    (closed : (readQuoted .plain quote () offset (text ++ dropped)).closed =
      true)
    (within : (readQuoted .plain quote () offset (text ++ dropped)).taken ≤
      text.length) :
    readQuoted .plain quote () other text =
      readQuoted .plain quote () offset (text ++ dropped) := by
  have notLineFeed : quote ≠ '\n' := by
    rcases isQuote with rfl | rfl
    · decide
    · decide
  generalize whole : text ++ dropped = all at closed within ⊢
  generalize () = memory at closed within ⊢
  fun_induction readQuoted .plain quote memory offset all
    generalizing text other with
  | case1 | case2 | case3 => cases closed
  | case4 memory offset rest hypothesis =>
      simp only [Quoted.push] at closed within
      obtain ⟨tail, rfl, same⟩ := exists_cons_cons_of_append whole (by omega)
      rw [List.length_cons, List.length_cons] at within
      rw [readQuoted, hypothesis (other + 2) same closed (by omega)]
  | case5 memory offset rest isDouble following answer hypothesis =>
      simp only [Quoted.push] at closed within
      obtain ⟨tail, rfl, same⟩ := exists_cons_cons_of_append whole (by omega)
      rw [List.length_cons, List.length_cons] at within
      have inner := hypothesis (other + 2) same closed (by omega)
      rw [← inner] at closed ⊢
      subst isDouble
      have closing := (quote_mem_of_closed notLineFeed closed).2
      exact readQuoted_escaped (by simpa [escapesQuote] using closing)
  | case6 memory offset rest isDouble escapes following answer notEscaped
      hypothesis =>
      simp only [Quoted.push] at closed within
      have atLeast := (quote_mem_of_closed notLineFeed closed).1
      obtain ⟨tail, rfl, rfl⟩ := exists_cons_cons_of_append whole (by omega)
      rw [List.length_cons] at within
      have inner := @hypothesis ('"' :: tail) (other + 1) rfl closed (by omega)
      rw [← inner]
      subst isDouble
      refine readQuoted_unescaped
        (Bool.eq_false_iff.mpr fun here => notEscaped ?_)
      rw [← (Prod.mk.inj answer).1]
      exact escapesQuote_append here
  | case7 memory offset rest notDouble hypothesis =>
      simp only [Quoted.push] at closed within
      have atLeast := (quote_mem_of_closed notLineFeed closed).1
      obtain ⟨tail, rfl, rfl⟩ := exists_cons_cons_of_append whole (by omega)
      rw [List.length_cons] at within
      have inner := @hypothesis ('"' :: tail) (other + 1) rfl closed (by omega)
      rw [readQuoted, if_neg notDouble, inner]
  | case8 memory offset rest notSlash notQuote hypothesis =>
      simp only [Quoted.push] at closed within
      obtain ⟨tail, rfl, rfl⟩ := exists_cons_of_append whole (by omega)
      rw [List.length_cons] at within
      rw [readQuoted, hypothesis (other + 1) rfl closed (by omega)]
      · rintro after rfl
        exact notSlash _ rfl
      · rintro after rfl
        exact notQuote _ rfl
  | case9 =>
      obtain ⟨tail, rfl, same⟩ := exists_cons_of_append whole within
      obtain ⟨rfl, rfl⟩ := List.append_eq_nil_iff.mp same
      exact readQuoted_closing isQuote (by simp)
  | case10 memory offset rest _ _ _ _ _ hypothesis =>
      simp only [Quoted.push] at closed within
      obtain ⟨tail, rfl, same⟩ := exists_cons_cons_of_append whole (by omega)
      rw [List.length_cons, List.length_cons] at within
      rw [readQuoted_doubled isQuote,
        hypothesis (other + 2) same closed (by omega)]
  | case11 _ _ following after notDoubled =>
      obtain ⟨tail, rfl, same⟩ := exists_cons_of_append whole within
      refine readQuoted_closing isQuote fun doubled => notDoubled ?_
      obtain ⟨tail, rfl⟩ := List.head?_eq_some_iff.mp doubled
      exact (List.cons.inj same).1.symm
  | case12 memory offset character rest lineFeed carriageReturn _ _ notSlash
      notQuote hypothesis =>
      simp only [Quoted.push] at closed within
      obtain ⟨tail, rfl, same⟩ := exists_cons_of_append whole (by omega)
      rw [List.length_cons] at within
      rw [readQuoted_cons lineFeed carriageReturn notSlash notQuote,
        hypothesis (other + character.utf8Size) same closed (by omega)]

end

/--
A quoted string that is closed within the text is the same string without what
follows.  The question whether a quote is escaped looks behind it, up to the
end of the line; a string that ends within the text has answered it.
-/
theorem quotePiece_curtailed
    {quote : Char}
    {offset : Nat}
    (isQuote : IsQuote quote)
    (other : Nat)
    (within : (quotePiece .plain () offset quote (text ++ dropped)).1.extra ≤
      text.length)
    (sound :
      ∀ cause, (quotePiece .plain () offset quote (text ++ dropped)).1.content ≠
        .fault cause) :
    quotePiece .plain () other quote text =
      quotePiece .plain () offset quote (text ++ dropped) := by
  simp only [quotePiece] at within sound ⊢
  cases closed :
    (readQuoted .plain quote () (offset + 1) (text ++ dropped)).closed with
  | false =>
      rw [closed] at sound
      exact absurd rfl (sound .openString)
  | true => rw [readQuoted_curtailed isQuote (other + 1) closed within, closed]

/-! ## Brackets -/

/-- A backslash stands before the closing bracket of the line. -/
def OpensPath (text : List Char) : Prop :=
  (text.drop (Lookahead.pathText text).length).head? = some ']' ∧
  '\\' ∈ Lookahead.pathText text

instance : Decidable (OpensPath text) :=
  inferInstanceAs (Decidable (_ ∧ _))

/-- A path literal, or an opening bracket, without a look at the offset. -/
theorem bracketPiece_plain (offset : Nat) :
    (bracketPiece .plain () offset text).1 =
      if OpensPath text then
        ⟨(Lookahead.pathText text).length + 1,
          .token .string (String.ofList (Lookahead.pathText text))⟩
      else ⟨0, .token .leftBracket "["⟩ := by
  have found : pathEnd? offset ('[' :: text) =
      if OpensPath text then
        some (offset + 1 + byteWidth (Lookahead.pathText text)) else none :=
    rfl
  have path : takeBytes (byteWidth (Lookahead.pathText text)) text =
      Lookahead.pathText text := by
    have split : Lookahead.pathText text ++
        text.drop (Lookahead.pathText text).length = text := by
      rw [Lookahead.pathText, drop_takeWhile, List.takeWhile_append_dropWhile]
    have taken := takeBytes_append (Lookahead.pathText text)
      (text.drop (Lookahead.pathText text).length)
    rwa [split] at taken
  simp only [bracketPiece, LineReader.plain, found]
  by_cases opens : OpensPath text
  · rw [if_pos opens, if_pos opens]
    dsimp only
    rw [Nat.add_sub_cancel_left, path]
  · rw [if_neg opens, if_neg opens]

/--
The head of a text behind a place within it is the same when more text follows.
-/
theorem head?_drop_append
    {count : Nat}
    (inside : count < text.length) :
    ((text ++ dropped).drop count).head? = (text.drop count).head? := by
  rw [List.head?_drop, List.head?_drop, List.getElem?_append_left inside]

/-- A text that opens a path literal still does so when more text follows. -/
theorem OpensPath.append (opens : OpensPath text) :
    OpensPath (text ++ dropped) := by
  obtain ⟨closes, backslash⟩ := opens
  have inside : (Lookahead.pathText text).length < text.length := by
    rw [List.head?_drop] at closes
    exact (List.getElem?_eq_some_iff.mp closes).1
  have same : Lookahead.pathText (text ++ dropped) =
      Lookahead.pathText text := by
    rw [Lookahead.pathText, List.takeWhile_append]
    exact if_neg (Nat.ne_of_lt inside)
  rw [OpensPath, same, head?_drop_append inside]
  exact ⟨closes, backslash⟩

/--
A path literal, or a single bracket, is the same without what follows it, as
the first closing bracket of the line lies within the text or nowhere.
-/
theorem bracketPiece_curtailed
    {offset : Nat}
    (other : Nat)
    (within : (bracketPiece .plain () offset (text ++ dropped)).1.extra ≤
      text.length) :
    (bracketPiece .plain () other text).1 =
      (bracketPiece .plain () offset (text ++ dropped)).1 := by
  rw [bracketPiece_plain] at within ⊢
  rw [bracketPiece_plain]
  by_cases opens : OpensPath (text ++ dropped)
  · rw [if_pos opens] at within ⊢
    dsimp only at within
    have same : Lookahead.pathText (text ++ dropped) =
        Lookahead.pathText text :=
      takeWhile_curtailed (Nat.le_of_succ_le within)
    rw [OpensPath, same] at opens
    rw [same] at within ⊢
    rw [head?_drop_append within] at opens
    exact if_pos opens
  · have stays : ¬ OpensPath text := fun here => opens here.append
    rw [if_neg opens, if_neg stays]

/-! ## Dot words, numbers and names -/

/--
The line of a dot word holds the word and its closing dot,
and goes on behind it.
-/
theorem firstLine_word
    {inner : List Char}
    (oneLine : '\n' ∉ inner)
    (rest : List Char) :
    firstLine (inner ++ '.' :: rest) = inner ++ '.' :: firstLine rest := by
  rw [firstLine, List.takeWhile_append_of_pos]
  · rfl
  · intro character member
    refine bne_iff_ne.mpr ?_
    rintro rfl
    exact oneLine member

/--
A piece between dots reaches to the second
dot; what follows there does not matter.
-/
theorem dotPiece_word
    {inner : List Char}
    (noDot : '.' ∉ inner)
    (oneLine : '\n' ∉ inner)
    (rest : List Char) :
    dotPiece (inner ++ '.' :: rest) = dotPiece (inner ++ ['.']) ∧
      (dotPiece (inner ++ ['.'])).extra = inner.length + 1 := by
  have word (rest : List Char) :
      (inner ++ '.' :: rest).takeWhile (· != '.') = inner := by
    rw [List.takeWhile_append_of_pos]
    · simp
    · intro character member
      refine bne_iff_ne.mpr ?_
      rintro rfl
      exact noDot member
  simp only [dotPiece, firstLine_word oneLine, word, List.mem_append,
    List.mem_cons, true_or, or_true, if_true, true_and]
  split <;> rfl

/--
A dot word that is closed within the text is the same word without
what follows.  A dot without a second one on its line is a fault, of
which nothing is said.
-/
theorem dotPiece_curtailed
    (within : (dotPiece (text ++ dropped)).extra ≤ text.length)
    (sound : ∀ cause, (dotPiece (text ++ dropped)).content ≠ .fault cause) :
    dotPiece text = dotPiece (text ++ dropped) := by
  by_cases dotted : '.' ∈ firstLine (text ++ dropped)
  · obtain ⟨inner, later, line, noDot⟩ := List.eq_append_cons_of_mem dotted
    have oneLine : '\n' ∉ inner := by
      intro member
      apply newline_not_mem_firstLine (text ++ dropped)
      rw [line]
      exact List.mem_append_left _ member
    obtain ⟨rest, whole⟩ : inner ++ '.' :: later <+: text ++ dropped := by
      rw [← line]
      exact List.takeWhile_prefix _
    rw [List.append_assoc, List.cons_append] at whole
    obtain ⟨sameWhole, reaches⟩ := dotPiece_word noDot oneLine (later ++ rest)
    rw [← whole, sameWhole, reaches] at within
    obtain ⟨tail, rfl⟩ : inner ++ ['.'] <+: text := by
      refine List.prefix_of_prefix_length_le ?_
        (List.prefix_append text dropped) (by simpa)
      rw [← whole]
      exact ⟨later ++ rest, by simp⟩
    rw [← whole, sameWhole, List.append_assoc]
    exact (dotPiece_word noDot oneLine tail).1
  · have lone : dotPiece (text ++ dropped) = ⟨0, .fault .loneDot⟩ := by
      simp only [dotPiece]
      exact if_neg dotted
    rw [lone] at sound
    exact absurd rfl (sound .loneDot)

theorem opensFraction_append
    (opens : opensFraction text = true) :
    opensFraction (text ++ dropped) = true := by
  unfold opensFraction at opens
  split at opens
  · exact opens
  · cases opens

/--
A number that ends within the text is the same number without what follows.
Behind the digits a dot is taken only with a digit after it, and then both
lie within the text.
-/
theorem numberPiece_curtailed
    {first : Char}
    (within : (numberPiece first (text ++ dropped)).extra ≤ text.length) :
    numberPiece first text = numberPiece first (text ++ dropped) := by
  have digits : (text ++ dropped).takeWhile Char.isDigit =
      text.takeWhile Char.isDigit :=
    takeWhile_curtailed (Nat.le_trans (Nat.le_add_right _ _) within)
  have short := length_takeWhile_le Char.isDigit text
  simp only [numberPiece, digits, List.drop_append_of_le_length short]
    at within ⊢
  generalize text.takeWhile Char.isDigit = run at within short ⊢
  have rest : (text.drop run.length).length = text.length - run.length :=
    List.length_drop
  generalize text.drop run.length = tail at within rest ⊢
  by_cases opens : opensFraction (tail ++ dropped) = true
  · rw [if_pos opens] at within ⊢
    simp only [List.length_cons] at within
    obtain ⟨behind, rfl, same⟩ :
        ∃ behind, tail = '.' :: behind ∧
          (behind ++ dropped).takeWhile Char.isDigit =
            behind.takeWhile Char.isDigit := by
      obtain ⟨rest, shape⟩ : ∃ rest, tail ++ dropped = '.' :: rest := by
        unfold opensFraction at opens
        split at opens
        · next same => exact ⟨_, same⟩
        · cases opens
      obtain ⟨behind, rfl, rfl⟩ := exists_cons_of_append shape (by omega)
      refine ⟨behind, rfl, takeWhile_curtailed ?_⟩
      rw [List.length_cons] at rest
      simp only [List.cons_append, List.drop_one, List.tail_cons] at within
      omega
    simp only [List.cons_append, List.drop_one, List.tail_cons, same] at opens ⊢
    have stays : opensFraction ('.' :: behind) = true := by
      cases behind with
      | nil => cases dropped <;> simp_all [opensFraction]
      | cons digit behind => exact opens
    rw [if_pos stays]
  · have stays : ¬ opensFraction tail = true :=
      fun here => opens (opensFraction_append here)
    rw [if_neg opens, if_neg stays]

/--
A scoped name, or a colon, is the same without what follows it, if its last
character lies within the text.
-/
theorem scopePiece_curtailed
    (colon : text.head? = some ':')
    (within : (scopePiece (text ++ dropped)).extra ≤ text.length)
    (sound : ∀ cause, (scopePiece (text ++ dropped)).content ≠ .fault cause) :
    scopePiece text = scopePiece (text ++ dropped) := by
  obtain ⟨tail, rfl⟩ := List.head?_eq_some_iff.mp colon
  simp only [scopePiece, List.cons_append, List.drop_one, List.tail_cons]
    at within sound ⊢
  rw [List.length_cons] at within
  split at within
  · next named =>
      dsimp only at within
      have gap :
          (tail ++ dropped).takeWhile
            (fun character => character == ' ' || character == '\t') =
              tail.takeWhile (fun character =>
                character == ' ' || character == '\t') :=
        takeWhile_curtailed (by omega)
      have short :=
        length_takeWhile_le
          (fun character => character == ' ' || character == '\t') tail
      rw [gap] at named within
      rw [gap]
      generalize tail.takeWhile _ = run at named within short ⊢
      have rest : (tail.drop run.length).length = tail.length - run.length :=
        List.length_drop
      rw [List.drop_append_of_le_length short] at named within ⊢
      generalize tail.drop run.length = name at named within rest ⊢
      have same : (name ++ dropped).takeWhile isNamePart =
          name.takeWhile isNamePart :=
        takeWhile_curtailed (by omega)
      have stays : name.head?.any isNameStart = true := by
        cases name with
        | nil =>
            cases dropped with
            | nil => exact named
            | cons first dropped =>
                have starts : isNameStart first = true := named
                simp [isNamePart_of_nameStart starts] at same
        | cons first name => exact named
      rw [if_pos named, if_pos stays, same]
  · next nameless =>
      rw [if_neg nameless] at sound
      exact absurd rfl (sound .namelessScope)

theorem namePiece_curtailed
    {first : Char}
    (within : (namePiece first (text ++ dropped)).extra ≤ text.length) :
    namePiece first text = namePiece first (text ++ dropped) := by
  rw [namePiece, namePiece, takeWhile_curtailed within]

/-! ## Signs -/

/--
A sign of one character stays this sign when nothing follows: only what comes
next could make it longer.
-/
theorem sign?_single
    {first : Char}
    {rest : List Char}
    {kind : TokenKind}
    (found : sign? (first :: rest) = some (kind, 1)) :
    sign? [first] = some (kind, 1) := by
  unfold sign? at found
  split at found
  all_goals cases found
  all_goals next shape => cases shape; rfl

/-- A sign of two characters is told by these two alone, whatever comes next. -/
theorem sign?_double
    {first second : Char}
    {rest following : List Char}
    {kind : TokenKind} {length : Nat}
    (found : sign? (first :: second :: rest) = some (kind, length)) :
    sign? (first :: second :: following) = some (kind, length) := by
  unfold sign? at found
  split at found
  all_goals cases found
  all_goals
    next shape =>
      cases shape
      first
        | rfl
        | rw [sign?]
          all_goals
            rintro tail ⟨⟩
            simp_all

/-- A sign that ends within the text is the same sign without what follows. -/
theorem signPiece_curtailed
    {first : Char}
    (within : (signPiece first (text ++ dropped)).extra ≤ text.length)
    (sound : ∀ cause, (signPiece first (text ++ dropped)).content ≠
      .fault cause) :
    signPiece first text = signPiece first (text ++ dropped) := by
  cases found : sign? (first :: (text ++ dropped)) with
  | none =>
      simp only [signPiece, found] at sound
      exact absurd rfl (sound .strayCharacter)
  | some sign =>
      obtain ⟨kind, length⟩ := sign
      have positive := (sign?_spec found).2.1
      simp only [signPiece, found] at within
      have same : sign? (first :: text) = some (kind, length) := by
        cases text with
        | nil =>
            obtain rfl : length = 1 := by
              rw [List.length_nil] at within
              omega
            exact sign?_single found
        | cons second text => exact sign?_double found
      have taken : (first :: text).take length =
          (first :: (text ++ dropped)).take length := by
        rw [← List.cons_append, List.take_append_of_le_length]
        rw [List.length_cons]
        omega
      simp only [signPiece, found, same, taken]

/-! ## Pieces -/

/-- A piece that the character after its first decides has that character. -/
theorem extra_pos_of_isDouble
    {before rest : List Char}
    {offset : Nat}
    {first : Char}
    (double : (Opening.of before first rest).isDouble = true) :
    1 ≤ (cutPiece .plain () before offset first rest).1.extra := by
  have begins := Opening.begins before first rest
  unfold cutPiece
  cases opening : Opening.of before first rest with
  | lineComment =>
      rw [opening] at begins
      obtain ⟨second, next, inLine⟩ : ∃ second, rest.head? = some second ∧
          second ≠ '\n' := by
        rcases (opensLineComment_cons _ _).mp begins with ⟨-, next⟩ | ⟨-, next⟩
        · exact ⟨_, next, by decide⟩
        · exact ⟨_, next, by decide⟩
      obtain ⟨tail, rfl⟩ := List.head?_eq_some_iff.mp next
      simp [lineCommentPiece, firstLine, inLine]
  | blockComment =>
      rw [opening] at begins
      obtain ⟨tail, rfl⟩ := List.head?_eq_some_iff.mp begins.2
      dsimp only [blockCommentPiece]
      split
      · exact Nat.le_add_right _ _
      · simp
  | scope =>
      dsimp only [scopePiece]
      split
      · dsimp only
        omega
      · exact Nat.le_refl _
  | _ =>
      rw [opening] at double
      cases double

/--
A piece that lies within a curtailed text is cut off there as
from the whole text, whatever stands before, provided that a
star stands at the beginning of a line in both or in neither,
and a semicolon continues its line in both or in neither.
-/
theorem cutPiece_curtailed
    {before other : List Char}
    {offset place : Nat}
    {first : Char}
    (sameStart : first = '*' → atLineStart before = atLineStart other)
    (sameLine :
      first = ';' → continuesLine (';' :: text) =
        continuesLine (';' :: (text ++ dropped)))
    (within : (cutPiece .plain () before offset first
      (text ++ dropped)).1.extra ≤ text.length)
    (sound :
      ∀ cause,
        (cutPiece .plain () before offset first (text ++ dropped)).1.content ≠
          .fault cause) :
    (cutPiece .plain () other place first text).1 =
      (cutPiece .plain () before offset first (text ++ dropped)).1 := by
  have begins := Opening.begins before first (text ++ dropped)
  have second (double : (Opening.of before first (text ++ dropped)).isDouble =
      true) :
      (text ++ dropped).head? = text.head? := by
    have reaches := Nat.le_trans (extra_pos_of_isDouble double) within
    rw [List.head?_append_of_ne_nil _ (List.length_pos_iff.mp reaches)]
  have same : Opening.of other first text =
      Opening.of before first (text ++ dropped) := by
    cases text with
    | nil =>
        cases double : (Opening.of before first ([] ++ dropped)).isDouble with
        | false => exact Opening.of_atEnd sameStart double
        | true =>
            have reaches := Nat.le_trans (extra_pos_of_isDouble double) within
            cases reaches
    | cons next text =>
        exact Opening.of_congr (fun star => (sameStart star).symm) fun _ _ =>
          Iff.rfl
  unfold cutPiece at within sound ⊢
  rw [same]
  cases opening : Opening.of before first (text ++ dropped) with
  | space =>
      rw [opening] at within
      simp only [spacePiece, takeWhile_curtailed within]
  | lineComment | starComment =>
      rw [opening] at within
      simp only [lineCommentPiece, firstLine] at within ⊢
      rw [takeWhile_curtailed within]
  | blockComment =>
      rw [opening] at within sound begins second
      have star : text.head? = some '*' := (second rfl).symm.trans begins.2
      exact blockCommentPiece_curtailed star within sound
  | semicolon =>
      rw [opening] at begins
      simp only [semicolonPiece, sameLine begins]
  | quote =>
      rw [opening] at within sound begins
      exact congrArg Prod.fst (quotePiece_curtailed begins place within sound)
  | bracket =>
      rw [opening] at within
      exact bracketPiece_curtailed place within
  | dot =>
      rw [opening] at within sound
      exact dotPiece_curtailed within sound
  | digit =>
      rw [opening] at within
      exact numberPiece_curtailed within
  | scope =>
      rw [opening] at within sound begins second
      have colon : text.head? = some ':' := (second rfl).symm.trans begins.2
      exact scopePiece_curtailed colon within sound
  | name =>
      rw [opening] at within
      exact namePiece_curtailed within
  | sign =>
      rw [opening] at within sound
      exact signPiece_curtailed within sound

end Clipper.Lexeme
