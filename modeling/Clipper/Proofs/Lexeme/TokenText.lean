import Clipper.Proofs.Lexeme.Curtailed

/-!
# The text of a token

The text of a piece that is no gap lies on one line, unless it is a block
comment without an end.  Apart from strings, scoped names and the signs that
have a common spelling, a token is its text.

That a piece has no line feed is proved for each sort of piece from the run of
characters that it takes.  The common spelling is that of a sign with more
than one form: the token holds the common form, and the source text may have
the other one.  Scoped names drop the blanks behind their colons, and strings
hold their content without quotes.
-/

namespace Clipper.Lexeme

open Clipper.Source

variable {rest : List Char}

/-! ## What the rules take -/

theorem newline_not_mem_takeWhile
    (test : Char → Bool)
    (text : List Char)
    (fails : test '\n' = false) :
    '\n' ∉ text.takeWhile test := by
  intro member
  rw [List.mem_takeWhile_imp member] at fails
  cases fails

/-- A string takes no line feed: it is given up at the end of its line. -/
theorem newline_not_mem_readQuoted
    {quote : Char}
    (isQuote : IsQuote quote)
    (offset : Nat)
    (memory : Unit) :
    '\n' ∉ rest.take (readQuoted .plain quote memory offset rest).taken := by
  have differs : quote ≠ '\n' := by
    rcases isQuote with rfl | rfl
    · decide
    · decide
  fun_induction readQuoted .plain quote memory offset rest
  all_goals simp_all [Quoted.push, @eq_comm _ '\n']

theorem take_pathText (opens : OpensPath rest) :
    rest.take ((Lookahead.pathText rest).length + 1) =
      Lookahead.pathText rest ++ [']'] := by
  obtain ⟨closes, -⟩ := opens
  rw [List.head?_drop] at closes
  rw [List.take_add_one, closes, Lookahead.pathText, take_takeWhile]
  rfl

/-- A word between dots is taken with its second dot. -/
theorem take_dotted (dotted : '.' ∈ firstLine rest) :
    rest.take (((firstLine rest).takeWhile (· != '.')).length + 1) =
      (firstLine rest).takeWhile (· != '.') ++ ['.'] := by
  obtain ⟨inner, later, line, noDot⟩ := List.eq_append_cons_of_mem dotted
  have word : (firstLine rest).takeWhile (· != '.') = inner := by
    rw [line]
    exact takeWhile_append_of_head
      (fun character member =>
        bne_iff_ne.mpr (by rintro rfl; exact noDot member)) (by simp)
  obtain ⟨behind, whole⟩ : inner ++ '.' :: later <+: rest := by
    rw [← line]
    exact List.takeWhile_prefix _
  rw [word, ← whole]
  simp [List.take_append, List.take_of_length_le]

/-- A number is taken with its fraction. -/
theorem take_numberPiece (first : Char) :
    (numberPiece first rest).content =
        .token .number
          (String.ofList (first :: rest.take (numberPiece first rest).extra)) ∧
      '\n' ∉ rest.take (numberPiece first rest).extra := by
  have digits : '\n' ∉ rest.takeWhile Char.isDigit :=
    newline_not_mem_takeWhile _ rest rfl
  have split : rest = rest.takeWhile Char.isDigit ++
      rest.drop (rest.takeWhile Char.isDigit).length := by
    rw [drop_takeWhile, List.takeWhile_append_dropWhile]
  simp only [numberPiece]
  generalize rest.takeWhile Char.isDigit = run at digits split ⊢
  generalize rest.drop run.length = tail at split ⊢
  subst split
  split
  · next opens =>
      obtain ⟨behind, rfl⟩ : ∃ behind, tail = '.' :: behind := by
        unfold opensFraction at opens
        split at opens
        · exact ⟨_, rfl⟩
        · cases opens
      have fraction : '\n' ∉ behind.takeWhile Char.isDigit :=
        newline_not_mem_takeWhile _ behind rfl
      simp [List.take_append, List.take_of_length_le, take_takeWhile,
        digits, fraction]
  · simp [digits]

/--
A scoped name lies on one line, as its gap holds blanks and tabulators only.
-/
theorem newline_not_mem_scopePiece (colon : rest.head? = some ':') :
    '\n' ∉ rest.take (scopePiece rest).extra := by
  obtain ⟨tail, rfl⟩ := List.head?_eq_some_iff.mp colon
  simp only [scopePiece, List.drop_one, List.tail_cons]
  have gap : '\n' ∉ tail.takeWhile
      (fun character => character == ' ' || character == '\t') :=
    newline_not_mem_takeWhile _ tail rfl
  have split :
      tail = tail.takeWhile
        (fun character => character == ' ' || character == '\t') ++
        tail.drop (tail.takeWhile
          (fun character => character == ' ' || character == '\t')).length := by
    rw [drop_takeWhile, List.takeWhile_append_dropWhile]
  generalize tail.takeWhile _ = run at gap split ⊢
  generalize tail.drop run.length = named at split ⊢
  subst split
  split
  · have name : '\n' ∉ named.takeWhile isNamePart :=
      newline_not_mem_takeWhile _ named rfl
    rw [Nat.add_assoc, Nat.add_comm 1]
    simp [List.take_append, List.take_of_length_le, take_takeWhile, gap, name]
  · simp

/-- No sign has a line feed in it. -/
theorem newline_not_mem_sign
    {text : List Char}
    {kind : TokenKind}
    {length : Nat}
    (found : sign? text = some (kind, length)) :
    '\n' ∉ text.take length := by
  unfold sign? at found
  split at found
  all_goals cases found
  all_goals simp

/--
The characters of a sign are those that its length says, the first of
which opened the piece.
-/
theorem take_signPiece
    {first : Char}
    {kind : TokenKind}
    {length : Nat}
    (found : sign? (first :: rest) = some (kind, length)) :
    (first :: rest).take length =
      first :: rest.take (signPiece first rest).extra := by
  have positive := (sign?_spec found).2.1
  obtain ⟨count, rfl⟩ : ∃ count, length = count + 1 := ⟨length - 1, by omega⟩
  simp only [signPiece, found]
  rfl

/-! ## Pieces -/

section

variable {before : List Char} {offset : Nat} {first : Char}

/-- The openings of spaces and comments. -/
def Opening.isGap : Opening → Bool
  | .space | .lineComment | .blockComment | .starComment => true
  | _ => false

/--
A piece that opens neither space nor comment
stands on one line behind its first character.
-/
theorem newline_not_mem_tail
    (offset : Nat)
    (noGap : (Opening.of before first rest).isGap = false) :
    '\n' ∉ rest.take (cutPiece .plain () before offset first rest).1.extra := by
  have begins := Opening.begins before first rest
  unfold cutPiece
  cases opening : Opening.of before first rest with
  | space | lineComment | blockComment | starComment =>
      rw [opening] at noGap
      cases noGap
  | semicolon =>
      simp only [semicolonPiece]
      split <;> simp
  | quote =>
      rw [opening] at begins
      exact newline_not_mem_readQuoted begins _ _
  | bracket =>
      simp only [bracketPiece_plain]
      split
      · next opens =>
          rw [take_pathText opens, List.mem_append, not_or]
          exact ⟨newline_not_mem_takeWhile _ rest rfl, by simp⟩
      · simp
  | dot =>
      simp only [dotPiece]
      split
      · next dotted =>
          have word : '\n' ∉ (firstLine rest).takeWhile (· != '.') ++
              ['.'] := by
            rw [List.mem_append, not_or]
            refine ⟨fun member => newline_not_mem_firstLine rest ?_, by simp⟩
            exact (List.takeWhile_prefix _).subset member
          split
          · rwa [take_dotted dotted]
          · rwa [take_dotted dotted]
      · simp
  | digit => exact (take_numberPiece first).2
  | scope =>
      rw [opening] at begins
      exact newline_not_mem_scopePiece begins.2
  | name =>
      simp only [namePiece, take_takeWhile]
      exact newline_not_mem_takeWhile _ rest rfl
  | sign =>
      cases found : sign? (first :: rest) with
      | none => simp [signPiece, found]
      | some sign =>
          obtain ⟨kind, length⟩ := sign
          have visible := newline_not_mem_sign found
          rw [take_signPiece found] at visible
          exact fun member => visible (List.mem_cons_of_mem first member)

/--
A piece that is not skipped opens neither space
nor comment, unless the comment has no end.
-/
theorem isGap_eq_false
    (kept : (cutPiece .plain () before offset first rest).1.content ≠ .skipped)
    (closed : (cutPiece .plain () before offset first rest).1.content ≠
      .fault .openComment) :
    (Opening.of before first rest).isGap = false := by
  unfold cutPiece at kept closed
  cases opening : Opening.of before first rest with
  | space | lineComment | starComment =>
      rw [opening] at kept
      exact absurd rfl kept
  | blockComment =>
      rw [opening] at kept closed
      simp only [blockCommentPiece] at kept closed
      split at kept
      · exact absurd rfl kept
      · next open_ =>
          rw [open_] at closed
          exact absurd rfl closed
  | _ => rfl

/--
A piece that is not skipped stands on one
line, unless it is a comment without an end.
-/
theorem newline_not_mem_piece
    (kept : (cutPiece .plain () before offset first rest).1.content ≠ .skipped)
    (closed : (cutPiece .plain () before offset first rest).1.content ≠
      .fault .openComment) :
    '\n' ∉ (first :: rest).take
      ((cutPiece .plain () before offset first rest).1.extra + 1) := by
  rw [List.take_succ_cons, List.mem_cons, not_or]
  constructor
  · rintro rfl
    exact kept rfl
  · exact newline_not_mem_tail offset (isGap_eq_false kept closed)

/-- Only a star makes a token that begins with a star. -/
theorem kind_of_star
    {kind : TokenKind}
    {lexeme : String}
    (isToken : (cutPiece .plain () before offset '*' rest).1.content =
      .token kind lexeme) :
    kind = .star ∨ kind = .starEqual := by
  cases start : atLineStart before with
  | true =>
      have comment : Opening.of before '*' rest = .starComment := by
        simp [Opening.of, isSpace, isBlank, opensLineComment,
          opensStarComment, start]
      rw [cutPiece, comment] at isToken
      cases isToken
  | false =>
      have sign : Opening.of before '*' rest = .sign :=
        opening_of_star (by simp [withinLine, start]) rest
      rw [cutPiece, sign] at isToken
      cases rest with
      | nil =>
          cases isToken
          exact .inl rfl
      | cons second rest =>
          by_cases equal : second = '='
          · subst equal
            cases isToken
            exact .inr rfl
          · have found : sign? ('*' :: second :: rest) = some (.star, 1) := by
              simp [sign?, equal]
            simp only [signPiece, found] at isToken
            cases isToken
            exact .inl rfl

/--
The text of a token is its lexeme, apart from
strings, scoped names and common spellings.
-/
theorem lexeme_eq_piece
    {kind : TokenKind}
    {lexeme : String}
    (isToken : (cutPiece .plain () before offset first rest).1.content =
      .token kind lexeme)
    (noString : kind ≠ .string)
    (oneSpelling : kind.commonSpelling? = none)
    (unscoped : ¬ [':', ':'] <+: lexeme.toList) :
    lexeme =
      String.ofList
        ((first :: rest).take
          ((cutPiece .plain () before offset first rest).1.extra + 1)) := by
  have begins := Opening.begins before first rest
  rw [List.take_succ_cons]
  unfold cutPiece at isToken ⊢
  cases opening : Opening.of before first rest with
  | space | lineComment | starComment =>
      rw [opening] at isToken
      cases isToken
  | blockComment =>
      rw [opening] at isToken
      simp only [blockCommentPiece] at isToken
      split at isToken <;> cases isToken
  | semicolon =>
      rw [opening] at isToken begins
      obtain rfl : first = ';' := begins
      simp only [semicolonPiece] at isToken ⊢
      split at isToken
      · cases isToken
      · next ends =>
          cases isToken
          rw [if_neg ends]
          rfl
  | quote =>
      rw [opening] at isToken
      simp only [quotePiece] at isToken
      split at isToken
      · cases isToken
        exact absurd rfl noString
      · cases isToken
  | bracket =>
      rw [opening] at isToken begins
      obtain rfl : first = '[' := begins
      simp only [bracketPiece_plain] at isToken ⊢
      split at isToken
      · cases isToken
        exact absurd rfl noString
      · next plain =>
          cases isToken
          rw [if_neg plain]
          rfl
  | dot =>
      rw [opening] at isToken begins
      obtain rfl : first = '.' := begins
      simp only [dotPiece] at isToken ⊢
      split at isToken
      · next dotted =>
          rw [if_pos dotted]
          split at isToken
          · next found =>
              cases isToken
              dsimp only
              rw [take_dotted dotted]
          · cases isToken
      · cases isToken
  | digit =>
      rw [opening] at isToken
      dsimp only at isToken ⊢
      rw [(take_numberPiece first).1] at isToken
      cases isToken
      rfl
  | scope =>
      rw [opening] at isToken
      simp only [scopePiece] at isToken
      split at isToken
      · cases isToken
        exact absurd ⟨_, (String.toList_ofList ..).symm⟩ unscoped
      · cases isToken
  | name =>
      rw [opening] at isToken
      simp only [namePiece] at isToken ⊢
      cases isToken
      rw [take_takeWhile]
  | sign =>
      rw [opening] at isToken
      cases found : sign? (first :: rest) with
      | none =>
          simp only [signPiece, found] at isToken
          cases isToken
      | some sign =>
          obtain ⟨kind, length⟩ := sign
          rw [← take_signPiece found]
          simp only [signPiece, found] at isToken
          cases isToken
          rw [oneSpelling]
          rfl

end

end Clipper.Lexeme
