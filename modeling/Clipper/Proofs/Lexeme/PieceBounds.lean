import Clipper.Proofs.Lexeme.Gap

/-!
# Bounds of pieces

A piece lies within the text that it is cut from, provided that the line reader
answers with the offset of a closing bracket where it answers at all.  A piece
that is skipped is a gap, and a piece that is a token is neither the end of the
text nor an error.

The bounds are needed for the scanner to be total, and they are what makes a
step shorten the text.  That skipped pieces are gaps is the link between the
rules of the scanner and the description of what may stand between two tokens.
Kinds with a spelling are those that a piece of text may have: all but the end
of the text and the kind of errors.
-/

namespace Clipper.Lexeme

open Clipper.Source

/-- What a text begins with when its first piece opens in a certain way. -/
def Opening.Begins
    (before : List Char)
    (first : Char)
    (rest : List Char) :
    Opening → Prop
  | .space => isSpace first = true
  | .lineComment => opensLineComment (first :: rest) = true
  | .blockComment => first = '/' ∧ rest.head? = some '*'
  | .starComment => opensStarComment before (first :: rest) = true
  | .semicolon => first = ';'
  | .quote => first = '"' ∨ first = '\''
  | .bracket => first = '['
  | .dot => first = '.'
  | .digit => first.isDigit = true
  | .scope => first = ':' ∧ rest.head? = some ':'
  | .name => isNameStart first = true
  | .sign => True

/--
An opening that is chosen by a test has the property of its
branch in either case.
-/
theorem Opening.begins_ite
    {before : List Char}
    {first : Char}
    {rest : List Char}
    {condition : Prop}
    [Decidable condition]
    {opening other : Opening}
    (yes : condition → opening.Begins before first rest)
    (no : other.Begins before first rest) :
    (if condition then opening else other).Begins before first rest := by
  by_cases holds : condition
  · rw [if_pos holds]
    exact yes holds
  · rw [if_neg holds]
    exact no

theorem Opening.begins
    (before : List Char)
    (first : Char)
    (rest : List Char) :
    (Opening.of before first rest).Begins before first rest := by
  unfold Opening.of
  -- One step for each test of the classifier; the last opening asks nothing.
  iterate 11 refine begins_ite (fun holds => holds) ?_
  exact trivial

/-! ## Gaps -/

/-- A comment up to the end of its line is a gap, whatever follows that end. -/
theorem gap_lineComment
    (first : Char)
    (before rest : List Char)
    (skippable :
      ∀ after,
        AtLineEnd after → Skippable before (first :: firstLine rest) after) :
    Gap before
      ((first :: rest).take ((lineCommentPiece rest).extra + 1))
      ((first :: rest).drop ((lineCommentPiece rest).extra + 1)) := by
  simp only [lineCommentPiece, List.take_succ_cons, List.drop_succ_cons]
  rw [firstLine, take_takeWhile, ← firstLine]
  exact .single (skippable _ (atLineEnd_drop_firstLine rest))

/--
The signs of a comment stand on its first line, and no
line feed is among them.
-/
theorem opensLineComment_firstLine
    {first : Char}
    {rest : List Char}
    (opens : opensLineComment (first :: rest) = true) :
    first ≠ '\n' ∧ opensLineComment (first :: firstLine rest) = true := by
  unfold opensLineComment at opens
  split at opens
  · next equal =>
      cases equal
      exact ⟨by decide, rfl⟩
  · next equal =>
      cases equal
      exact ⟨by decide, rfl⟩
  · cases opens

/--
A star that opens a comment stands on its first line, with nothing
but blanks before it.
-/
theorem opensStarComment_firstLine
    {before : List Char}
    {first : Char}
    {rest : List Char}
    (opens : opensStarComment before (first :: rest) = true) :
    first ≠ '\n' ∧ opensStarComment before (first :: firstLine rest) =
      true := by
  unfold opensStarComment at opens
  split at opens
  · next equal =>
      cases equal
      exact ⟨by decide, opens⟩
  · cases opens

variable {σ : Type} (reader : LineReader σ)

/-- A piece that is skipped is a gap. -/
theorem gap_cutPiece
    (memory : σ)
    (before : List Char)
    (offset : Nat)
    (first : Char)
    (rest : List Char)
    (skipped : (cutPiece reader memory before offset first rest).1.content =
      .skipped) :
    Gap before
      ((first :: rest).take
        ((cutPiece reader memory before offset first rest).1.extra + 1))
      ((first :: rest).drop
        ((cutPiece reader memory before offset first rest).1.extra + 1)) := by
  have begins := Opening.begins before first rest
  unfold cutPiece at skipped ⊢
  cases opening : Opening.of before first rest with
  | space =>
      rw [opening] at begins
      exact gap_spacePiece begins before rest
  | lineComment =>
      rw [opening] at begins
      rcases opensLineComment_firstLine begins with ⟨differs, opens⟩
      refine gap_lineComment first before rest fun after ends => ?_
      exact .lineComment opens (newline_not_mem_line differs rest) ends
  | starComment =>
      rw [opening] at begins
      rcases opensStarComment_firstLine begins with ⟨differs, opens⟩
      refine gap_lineComment first before rest fun after ends => ?_
      exact .starComment opens (newline_not_mem_line differs rest) ends
  | blockComment =>
      rw [opening] at begins skipped
      rcases begins with ⟨rfl, star⟩
      exact gap_blockComment star before skipped
  | semicolon =>
      rw [opening] at begins skipped
      obtain rfl : first = ';' := begins
      dsimp only at skipped ⊢
      unfold semicolonPiece at skipped ⊢
      split at skipped
      · next continues =>
          rw [if_pos continues]
          exact .single (.continuation continues)
      · cases skipped
  | quote =>
      rw [opening] at skipped
      dsimp only [quotePiece] at skipped
      split at skipped <;> cases skipped
  | bracket =>
      rw [opening] at skipped
      dsimp only [bracketPiece] at skipped
      split at skipped <;> cases skipped
  | dot =>
      rw [opening] at skipped
      dsimp only [dotPiece] at skipped
      split at skipped
      · split at skipped <;> cases skipped
      · cases skipped
  | digit =>
      rw [opening] at skipped
      cases skipped
  | scope =>
      rw [opening] at skipped
      dsimp only [scopePiece] at skipped
      split at skipped <;> cases skipped
  | name =>
      rw [opening] at skipped
      cases skipped
  | sign =>
      rw [opening] at skipped
      dsimp only [signPiece] at skipped
      split at skipped <;> cases skipped

/-! ## Kinds -/

/--
A kind of tokens that are spelled: neither
the end of a text nor a piece with a fault.
-/
def IsSpelled (kind : TokenKind) : Prop :=
  kind ≠ .endOfFile ∧ kind ≠ .error

instance (kind : TokenKind) : Decidable (IsSpelled kind) :=
  inferInstanceAs (Decidable (_ ∧ _))

/--
What holds of all kinds of a table holds
of the kind of a word that is found in it.
-/
theorem holds_of_lookup
    (property : TokenKind → Prop)
    {table : List (String × TokenKind)}
    {word : String}
    {kind : TokenKind}
    (each : ∀ entry ∈ table, property entry.2)
    (found : table.lookup word = some kind) :
    property kind := by
  rcases List.lookup_eq_some_iff.mp found with ⟨earlier, later, rfl, -⟩
  exact each (word, kind) (by simp)

theorem isSpelled_of_reserved?
    {word : String}
    {kind : TokenKind} :
    Word.reserved? word = some kind → IsSpelled kind :=
  holds_of_lookup IsSpelled (by decide)

theorem isSpelled_of_dotted?
    {word : String}
    {kind : TokenKind} :
    Word.dotted? word = some kind → IsSpelled kind :=
  holds_of_lookup IsSpelled (by decide)

/-- A sign is a token with at least one character, all of which are there. -/
theorem sign?_spec
    {text : List Char}
    {kind : TokenKind}
    {length : Nat}
    (found : sign? text = some (kind, length)) :
    IsSpelled kind ∧ 0 < length ∧ length ≤ text.length := by
  unfold sign? at found
  split at found
  all_goals cases found
  all_goals simp [IsSpelled]

section

variable {rest : List Char} {kind : TokenKind} {lexeme : String}

/--
A token that begins with a dot is of a kind with a spelling: it is neither the
end of the text nor an error.
-/
theorem kind_dotPiece (isToken : (dotPiece rest).content = .token kind lexeme) :
    IsSpelled kind := by
  dsimp only [dotPiece] at isToken
  split at isToken
  · split at isToken
    · next kind found =>
        cases isToken
        exact isSpelled_of_dotted? found
    · cases isToken
  · cases isToken

/-- A name or a word is of a kind with a spelling. -/
theorem kind_namePiece
    {first : Char}
    (isToken : (namePiece first rest).content = .token kind lexeme) :
    IsSpelled kind := by
  dsimp only [namePiece] at isToken
  cases isToken
  cases found : Word.reserved?
    (String.ofList (first :: rest.takeWhile isNamePart)) with
  | none => decide
  | some kind => exact isSpelled_of_reserved? found

/-- A sign is of a kind with a spelling. -/
theorem kind_signPiece
    {first : Char}
    (isToken : (signPiece first rest).content = .token kind lexeme) :
    IsSpelled kind := by
  dsimp only [signPiece] at isToken
  split at isToken
  · next found =>
      cases isToken
      exact (sign?_spec found).1
  · cases isToken

end

/-- A token that is cut off is of a kind that is spelled. -/
theorem kind_cutPiece
    {memory : σ}
    {before : List Char}
    {offset : Nat}
    {first : Char}
    {rest : List Char}
    {kind : TokenKind}
    {lexeme : String}
    (isToken :
      (cutPiece reader memory before offset first rest).1.content =
        .token kind lexeme) :
    IsSpelled kind := by
  unfold cutPiece at isToken
  split at isToken
  · cases isToken
  · cases isToken
  · dsimp only [blockCommentPiece] at isToken
    split at isToken <;> cases isToken
  · cases isToken
  · dsimp only [semicolonPiece] at isToken
    split at isToken <;> cases isToken
    decide
  · dsimp only [quotePiece] at isToken
    split at isToken <;> cases isToken
    decide
  · dsimp only [bracketPiece] at isToken
    split at isToken <;> cases isToken
    · decide
    · decide
  · exact kind_dotPiece isToken
  · cases isToken
    decide
  · dsimp only [scopePiece] at isToken
    split at isToken <;> cases isToken
    decide
  · exact kind_namePiece isToken
  · exact kind_signPiece isToken

/-! ## Lengths -/

theorem length_takeWhile_le
    (test : Char → Bool)
    (text : List Char) :
    (text.takeWhile test).length ≤ text.length :=
  (List.takeWhile_prefix test).length_le

/--
A run stops before a character that fails its test, so it is
shorter than the text.
-/
theorem length_takeWhile_lt
    {test : Char → Bool}
    {text : List Char}
    {character : Char}
    (member : character ∈ text)
    (fails : test character = false) :
    (text.takeWhile test).length < text.length := by
  have opens := List.takeWhile_prefix (l := text) test
  refine Nat.lt_of_le_of_ne opens.length_le fun same => ?_
  rw [← opens.eq_of_length same] at member
  rw [List.mem_takeWhile_imp member] at fails
  cases fails

theorem taken_readQuoted_le
    (quote : Char)
    (memory : σ)
    (offset : Nat)
    (text : List Char) :
    (readQuoted reader quote memory offset text).taken ≤ text.length := by
  fun_induction readQuoted reader quote memory offset text
  all_goals simp_all [Quoted.push]

/--
As many bytes as a first text has are the first text, so the cut never
falls inside a character.
-/
@[simp]
theorem takeBytes_append
    (first rest : List Char) :
    takeBytes (byteWidth first) (first ++ rest) = first := by
  induction first with
  | nil =>
      cases rest with
      | nil => rfl
      | cons character rest =>
          have positive := character.utf8Size_pos
          simp only [List.nil_append, takeBytes, byteWidth_nil]
          rw [if_neg (by omega)]
  | cons character first hypothesis =>
      simp only [List.cons_append, takeBytes, byteWidth_cons]
      rw [if_pos (Nat.le_add_right _ _), Nat.add_sub_cancel_left, hypothesis]

/-- The offset of a `]` after a `[` that stands at an offset before a text. -/
def ClosesAt
    (offset : Nat)
    (rest : List Char)
    (close : Nat) :
    Prop :=
  ∃ path later, rest = path ++ ']' :: later ∧
    close = offset + 1 + byteWidth path

/-- A block comment takes no more characters than there are. -/
theorem extra_blockCommentPiece_le
    {rest : List Char}
    (star : rest.head? = some '*') :
    (blockCommentPiece rest).extra ≤ rest.length := by
  cases rest with
  | nil => cases star
  | cons second inside =>
      dsimp only [blockCommentPiece, List.drop_one, List.tail_cons]
      split
      · next length closed =>
          rcases commentLength?_spec closed with ⟨inner, later, rfl, rfl, -⟩
          simp only [List.length_cons, List.length_append]
          omega
      · simp

/--
A path literal takes no more characters than there are, given that the answer
of the line reader is the offset of a closing bracket.
-/
theorem extra_bracketPiece_le
    {memory : σ}
    {offset : Nat}
    {rest : List Char}
    (finds :
      ∀ close, (reader.pathEnd? memory offset ('[' :: rest)).1 = some close →
        ClosesAt offset rest close) :
    (bracketPiece reader memory offset rest).1.extra ≤ rest.length := by
  dsimp only [bracketPiece]
  split
  · next close _ answer =>
      rcases finds close (by rw [answer]) with ⟨path, later, rfl, rfl⟩
      rw [Nat.add_sub_cancel_left, takeBytes_append]
      simp
  · simp

/-- A dot word, or a dot alone, takes no more characters than there are. -/
theorem extra_dotPiece_le (rest : List Char) :
    (dotPiece rest).extra ≤ rest.length := by
  dsimp only [dotPiece]
  split
  · next closed =>
      have inLine : ((firstLine rest).takeWhile (· != '.')).length <
          (firstLine rest).length :=
        length_takeWhile_lt closed (by decide)
      have line := length_takeWhile_le (· != '\n') rest
      have fits : ((firstLine rest).takeWhile (· != '.')).length + 1 ≤
          rest.length :=
        Nat.le_trans inLine line
      split
      · exact fits
      · exact fits
  · simp

/--
A number takes no more characters than there are, with its
fraction or without.
-/
theorem extra_numberPiece_le
    (first : Char)
    (rest : List Char) :
    (numberPiece first rest).extra ≤ rest.length := by
  dsimp only [numberPiece]
  have digits := length_takeWhile_le Char.isDigit rest
  have tail := List.length_drop
      (i := (rest.takeWhile Char.isDigit).length) (l := rest)
  split
  · next opens =>
      have fraction :=
        length_takeWhile_le Char.isDigit
          ((rest.drop (rest.takeWhile Char.isDigit).length).drop 1)
      have dotted : rest.drop (rest.takeWhile Char.isDigit).length ≠ [] := by
        intro empty
        rw [empty] at opens
        cases opens
      have positive := List.length_pos_iff.mpr dotted
      rw [List.length_drop] at fraction
      rw [List.length_cons]
      omega
  · simpa using digits

/-- A scoped name takes no more characters than there are. -/
theorem extra_scopePiece_le
    {rest : List Char}
    (colon : rest.head? = some ':') :
    (scopePiece rest).extra ≤ rest.length := by
  cases rest with
  | nil => cases colon
  | cons second tail =>
      simp only [scopePiece, List.drop_succ_cons, List.drop_zero]
      split
      · have gap := length_takeWhile_le (fun c => c == ' ' || c == '\t') tail
        have name :=
          length_takeWhile_le isNamePart
            (tail.drop (tail.takeWhile (fun c => c == ' ' || c == '\t')).length)
        rw [List.length_drop] at name
        rw [List.length_cons]
        dsimp only
        omega
      · simp

/-- A sign takes no more characters than there are. -/
theorem extra_signPiece_le
    (first : Char)
    (rest : List Char) :
    (signPiece first rest).extra ≤ rest.length := by
  dsimp only [signPiece]
  split
  · next found =>
      have bounded := (sign?_spec found).2.2
      rw [List.length_cons] at bounded
      dsimp only
      omega
  · simp

/--
A piece reaches no further than the text,
if the reader finds closing brackets only.
-/
theorem extra_cutPiece_le
    (memory : σ)
    (before : List Char)
    (offset : Nat)
    (first : Char)
    (rest : List Char)
    (finds :
      ∀ close, (reader.pathEnd? memory offset ('[' :: rest)).1 = some close →
        first = '[' → ClosesAt offset rest close) :
    (cutPiece reader memory before offset first rest).1.extra ≤
      rest.length := by
  have begins := Opening.begins before first rest
  unfold cutPiece
  cases opening : Opening.of before first rest with
  | space => exact length_takeWhile_le isSpace rest
  | lineComment | starComment => exact length_takeWhile_le _ rest
  | blockComment =>
      rw [opening] at begins
      exact extra_blockCommentPiece_le begins.2
  | semicolon =>
      dsimp only [semicolonPiece]
      split <;> simp
  | quote => exact taken_readQuoted_le reader first memory (offset + 1) rest
  | bracket =>
      rw [opening] at begins
      exact extra_bracketPiece_le reader
        (fun close found => finds close found begins)
  | dot => exact extra_dotPiece_le rest
  | digit => exact extra_numberPiece_le first rest
  | scope =>
      rw [opening] at begins
      exact extra_scopePiece_le begins.2
  | name => exact length_takeWhile_le isNamePart rest
  | sign => exact extra_signPiece_le first rest

end Clipper.Lexeme
