import Clipper.Proofs.Lexeme.RespelledPieces
import Clipper.Proofs.Lexeme.ScannerRuns

/-!
# Lexemes and letter case

How a piece opens and how far it reaches does not depend on the case of letters:
letters are told from other characters, but not from one another, and words are
looked up in lower case.  So a text in lower case is cut at the same places into
pieces of the same kinds, and only the texts of its tokens and of its unknown
dot words are in lower case.

The proof follows the rules of the scanner.  Where a rule asks what class a
character is in, lower case makes no difference; and where it asks for a
certain character, that one is no letter.  Words are compared in lower case.
Lower case also keeps the width of every character, since only ASCII letters
change, and so a piece in lower case has the span of the piece.
-/

namespace Clipper.Lexeme

open Source

/-- Lower case respells the letters of a text, and keeps its lines. -/
def lowering : Respelling where
  text := lowered
  letter := Char.toLower
  text_nil := rfl
  text_cons first rest _ := lowered_cons first rest
  text_newline _ _ member := by cases member
  letter_cases _ := .inr rfl

variable {text rest before : List Char} {first : Char} {offset : Nat}

/-! ## Openings -/

theorem opensLineComment_lowered (text : List Char) :
    opensLineComment (lowered text) = opensLineComment text := by
  cases text with
  | nil => rfl
  | cons first rest =>
      rw [Bool.eq_iff_iff, lowered_cons, opensLineComment_cons,
        opensLineComment_cons, toLower_eq_iff rfl, toLower_eq_iff rfl,
        head?_lowered_iff rfl, head?_lowered_iff rfl]

theorem atLineStart_lowered (before : List Char) :
    atLineStart (lowered before) = atLineStart before := by
  rw [atLineStart, atLineStart, dropWhile_lowered ignoresCase_isBlank]
  cases before.dropWhile isBlank with
  | nil => rfl
  | cons first rest => exact ignoresCase_beq rfl first

/-! ## Comments and semicolons -/

/--
A block comment in lower case is closed at the same place, as
its end has no letters.
-/
theorem commentLength?_lowered (text : List Char) :
    commentLength? (lowered text) = commentLength? text := by
  fun_induction commentLength? text with
  | case1 => rfl
  | case2 rest => rfl
  | case3 first rest goesOn hypothesis =>
      have open_ : first.toLower = '*' → (lowered rest).head? ≠ some '/' := by
        rw [toLower_eq_iff rfl, ne_eq, head?_lowered_iff rfl]
        rintro rfl ends
        obtain ⟨later, rfl⟩ := List.head?_eq_some_iff.mp ends
        exact goesOn later rfl rfl
      rw [lowered_cons, commentLength?_cons open_, hypothesis]

theorem blockCommentPiece_lowered (rest : List Char) :
    blockCommentPiece (lowered rest) =
      (blockCommentPiece rest).respelled Char.toLower := by
  rw [blockCommentPiece, blockCommentPiece, drop_lowered,
    commentLength?_lowered, length_lowered]
  cases commentLength? (rest.drop 1) <;> rfl

theorem afterBlanksAndComment_lowered (text : List Char) :
    afterBlanksAndComment (lowered text) =
      lowered (afterBlanksAndComment text) := by
  simp only [afterBlanksAndComment, dropWhile_lowered ignoresCase_isBlank,
    opensLineComment_lowered]
  split
  · exact dropWhile_lowered (ignoresCase_bne rfl) _
  · rfl

/--
A semicolon continues its line in lower case if and only if it
does so in the text.
-/
theorem continuesLine_lowered (rest : List Char) :
    continuesLine (';' :: lowered rest) = continuesLine (';' :: rest) := by
  have visible : IgnoresCase fun character => !isBlank character :=
    fun character =>
      congrArg not (ignoresCase_isBlank character)
  rw [continuesLine, continuesLine, afterBlanksAndComment_lowered]
  cases afterBlanksAndComment rest with
  | nil => rfl
  | cons first next =>
      by_cases feed : first = '\n'
      · subst feed
        change (firstLine (lowered next)).any _ = (firstLine next).any _
        rw [firstLine_lowered, any_lowered visible]
      · have noFeed : first.toLower ≠ '\n' := by
          rwa [ne_eq, toLower_eq_iff rfl]
        simp [feed, noFeed]

theorem semicolonPiece_lowered (rest : List Char) :
    semicolonPiece (lowered rest) =
      (semicolonPiece rest).respelled Char.toLower := by
  have noLetter : ";".map Char.toLower = ";" :=
    map_letter_of_noLetters lowering rfl
  rw [semicolonPiece, semicolonPiece, continuesLine_lowered]
  split
  · rfl
  · rw [Piece.respelled, Content.respelled, noLetter]

/-! ## Pieces -/

/--
The piece of a text in lower case is the piece of the text, in lower case.
-/
theorem cutPiece_lowered
    (before : List Char)
    (offset : Nat)
    (first : Char)
    (rest : List Char) :
    (cutPiece .plain () (lowered before) offset first.toLower
      (lowered rest)).1 =
      (cutPiece .plain () before offset first rest).1.respelled
        Char.toLower := by
  have sameStart : first = '*' →
      atLineStart (lowered before) = atLineStart before :=
    fun _ => atLineStart_lowered before
  have opensAlike :
      Opening.of (lowered before) first.toLower (lowered rest) =
        Opening.of before first rest :=
    Opening.of_respelled lowering sameStart
  -- Only the pieces that go on behind their line, or look there, are not told
  -- by it.
  cases opening : Opening.of before first rest with
  | space =>
      rw [cutPiece, cutPiece, opensAlike, opening]
      simp only [spacePiece, takeWhile_lowered ignoresCase_isSpace,
        length_lowered]
      rfl
  | lineComment | starComment =>
      rw [cutPiece, cutPiece, opensAlike, opening]
      simp only [lineCommentPiece, firstLine_lowered, length_lowered]
      rfl
  | blockComment =>
      rw [cutPiece, cutPiece, opensAlike, opening]
      exact blockCommentPiece_lowered rest
  | semicolon =>
      rw [cutPiece, cutPiece, opensAlike, opening]
      exact semicolonPiece_lowered rest
  | _ =>
      have noFeed : first ≠ '\n' := by
        rintro rfl
        cases opening
      have noGap : (Opening.of before first rest).isGap = false := by
        rw [opening]
        rfl
      have noSemicolon : Opening.of before first rest ≠ .semicolon := by
        rw [opening]
        decide
      exact cutPiece_respelled lowering noFeed sameStart noGap noSemicolon

/-! ## Scanners -/

/-- The lexeme with its texts in lower case. -/
def inLowerCase (lexeme : Lexeme) : Lexeme :=
  ⟨Relabelled.relabel .lowered lexeme.token,
    lexeme.fault?.map (Fault.respelled Char.toLower)⟩

/-- A piece in lower case makes the lexeme of the piece, in lower case. -/
theorem lexeme?_inLowerCase
    {taken other : Taken}
    (raw : other.raw = lowered taken.raw)
    (span : other.span = taken.span)
    (content : other.content = taken.content.respelled Char.toLower) :
    other.lexeme? = taken.lexeme?.map inLowerCase := by
  rw [Taken.lexeme?, Taken.lexeme?, raw, span, content]
  cases taken.content with
  | fault cause =>
      rw [Content.respelled, ofContent?, ← lowerCase_ofList]
      rfl
  | _ => rfl

/-- The lexemes of a text in lower case are those of the text, in lower case. -/
theorem all_lowered (text : List Char) :
    all (lowered text) = (all text).map inLowerCase := by
  let related (scanner other : Scanner Unit) : Prop :=
    other.cut = ⟨lowered scanner.cut.before, lowered scanner.cut.after,
      scanner.cut.offset⟩
  rw [all_eq_allWith_plain, all_eq_allWith_plain]
  refine Scanner.lexemes_eq_map related ?_ ?_ rfl
  · intro scanner other both atEnd
    rw [both, atEnd]
    refine ⟨rfl, ?_⟩
    rw [endOfFile, inLowerCase, Option.map_none]
    exact congrArg (Lexeme.mk · none)
      (congrArg (Token.mk _ _) (Relabelling.lexeme_endOfFile .lowered).symm)
  · intro scanner other taken next both step
    obtain ⟨first, tail, raw, shape, piece⟩ := Scanner.piece_of_step? step
    have ahead : other.cut.after =
        first.toLower :: (lowered tail ++ lowered next.cut.after) := by
      rw [both, shape, lowered_append, lowered_cons]
      rfl
    have pieceOther :
        (cutPiece .plain () other.cut.before other.cut.offset first.toLower
            (lowered tail ++ lowered next.cut.after)).1 =
          ⟨(lowered tail).length, taken.content.respelled Char.toLower⟩ := by
      rw [both, ← lowered_append, cutPiece_lowered, piece, length_lowered]
      rfl
    obtain ⟨otherTaken, otherNext, stepOther, otherRaw, content⟩ :=
      Scanner.exists_step_of_piece ahead pieceOther
    have sameRaw : otherTaken.raw = lowered taken.raw := by
      rw [otherRaw, raw, lowered_cons]
    have takes := Scanner.takes_of_step? step
    have otherTakes := Scanner.takes_of_step? stepOther
    have offset : otherNext.cut.offset = next.cut.offset := by
      rw [otherTakes.offset, takes.offset, both, sameRaw, byteWidth_lowered]
    have before : otherNext.cut.before = lowered next.cut.before := by
      rw [otherTakes.before, takes.before, both, sameRaw, lowered_append,
        reverse_lowered]
    have after : otherNext.cut.after = lowered next.cut.after := by
      have whole := otherTakes.after
      rw [both, takes.after, sameRaw, lowered_append] at whole
      exact (List.append_cancel_left whole).symm
    have span : otherTaken.span = taken.span := by
      rw [otherTakes.span, takes.span, offset, both]
    refine ⟨otherTaken, otherNext, stepOther,
      lexeme?_inLowerCase sameRaw span content, ?_⟩
    change otherNext.cut = _
    rw [← before, ← after, ← offset]

end Clipper.Lexeme
