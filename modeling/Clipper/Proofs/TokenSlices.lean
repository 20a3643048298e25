import Clipper.Proofs.Directive.WithinLine
import Clipper.Proofs.Lexeme.TokenAlone

/-!
# Tokens point at their text

The span of a token covers its text in the source text, also where directives
were removed before the tokens were cut.  Alone, that text is the same token.

A token that the scanner made is told by the characters that were taken for
it, by what stands before them and by what comes after.  Most rules look no
further than the token, so its text alone is cut in the same way.  An error
token for a block comment without its end is left out: it reaches to the end
of its text, and so does every shorter text that begins with it.
-/

namespace Clipper

open Source

namespace Lexeme

/-- How a lexeme and the piece of text that it stands on belong together. -/
structure Fits
    (lexeme : Lexeme)
    (piece : List Char) :
    Prop where
  /-- Cut out of its text, the piece is the same token, and nothing else. -/
  alone :
    lexeme.token.kind ∉ [.error, .star, .starEqual] →
      all piece =
        [⟨⟨lexeme.token.kind, ⟨0, byteWidth piece⟩, lexeme.token.lexeme⟩, none⟩,
          endOfFile (byteWidth piece)]
  /-- A token that is neither decoded nor normalized is its text. -/
  literally :
    lexeme.token.kind ∉ [.string, .notEqual] →
      ¬ [':', ':'] <+: lexeme.token.lexeme.toList →
        lexeme.token.lexeme = String.ofList piece
  /-- A piece with a fault is kept as it is. -/
  asFault : lexeme.token.kind = .error →
    lexeme.token.lexeme = String.ofList piece

theorem Fits.moveTo
    {lexeme : Lexeme}
    {piece : List Char}
    (fits : lexeme.Fits piece)
    (span : Span) :
    (lexeme.moveTo span).Fits piece :=
  ⟨fits.alone, fits.literally, fits.asFault⟩

/-- A semicolon that is a token does not continue its line. -/
theorem not_continuesLine_of_token
    {before rest : List Char}
    {offset : Nat}
    {kind : TokenKind}
    {lexeme : String}
    (isToken : (cutPiece .plain () before offset ';' rest).1.content =
      .token kind lexeme) :
    continuesLine (';' :: rest) = false := by
  have opens : Opening.of before ';' rest = .semicolon := by
    simp [Opening.of, isSpace, isBlank, opensLineComment, opensStarComment]
  rw [cutPiece, opens] at isToken
  cases continues : continuesLine (';' :: rest) with
  | false => rfl
  | true =>
      simp only [semicolonPiece, continues] at isToken
      cases isToken

theorem commonSpelling?_eq_none
    {kind : TokenKind}
    (differs : kind ≠ .notEqual) :
    kind.commonSpelling? = none := by
  unfold TokenKind.commonSpelling?
  split
  · exact absurd rfl differs
  · rfl

namespace MadeOf

variable {text before tail after : List Char} {first : Char} {lexeme : Lexeme}
variable (madeOf : MadeOf text lexeme before first tail after)

include madeOf

/--
The span of a lexeme goes from the width of what stands before it to the width
of what stands before it and of its own text.
-/
theorem span :
    lexeme.token.span =
      ⟨byteWidth before, byteWidth before + byteWidth (first :: tail)⟩ := by
  have made := madeOf.made
  unfold ofContent? at made
  split at made
  · cases made
  · cases made
    rfl
  · cases made
    rfl

/--
Only pieces with a fault hold a line feed,
and of these only comments without an end.
-/
theorem oneLine
    (closed : lexeme.token.kind = .error → lexeme.fault? ≠ some .openComment) :
    '\n' ∉ first :: tail := by
  have made := madeOf.made
  have raw :
      (first :: (tail ++ after)).take
          ((cutPiece .plain () before (byteWidth before) first
            (tail ++ after)).1.extra + 1) =
        first :: tail := by
    rw [madeOf.extra, List.take_succ_cons, List.take_left]
  rw [← raw]
  apply newline_not_mem_piece
  · intro skipped
    rw [skipped] at made
    cases made
  · intro open_
    rw [open_] at made
    cases made
    exact closed rfl rfl

/-- The piece of a lexeme fits it. -/
theorem fits : lexeme.Fits (first :: tail) := by
  have made := madeOf.made
  have extra := madeOf.extra
  cases content : (cutPiece .plain () before (byteWidth before) first
    (tail ++ after)).1.content with
  | skipped =>
      rw [content] at made
      cases made
  | fault cause =>
      rw [content] at made
      cases made
      refine ⟨fun notError => absurd List.mem_cons_self notError, fun _ _ =>
        rfl, fun _ => rfl⟩
  | token kind text =>
      rw [content] at made
      cases made
      have sound :
          ∀ cause,
            (cutPiece .plain () before (byteWidth before) first
              (tail ++ after)).1.content ≠
            .fault cause := by
        rw [content]
        simp
      refine ⟨fun ordinary => ?_, fun plain unscoped => ?_, fun error => ?_⟩
      · apply all_of_piece
        have noStar : first ≠ '*' := by
          rintro rfl
          rcases kind_of_star content with rfl | rfl
          · simp at ordinary
          · simp at ordinary
        have curtailed :
            (cutPiece .plain () [] 0 first tail).1 =
              (cutPiece .plain () before (byteWidth before) first
                (tail ++ after)).1 := by
          refine cutPiece_curtailed (fun star => absurd star noStar) ?_
            (Nat.le_of_eq extra) sound
          rintro rfl
          have ends := not_continuesLine_of_token content
          rw [ends, Bool.eq_false_iff]
          exact fun continues =>
            Bool.false_ne_true
              (ends.symm.trans (continuesLine_append continues))
        rw [curtailed, ← extra, ← content]
      · simp only [List.mem_cons, List.not_mem_nil, or_false, not_or] at plain
        have raw := lexeme_eq_piece content plain.1
            (commonSpelling?_eq_none plain.2) unscoped
        rwa [extra, List.take_succ_cons, List.take_left] at raw
      · exact absurd error (kind_cutPiece .plain content).2

end MadeOf

end Lexeme

open Lexeme

/--
Every token of an analysis points at its text in the source text.  Cut out of
the source text, the text of a token is the same token again, apart from the
pieces with a fault and the stars, which open a comment at the beginning of a
line.  The token is the text, apart from strings, scoped names and the signs for
inequality, and a piece with a fault is the text always.  Only a block comment
without an end may cover directives that were removed.
-/
theorem tokens_point_at_text
    (stripDirectives : Bool)
    (text : List Char)
    (lexeme : Lexeme)
    (member : lexeme ∈ (Analysis.ofText stripDirectives text).lexemes)
    (notEnd : lexeme.token.kind ≠ .endOfFile)
    (closed : lexeme.token.kind = .error → lexeme.fault? ≠ some .openComment) :
    ∃ piece, slice? text lexeme.token.span = some piece ∧
      lexeme.Fits piece := by
  cases stripDirectives with
  | false =>
      obtain ⟨before, first, tail, after, madeOf⟩ := exists_madeOf member notEnd
      refine ⟨first :: tail, slice?_eq_some_iff.mpr
        ⟨before.reverse, after, madeOf.whole, ?_⟩,
        madeOf.fits⟩
      rw [madeOf.span, byteWidth_reverse]
  | true =>
      obtain ⟨inner, isInner, rfl⟩ := List.mem_map.mp member
      obtain ⟨before, first, tail, after, madeOf⟩ :=
        exists_madeOf isInner notEnd
      obtain ⟨front, behind, split, place⟩ :=
        Directive.exists_source_of_oneLine madeOf.whole
          (List.cons_ne_nil first tail) (madeOf.oneLine closed)
      refine ⟨first :: tail, slice?_eq_some_iff.mpr ⟨front, behind, split, ?_⟩,
        madeOf.fits.moveTo _⟩
      rw [byteWidth_reverse, ← madeOf.span] at place
      exact place

/-- Behind a directive, the second token of a line points at its text. -/
theorem tokens_point_at_text_assign :
    ∃ piece,
      slice? "#define X\nx := 1".toList ⟨12, 14⟩ = some piece ∧
        (Lexeme.mk ⟨.assign, ⟨12, 14⟩, ":="⟩ none).Fits piece :=
  tokens_point_at_text true "#define X\nx := 1".toList
    ⟨⟨.assign, ⟨12, 14⟩, ":="⟩, none⟩
    (by decide +kernel) (by decide) (fun error => absurd error (by decide))

end Clipper
