import Clipper.Proofs.Lexeme.TokenText
import Clipper.Proofs.Source.Slice

/-!
# Tokens alone

A lexeme is made of one piece of its text.  Cut out of the text, the piece of a
token is the same token, on a text that is the token and nothing else.

`MadeOf` says of a lexeme what it is made of: the text before it, the first
character and the tail of its piece, and the text after it.  A memory of the
line plays no part, as the lexemes are those of a reader that walks anew.
What a token has behind it is dropped by the lemmas on curtailed texts, and
what it has before it matters to a star only, which then is not at the
beginning of a line.
-/

namespace Clipper.Lexeme

open Clipper.Source

/-- A walk from a bracket finds the offset of a closing bracket of its text. -/
theorem closesAt_plain
    {memory : Unit}
    {offset : Nat}
    {rest : List Char}
    {close : Nat}
    (found : (LineReader.plain.pathEnd? memory offset ('[' :: rest)).1 =
      some close) :
    ClosesAt offset rest close := by
  have opens : OpensPath rest ∧
      close = offset + 1 + byteWidth (Lookahead.pathText rest) := by
    change (if OpensPath rest then
      some (offset + 1 + byteWidth (Lookahead.pathText rest)) else none)
      = some close at found
    split at found
    · next opens =>
        cases found
        exact ⟨opens, rfl⟩
    · cases found
  obtain ⟨later, behind⟩ := List.head?_eq_some_iff.mp opens.1.1
  refine ⟨Lookahead.pathText rest, later, ?_, opens.2⟩
  rw [← behind, Lookahead.pathText, drop_takeWhile,
    List.takeWhile_append_dropWhile]

/-- A piece without a memory reaches no further than the text. -/
theorem extra_plain_le
    (before : List Char)
    (offset : Nat)
    (first : Char)
    (rest : List Char) :
    (cutPiece .plain () before offset first rest).1.extra ≤ rest.length :=
  extra_cutPiece_le .plain _ _ _ _ _ fun _ found _ => closesAt_plain found

/--
The piece of a text that a lexeme is made of;
the text before it is kept nearest first.
-/
structure MadeOf
    (text : List Char)
    (lexeme : Lexeme)
    (before : List Char)
    (first : Char)
    (tail after : List Char) :
    Prop where
  whole : text = before.reverse ++ (first :: tail ++ after)
  extra : (cutPiece .plain () before (byteWidth before) first
    (tail ++ after)).1.extra = tail.length
  made :
    ofContent? (first :: tail)
      ⟨byteWidth before, byteWidth before + byteWidth (first :: tail)⟩
      (cutPiece .plain () before (byteWidth before) first
        (tail ++ after)).1.content = some lexeme

/-- What a step without a memory takes off is a piece. -/
theorem Scanner.piece_of_step?
    {scanner following : Scanner Unit}
    {taken : Taken}
    (step : scanner.step? .plain = some (taken, following)) :
    ∃ first tail,
      taken.raw = first :: tail ∧
        scanner.cut.after = first :: tail ++ following.cut.after ∧
        (cutPiece .plain () scanner.cut.before scanner.cut.offset first
          (tail ++ following.cut.after)).1 = ⟨tail.length, taken.content⟩ := by
  have takes := takes_of_step? step
  cases ahead : scanner.cut.after with
  | nil =>
      rw [(step?_eq_none_iff scanner).mpr ahead] at step
      cases step
  | cons first rest =>
      have bound := extra_plain_le scanner.cut.before
          scanner.cut.offset first rest
      rw [step?_of_ahead ahead] at step
      generalize pieceIs :
        cutPiece .plain scanner.memory scanner.cut.before scanner.cut.offset
          first rest = piece
        at step
      have raw : taken.raw = first :: rest.take piece.1.extra := by
        cases step
        rfl
      have content : taken.content = piece.1.content := by
        cases step
        rfl
      refine ⟨first, rest.take piece.1.extra, raw, ?_, ?_⟩
      · rw [← ahead, ← raw]
        exact takes.after
      · have behind : rest.take piece.1.extra ++
            following.cut.after = rest := by
          have split := takes.after
          rw [ahead, raw] at split
          exact (List.cons.inj split).2.symm
        have piecePlain : cutPiece .plain () scanner.cut.before
            scanner.cut.offset first rest = piece :=
          pieceIs
        rw [piecePlain] at bound
        rw [behind, piecePlain, List.length_take_of_le bound, content]

/-- Every lexeme of a text but the last is made of a piece of it. -/
theorem exists_madeOf
    {text : List Char}
    {lexeme : Lexeme}
    (member : lexeme ∈ all text)
    (notEnd : lexeme.token.kind ≠ .endOfFile) :
    ∃ before first tail after, MadeOf text lexeme before first tail after := by
  rw [all_eq_allWith_plain, allWith] at member
  generalize isStart : Scanner.ofText .plain text = scanner at member
  have whole : text = scanner.cut.before.reverse ++ scanner.cut.after := by
    rw [← isStart]
    rfl
  have placed : scanner.cut.offset = byteWidth scanner.cut.before := by
    rw [← isStart]
    rfl
  clear isStart
  fun_induction scanner.lexemes .plain with
  | case1 scanner ended =>
      cases List.mem_singleton.mp member
      exact absurd rfl notEnd
  | case2 scanner taken following step found made hypothesis =>
      have takes := Scanner.takes_of_step? step
      rcases List.mem_cons.mp member with rfl | later
      · obtain ⟨first, tail, raw, shape, piece⟩ := Scanner.piece_of_step? step
        refine ⟨scanner.cut.before, first, tail,
          following.cut.after, ?_, ?_, ?_⟩
        · rw [whole, shape]
        · rw [← placed, piece]
        · rw [← placed, piece, ← raw, ← takes.offset, ← takes.span]
          exact made
      · refine hypothesis later ?_ (takes.placed placed)
        rw [whole, takes.before, takes.after]
        simp
  | case3 scanner taken following step made hypothesis =>
      have takes := Scanner.takes_of_step? step
      refine hypothesis member ?_ (takes.placed placed)
      rw [whole, takes.before, takes.after]
      simp

/-- A text that is one piece has the token of the piece, and nothing else. -/
theorem all_of_piece
    {first : Char}
    {tail : List Char}
    {kind : TokenKind}
    {lexeme : String}
    (piece : (cutPiece .plain () [] 0 first tail).1 =
      ⟨tail.length, .token kind lexeme⟩) :
    all (first :: tail) =
      [⟨⟨kind, ⟨0, byteWidth (first :: tail)⟩, lexeme⟩, none⟩,
        endOfFile (byteWidth (first :: tail))] := by
  have plain : all (first :: tail) = allWith .plain (first :: tail) :=
    simulates_plain.lexemes ⟨rfl, .initial _ _, .initial _ _⟩
  have cuts : cutPiece .plain LineReader.plain.initial [] 0 first (tail ++ []) =
      (⟨tail.length, .token kind lexeme⟩, ()) := by
    rw [List.append_nil]
    exact Prod.ext piece rfl
  have whole := allWith_of_piece cuts
  rw [List.append_nil] at whole
  rw [plain, whole, Scanner.lexemes_of_ended]
  exact (Scanner.step?_eq_none_iff _).mpr rfl

end Clipper.Lexeme
