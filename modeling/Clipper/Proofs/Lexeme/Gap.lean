import Mathlib.Data.List.TakeWhile
import Clipper.Lexeme.Piece
import Clipper.Proofs.Source.Width

/-!
# Gaps between tokens

Between two tokens a scanner skips spaces, comments up to the end of a line,
block comments that are closed, and semicolons that continue their line.
Whether a piece of text may be skipped depends on the text around it: on the
line before a star, and on the line after a semicolon.  A gap is a run of such
pieces.

The condition on a piece is a relation between the text before it, the piece
and the text after it.  It is defined by the four sorts of pieces, without a
look at the scanner, so that a statement about gaps can be read by itself.
The lemmas show for each piece that the scanner skips that it may be skipped,
and they are put together along the run of skipped pieces.
-/

namespace Clipper.Lexeme

open Clipper.Source

/-- A text is at the end of a line. -/
def AtLineEnd (after : List Char) : Prop :=
  ∀ character ∈ after.head?, character = '\n'

/--
A piece of text that is skipped between the text before it, nearest character
first, and the text after it.
-/
inductive Skippable (before : List Char) : List Char → List Char → Prop where
  | space
      {character : Char}
      {after : List Char}
      (isSpace : isSpace character = true) :
      Skippable before [character] after
  | lineComment
      {comment after : List Char}
      (opens : opensLineComment comment = true)
      (oneLine : '\n' ∉ comment)
      (ends : AtLineEnd after) :
      Skippable before comment after
  | starComment
      {comment after : List Char}
      (opens : opensStarComment before comment = true)
      (oneLine : '\n' ∉ comment)
      (ends : AtLineEnd after) :
      Skippable before comment after
  | blockComment
      {inner after : List Char}
      (open_ : ¬ ['*', '/'] <:+: inner ++ ['*']) :
      Skippable before ('/' :: '*' :: (inner ++ ['*', '/'])) after
  | continuation
      {after : List Char}
      (continues : continuesLine (';' :: after) = true) :
      Skippable before [';'] after

/-- A run of pieces that are skipped. -/
inductive Gap : (before gap after : List Char) → Prop where
  | nil {before after : List Char} : Gap before [] after
  | cons
      {before piece rest after : List Char}
      (first : Skippable before piece (rest ++ after))
      (others : Gap (piece.reverse ++ before) rest after) :
      Gap before (piece ++ rest) after

namespace Gap

theorem single
    {before piece after : List Char}
    (skipped : Skippable before piece after) :
    Gap before piece after := by
  have whole : Gap before (piece ++ []) after :=
    .cons (by simpa using skipped) .nil
  simpa using whole

/--
Two gaps, one behind the other, are one gap: the text before the second one is
the text before the first with the first gap behind it.
-/
theorem append
    {before first second after : List Char}
    (earlier : Gap before first (second ++ after))
    (later : Gap (first.reverse ++ before) second after) :
    Gap before (first ++ second) after := by
  generalize split : second ++ after = following at earlier
  induction earlier with
  | nil => simpa using later
  | @cons before piece rest _ skipped _ hypothesis =>
      subst split
      rw [List.append_assoc]
      refine .cons ?_ (hypothesis (by simpa using later) rfl)
      simpa using skipped

/-- A run of spaces is a gap. -/
theorem spaces
    {before gap after : List Char}
    (allSpace : ∀ character ∈ gap, isSpace character = true) :
    Gap before gap after := by
  induction gap generalizing before with
  | nil => exact .nil
  | cons character rest hypothesis =>
      rw [List.forall_mem_cons] at allSpace
      exact .cons (.space allSpace.1) (hypothesis allSpace.2)

end Gap

/-! ## Pieces that are skipped -/

theorem take_takeWhile
    (test : Char → Bool)
    (text : List Char) :
    text.take (text.takeWhile test).length = text.takeWhile test :=
  (List.prefix_iff_eq_take.mp (List.takeWhile_prefix test)).symm

/--
What is left behind a run that satisfies a test is what is left
when the run is dropped.
-/
theorem drop_takeWhile
    (test : Char → Bool)
    (text : List Char) :
    text.drop (text.takeWhile test).length = text.dropWhile test := by
  have whole : text.takeWhile test ++ text.dropWhile test = text :=
    List.takeWhile_append_dropWhile
  have dropped :
      (text.takeWhile test ++ text.dropWhile test).drop
        (text.takeWhile test).length =
          text.dropWhile test :=
    List.drop_left
  rwa [whole] at dropped

theorem atLineEnd_drop_firstLine (text : List Char) :
    AtLineEnd (text.drop (firstLine text).length) := by
  intro character member
  rw [firstLine, drop_takeWhile, Option.mem_def] at member
  have stops := List.head?_dropWhile_not (· != '\n') text
  rw [member] at stops
  simpa using stops

theorem newline_not_mem_firstLine (text : List Char) :
    '\n' ∉ firstLine text := by
  intro member
  have differs := List.mem_takeWhile_imp member
  simp at differs

/--
The rest of a line from a character that is no line feed lies within the line.
-/
theorem newline_not_mem_line
    {first : Char}
    (differs : first ≠ '\n')
    (rest : List Char) :
    '\n' ∉ first :: firstLine rest := by
  rw [List.mem_cons, not_or]
  exact ⟨differs.symm, newline_not_mem_firstLine rest⟩

/-- A block comment ends with the first star and slash after its opening. -/
theorem commentLength?_spec
    {text : List Char}
    {length : Nat}
    (closed : commentLength? text = some length) :
    ∃ inner rest,
      text = inner ++ '*' :: '/' :: rest ∧
        length = inner.length + 2 ∧ ¬ ['*', '/'] <:+: inner ++ ['*'] := by
  fun_induction commentLength? text generalizing length with
  | case1 => cases closed
  | case2 rest =>
      cases closed
      refine ⟨[], rest, rfl, rfl, fun inside => ?_⟩
      have short := inside.length_le
      simp at short
  | case3 first rest notClosed hypothesis =>
      rcases Option.map_eq_some_iff.mp closed with ⟨shorter, closedLater, rfl⟩
      rcases hypothesis closedLater with ⟨inner, later, rfl, rfl, open_⟩
      refine ⟨first :: inner, later, rfl, by simp, fun inside => ?_⟩
      rw [List.cons_append, List.infix_cons_iff] at inside
      rcases inside with opens | inside
      · rcases List.cons_prefix_cons.mp opens with ⟨rfl, slash⟩
        cases inner with
        | nil =>
            have equal := List.cons_prefix_cons.mp slash
            exact absurd equal.1 (by decide)
        | cons second others =>
            rcases List.cons_prefix_cons.mp slash with ⟨rfl, -⟩
            exact notClosed _ rfl rfl
      · exact open_ inside

/-- The spaces that are skipped in one piece are a gap. -/
theorem gap_spacePiece
    {first : Char}
    (isSpaceFirst : isSpace first = true)
    (before rest : List Char) :
    Gap before
      ((first :: rest).take ((spacePiece rest).extra + 1))
      ((first :: rest).drop ((spacePiece rest).extra + 1)) := by
  simp only [spacePiece, List.take_succ_cons, take_takeWhile]
  apply Gap.spaces
  rw [List.forall_mem_cons]
  exact ⟨isSpaceFirst, fun character member => List.mem_takeWhile_imp member⟩

/--
A block comment that is skipped is a gap: it is closed, and its end is the
first one behind its opening.
-/
theorem gap_blockComment
    {rest : List Char}
    (star : rest.head? = some '*')
    (before : List Char)
    (skipped : (blockCommentPiece rest).content = .skipped) :
    Gap before
      (('/' :: rest).take ((blockCommentPiece rest).extra + 1))
      (('/' :: rest).drop ((blockCommentPiece rest).extra + 1)) := by
  obtain ⟨inside, rfl⟩ : ∃ inside, rest = '*' :: inside := by
    cases rest with
    | nil => cases star
    | cons first inside =>
        cases star
        exact ⟨inside, rfl⟩
  unfold blockCommentPiece at skipped ⊢
  rw [List.drop_one, List.tail_cons] at skipped ⊢
  split at skipped
  · next length closed =>
      rcases commentLength?_spec closed with ⟨inner, later, rfl, rfl, open_⟩
      have taken :
          ('/' :: '*' :: (inner ++ '*' :: '/' :: later)).take
            (1 + (inner.length + 2) + 1) =
              '/' :: '*' :: (inner ++ ['*', '/']) := by
        rw [show 1 + (inner.length + 2) + 1 = inner.length + 2 + 1 + 1 by omega]
        simp [List.take_append, List.take_of_length_le]
      simp only [taken]
      exact .single (.blockComment open_)
  · cases skipped

end Clipper.Lexeme
