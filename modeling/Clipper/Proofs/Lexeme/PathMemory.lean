import Clipper.Proofs.Lexeme.PieceBounds
import Clipper.Proofs.Source.Occurrence
import Clipper.Lexeme.Stream

/-!
# The memory of walks from a bracket

The remembering line reader keeps where its last walk from a `[` stopped.  The
walk is still right for a later place that it has passed: from there it would
stop at the same offset.  Every scanner that steps lead to from the beginning of
a text has such a memory; therefore the end of a path literal is always the
offset of a `]` of the text.

That the remembered offset is the one of a `]` is more than that the answer is
right; it is needed because the scanner takes as many bytes as the answer
says, and has to stop between two characters.  The proof needs no assumption
about the order of questions: reached scanners only move forward, and so the
memory is passed on from step to step.
-/

namespace Clipper.Lexeme

open Clipper.Source

namespace Lookahead

/--
The walk from a bracket is right for a text
that begins at an offset, if it went past.
-/
def Remembers
    (memory : Lookahead)
    (offset : Nat)
    (text : List Char) :
    Prop :=
  offset < memory.bracketStop →
    memory.bracketStop = offset + byteWidth (pathText text) ∧
      memory.bracketClose =
        if (text.drop (pathText text).length).head? = some ']' then
          some memory.bracketStop
        else none

theorem Remembers.initial
    (offset : Nat)
    (text : List Char) :
    Lookahead.initial.Remembers offset text := by
  intro passed
  cases passed

/-- Two memories agree on the walk from a bracket. -/
def SameWalk (memory other : Lookahead) : Prop :=
  other.bracketStop = memory.bracketStop ∧
  other.bracketClose = memory.bracketClose

theorem SameWalk.refl (memory : Lookahead) : memory.SameWalk memory :=
  ⟨rfl, rfl⟩

theorem SameWalk.trans
    {first second third : Lookahead}
    (earlier : first.SameWalk second)
    (later : second.SameWalk third) :
    first.SameWalk third :=
  ⟨later.1.trans earlier.1, later.2.trans earlier.2⟩

/--
What is remembered depends on the two fields of the last walk
from a bracket alone.
-/
theorem Remembers.congr
    {memory other : Lookahead}
    {offset : Nat}
    {text : List Char}
    (remembers : memory.Remembers offset text)
    (same : memory.SameWalk other) :
    other.Remembers offset text := by
  unfold Remembers
  rw [same.1, same.2]
  exact remembers

/-- A memory stays right when characters are passed. -/
theorem Remembers.skip
    {memory : Lookahead}
    {offset : Nat}
    {raw after : List Char}
    (remembers : memory.Remembers offset (raw ++ after)) :
    memory.Remembers (offset + byteWidth raw) after := by
  intro passed
  rcases remembers (Nat.lt_of_le_of_lt (Nat.le_add_right _ _) passed)
    with ⟨stop, close⟩
  have path : pathText (raw ++ after) = raw ++ pathText after :=
    takeWhile_append_of_lt (by rw [← pathText]; omega)
  rw [path, byteWidth_append] at stop
  rw [path, List.length_append, ← List.drop_drop, List.drop_left] at close
  exact ⟨by omega, close⟩

/-- After a walk from a bracket, the memory is right at the bracket. -/
theorem Remembers.seekBracket
    {memory : Lookahead}
    {offset : Nat}
    {rest : List Char}
    (remembers : memory.Remembers offset ('[' :: rest)) :
    (memory.seekBracket offset rest).Remembers offset ('[' :: rest) := by
  have path : pathText ('[' :: rest) = '[' :: pathText rest := by
    simp [pathText]
  unfold Lookahead.seekBracket
  by_cases old : memory.bracketStop ≤ offset
  · rw [if_pos old]
    intro _
    rw [path]
    refine ⟨?_, rfl⟩
    have narrow : Char.utf8Size '[' = 1 := by decide
    simp only [byteWidth_cons, narrow]
    omega
  · rw [if_neg old]
    exact remembers

/-- A walk from a bracket goes past it. -/
theorem lt_bracketStop_seekBracket
    (memory : Lookahead)
    (offset : Nat)
    (rest : List Char) :
    offset < (memory.seekBracket offset rest).bracketStop := by
  unfold seekBracket
  by_cases old : memory.bracketStop ≤ offset
  · rw [if_pos old]
    dsimp only
    omega
  · rw [if_neg old]
    omega

/-- A path literal ends at the offset of a `]` of the text. -/
theorem Remembers.closesAt
    {memory : Lookahead}
    {offset : Nat}
    {rest : List Char}
    (remembers : memory.Remembers offset ('[' :: rest))
    {close : Nat}
    (answer : (memory.pathEnd? offset ('[' :: rest)).1 = some close) :
    ClosesAt offset rest close := by
  have path : pathText ('[' :: rest) = '[' :: pathText rest := by
    simp [pathText]
  obtain ⟨stop, remembered⟩ :=
    remembers.seekBracket (lt_bracketStop_seekBracket memory offset rest)
  simp only [pathEnd?] at answer
  split at answer
  · next found known =>
      split at answer
      · cases answer
        rw [known, path, List.length_cons, List.drop_succ_cons] at remembered
        split at remembered
        · next closes =>
            obtain ⟨later, shape⟩ : ∃ later,
                rest.drop (pathText rest).length = ']' :: later := by
              cases drop : rest.drop (pathText rest).length with
              | nil =>
                  rw [drop] at closes
                  cases closes
              | cons head later =>
                  rw [drop] at closes
                  cases closes
                  exact ⟨later, rfl⟩
            refine ⟨pathText rest, later, ?_, ?_⟩
            · rw [← shape]
              exact (List.prefix_iff_eq_append.mp
                (List.takeWhile_prefix _)).symm
            · have narrow : Char.utf8Size '[' = 1 := by decide
              rw [path, byteWidth_cons, narrow] at stop
              cases remembered
              omega
        · cases remembered
      · cases answer
  · cases answer

end Lookahead

/-! ## Pieces keep the memory right -/

/-- A question about an escaped quote does not touch the walk from a bracket. -/
theorem sameWalk_escapesQuote
    (memory : Lookahead)
    (offset : Nat)
    (text : List Char) :
    memory.SameWalk (memory.escapesQuote offset text).2 := by
  unfold Lookahead.escapesQuote
  split
  · dsimp only [Lookahead.seekQuote]
    split
    · exact .refl memory
    · exact .refl memory
  · exact .refl memory

/-- A quoted string leaves the walk from a bracket as it is. -/
theorem sameWalk_readQuoted
    (quote : Char)
    (memory : Lookahead)
    (offset : Nat)
    (text : List Char) :
    memory.SameWalk
      (readQuoted .remembering quote memory offset text).memory := by
  fun_induction readQuoted .remembering quote memory offset text with
  | case1 | case2 | case3 | case9 | case11 => exact .refl _
  | case5 memory offset rest _ following answer hypothesis =>
      have asked := sameWalk_escapesQuote memory offset ('\\' :: '"' :: rest)
      cases congrArg Prod.snd answer
      exact asked.trans hypothesis
  | case6 memory offset rest _ escapes following answer _ hypothesis =>
      have asked := sameWalk_escapesQuote memory offset ('\\' :: '"' :: rest)
      cases congrArg Prod.snd answer
      exact asked.trans hypothesis
  | case4 | case7 | case8 | case10 | case12 =>
      next hypothesis => exact hypothesis

/--
Cutting a piece keeps the memory right for the text behind the piece.  The
sorts of pieces that ask a question are quoted strings and brackets; all
others leave the memory as it is.
-/
theorem remembers_cutPiece
    {memory : Lookahead}
    (before : List Char)
    {offset : Nat}
    {first : Char}
    {rest : List Char}
    (remembers : memory.Remembers offset (first :: rest)) :
    (cutPiece .remembering memory before offset first rest).2.Remembers offset
      (first :: rest) := by
  have begins := Opening.begins before first rest
  unfold cutPiece
  cases opening : Opening.of before first rest with
  | quote =>
      exact remembers.congr (sameWalk_readQuoted first memory (offset + 1) rest)
  | bracket =>
      rw [opening] at begins
      obtain rfl : first = '[' := begins
      have walked := remembers.seekBracket
      dsimp only [bracketPiece]
      split
      · next close following answer =>
          cases congrArg Prod.snd answer
          exact walked
      · next following answer =>
          cases congrArg Prod.snd answer
          exact walked
  | _ => exact remembers

end Clipper.Lexeme
