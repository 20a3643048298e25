import Clipper.Proofs.Lexeme.PathMemory

/-!
# Right answers from memory

A walk along a line stops at an offset and remembers the last mark that it has
passed.  For a later place that it has passed too, a walk from there would stop
at the same offset, and the marks behind that place are the same.  Therefore a
remembering line reader that is right at a place answers there as if it walked
anew, and it stays right there and at every later place.

The memory for quotes and the memory for brackets are kept apart, and each is
right or not by itself.  To be right means that a walk from the place in
question would find what is remembered.  Three things are shown of each: a
walk makes the memory right at the place where it begins, a right memory
answers as a walk would, and a memory that is right at a place is right behind
it.
-/

namespace Clipper.Lexeme

open Clipper.Source

/--
A walk that goes on while a test holds has stopped at an offset and found a last
mark.  It is right for a text that begins at an offset, if it went past.
-/
def Walked
    (test : Char → Bool)
    (mark : Char)
    (stop : Nat)
    (last? : Option Nat)
    (offset : Nat)
    (text : List Char) :
    Prop :=
  offset < stop →
    stop = offset + byteWidth (text.takeWhile test) ∧
      ∀ bound, offset ≤ bound →
        (last?.any (fun last => decide (bound < last)) = true ↔
          OccursBehind mark bound offset (text.takeWhile test))

/-- A walk stays right when characters are passed. -/
theorem Walked.pass
    {test : Char → Bool}
    {mark : Char}
    {stop : Nat}
    {last? : Option Nat}
    {offset : Nat}
    {raw after : List Char}
    (walked : Walked test mark stop last? offset (raw ++ after)) :
    Walked test mark stop last? (offset + byteWidth raw) after := by
  intro passed
  obtain ⟨stops, marks⟩ :=
    walked (Nat.lt_of_le_of_lt (Nat.le_add_right _ _) passed)
  have walk : (raw ++ after).takeWhile test = raw ++ after.takeWhile test :=
    takeWhile_append_of_lt (by omega)
  rw [walk] at stops marks
  refine ⟨by rw [stops, byteWidth_append, Nat.add_assoc], fun bound behind =>
    ?_⟩
  rw [marks bound (by omega), occursBehind_append behind]

namespace Lookahead

/-! ## Escaped quotes -/

/--
The walk to the end of the line is right for a text that begins at an offset.
-/
def RightQuote
    (memory : Lookahead)
    (offset : Nat)
    (text : List Char) :
    Prop :=
  Walked (· != '\n') '"' memory.quoteLineEnd memory.lastQuote offset text

theorem RightQuote.pass
    {memory : Lookahead}
    {offset : Nat}
    {raw text after : List Char}
    (right : memory.RightQuote offset text)
    (split : text = raw ++ after) :
    memory.RightQuote (offset + byteWidth raw) after :=
  Walked.pass (split ▸ right)

theorem RightQuote.initial
    (offset : Nat)
    (text : List Char) :
    Lookahead.initial.RightQuote offset text :=
  fun passed => absurd passed (Nat.not_lt_zero _)

/--
The memory of quotes is right where it was asked: either the old walk covers
this place, or a new walk begins there.
-/
theorem RightQuote.seekQuote
    {memory : Lookahead}
    {offset : Nat}
    {text : List Char}
    (right : memory.RightQuote offset text) :
    (memory.seekQuote offset text).RightQuote offset text := by
  unfold Lookahead.seekQuote
  split
  · exact fun _ => ⟨rfl, fun bound _ => any_lastOffset?_iff⟩
  · exact right

/--
After a question on a line that is not empty, the walk has ended behind the
place that was asked about.
-/
theorem lt_quoteLineEnd_seekQuote
    (memory : Lookahead)
    (offset : Nat)
    {text : List Char}
    (nonempty : firstLine text ≠ []) :
    offset < (memory.seekQuote offset text).quoteLineEnd := by
  have positive := byteWidth_pos nonempty
  unfold seekQuote
  dsimp only
  split
  · dsimp only
    omega
  · omega

/-- A memory that is right answers as if it had none, and it stays right. -/
theorem RightQuote.answer
    {memory : Lookahead}
    {offset : Nat}
    {text : List Char}
    (right : memory.RightQuote offset text) :
    (memory.escapesQuote offset text).1 = Lexeme.escapesQuote text ∧
      (memory.escapesQuote offset text).2.RightQuote offset text := by
  unfold escapesQuote Lexeme.escapesQuote
  split
  · next rest =>
      refine ⟨?_, right.seekQuote⟩
      have line : firstLine
          ('\\' :: '"' :: rest) = '\\' :: '"' :: firstLine rest := rfl
      have narrow : Char.utf8Size '\\' = 1 ∧ Char.utf8Size '"' = 1 := by decide
      have passed := memory.lt_quoteLineEnd_seekQuote offset
          (line ▸ List.cons_ne_nil _ _)
      have marks := (right.seekQuote passed).2 (offset + 1) (Nat.le_succ offset)
      rw [← firstLine, line, occursBehind_cons, occursBehind_cons,
        narrow.1, narrow.2, occursBehind_iff_mem (Nat.lt_succ_self _)] at marks
      rw [Bool.eq_iff_iff, marks, List.contains_iff_mem]
      simp
  · exact ⟨rfl, right⟩

/-! ## Path literals -/

/-- The test of the walk from a bracket. -/
def isPathPart (character : Char) : Bool :=
  character != '\n' && character != '\r' && character != ']'

/-- The walk from a bracket is right for a text that begins at an offset. -/
structure RightBracket
    (memory : Lookahead)
    (offset : Nat)
    (text : List Char) :
    Prop where
  closes : memory.Remembers offset text
  marks : Walked isPathPart '\\' memory.bracketStop
    memory.lastBackslash offset text

theorem RightBracket.initial
    (offset : Nat)
    (text : List Char) :
    Lookahead.initial.RightBracket offset text :=
  ⟨.initial offset text, fun passed => absurd passed (Nat.not_lt_zero _)⟩

theorem RightBracket.pass
    {memory : Lookahead}
    {offset : Nat}
    {raw text after : List Char}
    (right : memory.RightBracket offset text)
    (split : text = raw ++ after) :
    memory.RightBracket (offset + byteWidth raw) after := by
  subst split
  exact ⟨right.closes.skip, right.marks.pass⟩

/--
The memory of brackets is right where it was asked, whether or not a
new walk was needed.
-/
theorem RightBracket.seekBracket
    {memory : Lookahead}
    {offset : Nat}
    {rest : List Char}
    (right : memory.RightBracket offset ('[' :: rest)) :
    (memory.seekBracket offset rest).RightBracket offset ('[' :: rest) := by
  refine ⟨right.closes.seekBracket, ?_⟩
  unfold Lookahead.seekBracket
  split
  · intro _
    have path : ('[' :: rest).takeWhile isPathPart = '[' :: pathText rest := rfl
    have narrow : Char.utf8Size '[' = 1 := by decide
    rw [path]
    refine ⟨by rw [byteWidth_cons, narrow, ← Nat.add_assoc], fun bound behind =>
      ?_⟩
    rw [any_lastOffset?_iff, occursBehind_cons, narrow]
    simp
  · exact right.marks

/-- A memory that is right answers as if it had none, and it stays right. -/
theorem RightBracket.answer
    {memory : Lookahead}
    {offset : Nat}
    {text : List Char}
    (right : memory.RightBracket offset text) :
    (memory.pathEnd? offset text).1 = Lexeme.pathEnd? offset text ∧
      (memory.pathEnd? offset text).2.RightBracket offset text := by
  unfold pathEnd? Lexeme.pathEnd?
  split
  · next rest =>
      refine ⟨?_, right.seekBracket⟩
      have path : pathText ('[' :: rest) = '[' :: pathText rest := rfl
      have walk : ('[' :: rest).takeWhile isPathPart = '[' :: pathText rest :=
        rfl
      have narrow : Char.utf8Size '[' = 1 := by decide
      have passed := lt_bracketStop_seekBracket memory offset rest
      obtain ⟨stop, close⟩ := right.seekBracket.closes passed
      have marks := (right.seekBracket.marks passed).2 offset
          (Nat.le_refl offset)
      rw [path, byteWidth_cons, narrow, ← Nat.add_assoc] at stop
      rw [path, List.length_cons, List.drop_succ_cons, stop] at close
      rw [walk, occursBehind_cons, narrow,
        occursBehind_iff_mem (Nat.lt_succ_self _)] at marks
      have inside :
          (memory.seekBracket offset rest).lastBackslash.any
              (fun backslash => decide (offset < backslash)) = true ↔
            '\\' ∈ pathText rest := by
        rw [marks]
        simp
      dsimp only
      rw [close]
      by_cases closed : (rest.drop (pathText rest).length).head? = some ']'
      · simp only [closed, inside, true_and, if_true]
      · rw [if_neg closed, if_neg (fun both => closed both.1)]
  · exact ⟨rfl, right⟩

/-! ## Each question has a memory of its own -/

/-- A question about a quote leaves the memory of brackets as it is. -/
theorem RightBracket.escapesQuote
    {memory : Lookahead}
    {offset : Nat}
    {text : List Char}
    (right : memory.RightBracket offset text)
    (place : Nat)
    (asked : List Char) :
    (memory.escapesQuote place asked).2.RightBracket offset text := by
  refine ⟨right.closes.congr (sameWalk_escapesQuote memory place asked), ?_⟩
  unfold Lookahead.escapesQuote
  split
  · dsimp only [Lookahead.seekQuote]
    split
    · exact right.marks
    · exact right.marks
  · exact right.marks

/-- A question about a bracket leaves the memory of quotes as it is. -/
theorem RightQuote.pathEnd?
    {memory : Lookahead}
    {offset : Nat}
    {text : List Char}
    (right : memory.RightQuote offset text)
    (place : Nat)
    (asked : List Char) :
    (memory.pathEnd? place asked).2.RightQuote offset text := by
  unfold Lookahead.pathEnd?
  split
  · dsimp only [Lookahead.seekBracket]
    split
    · exact right
    · exact right
  · exact right

end Lookahead

end Clipper.Lexeme
