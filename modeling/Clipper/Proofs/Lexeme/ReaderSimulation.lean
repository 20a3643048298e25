import Clipper.Proofs.Lexeme.Partition

/-!
# Line readers that answer alike

One line reader simulates another when their memories stay related: related
memories give the same answers, and they stay related at every later place.
Then the scanners with the two readers cut the same pieces all along the text.
With the relation, whatever it says about a memory holds wherever a scanner
comes to.

The relation may say more than that memories agree: that the first one is
right, or that it holds a log.  Each piece has a lemma that passes the
relation through it, and only strings and brackets ask the reader anything.
The step lemma puts these together, and two inductions follow from it: one on
the lexemes of a scanner, and one on the steps that lead to it.
-/

namespace Clipper.Lexeme

open Clipper.Source

variable {σ τ : Type}

/--
From memories that are related at a place, the two readers give the same answers
and stay related.  A place is an offset and the text that begins there.
-/
structure LineReader.Simulates
    (first : LineReader σ)
    (second : LineReader τ)
    (related : Nat → List Char → σ → τ → Prop) :
    Prop where
  pass :
    ∀ {offset : Nat} (raw : List Char) {after : List Char} {memory :
      σ} {other : τ},
      related offset (raw ++ after) memory other →
        related (offset + byteWidth raw) after memory other
  escapesQuote :
    ∀ {offset : Nat} {rest : List Char} {memory : σ} {other : τ},
      related offset ('\\' :: '"' :: rest) memory other →
        (first.escapesQuote memory offset ('\\' :: '"' :: rest)).1 =
            (second.escapesQuote other offset ('\\' :: '"' :: rest)).1 ∧
          related offset ('\\' :: '"' :: rest)
            (first.escapesQuote memory offset ('\\' :: '"' :: rest)).2
            (second.escapesQuote other offset ('\\' :: '"' :: rest)).2
  pathEnd? :
    ∀ {offset : Nat} {rest : List Char} {memory : σ} {other : τ},
      related offset ('[' :: rest) memory other →
        (first.pathEnd? memory offset ('[' :: rest)).1 =
            (second.pathEnd? other offset ('[' :: rest)).1 ∧
          related offset ('[' :: rest)
            (first.pathEnd? memory offset ('[' :: rest)).2
            (second.pathEnd? other offset ('[' :: rest)).2

/-! ## Quoted strings -/

/--
A character that is neither a line break, a backslash nor a quote belongs to
the string and is taken by itself.
-/
theorem readQuoted_cons
    {reader : LineReader σ}
    {quote character : Char}
    {memory : σ}
    {offset : Nat}
    {rest : List Char}
    (lineFeed : character ≠ '\n')
    (carriageReturn : character ≠ '\r')
    (notSlash : character ≠ '\\')
    (notQuote : character ≠ quote) :
    readQuoted reader quote memory offset (character :: rest) =
      (readQuoted reader quote memory (offset + character.utf8Size) rest).push
        character 1 := by
  cases rest with
  | nil => rw [readQuoted.eq_7, if_neg notQuote] <;> simp_all
  | cons following after => rw [readQuoted.eq_8, if_neg notQuote] <;> simp_all

/--
Two readings of one string are alike, and
their memories are related where they end.
-/
structure Quoted.Alike
    (related : Nat → List Char → σ → τ → Prop)
    (offset : Nat)
    (text : List Char)
    (quoted : Quoted σ)
    (other : Quoted τ) :
    Prop where
  content : quoted.content = other.content
  taken : quoted.taken = other.taken
  closed : quoted.closed = other.closed
  related :
    related (offset + byteWidth (text.take quoted.taken))
      (text.drop quoted.taken) quoted.memory other.memory

namespace Quoted.Alike

variable {related : Nat → List Char → σ → τ → Prop} {offset width : Nat}

/-- A string of which nothing more is read. -/
theorem stop
    {text : List Char}
    {memory : σ}
    {other : τ}
    (holds : related offset text memory other) :
    Alike related offset text ⟨[], 0, false, memory⟩ ⟨[], 0, false, other⟩ :=
  ⟨rfl, rfl, rfl, holds⟩

/-- A string that its closing quote ends. -/
theorem close
    {quote : Char}
    {rest : List Char}
    {memory : σ}
    {other : τ}
    (holds : related (offset + byteWidth [quote]) rest memory other) :
    Alike related offset (quote :: rest) ⟨[], 1, true, memory⟩
      ⟨[], 1, true, other⟩ :=
  ⟨rfl, rfl, rfl, holds⟩

/--
What two readers agree on, they agree on with one more character in front.
-/
theorem push
    {rest : List Char}
    {quoted : Quoted σ}
    {other : Quoted τ}
    (raw : List Char)
    (wide : byteWidth raw = width)
    (character : Char)
    (alike : Alike related (offset + width) rest quoted other) :
    Alike related offset (raw ++ rest)
      (quoted.push character raw.length) (other.push character raw.length) where
  content := congrArg (character :: ·) alike.content
  taken := congrArg (· + raw.length) alike.taken
  closed := alike.closed
  related := by
    have later := alike.related
    rw [← wide, Nat.add_assoc, ← byteWidth_append] at later
    change related
      (offset + byteWidth ((raw ++ rest).take (quoted.taken + raw.length)))
      ((raw ++ rest).drop (quoted.taken + raw.length)) quoted.memory
        other.memory
    rw [Nat.add_comm quoted.taken, List.take_length_add_append,
      List.drop_length_add_append]
    exact later

end Quoted.Alike

namespace LineReader.Simulates

variable {first : LineReader σ} {second : LineReader τ}
variable {related : Nat → List Char → σ → τ → Prop}
    (simulates : first.Simulates second related)

include simulates

/--
Inside a string, two readers with related memories take the same
characters.  The induction follows the recursion of the reader, with a case
for each of its branches.
-/
theorem readQuoted
    {quote : Char}
    (narrow : quote.utf8Size = 1)
    (memory : σ)
    {other : τ}
    (offset : Nat)
    (text : List Char)
    (holds : related offset text memory other) :
    Quoted.Alike related offset text
      (readQuoted first quote memory offset text)
      (readQuoted second quote other offset text) := by
  have slash : byteWidth ['\\'] = 1 := by decide
  fun_induction Lexeme.readQuoted first quote memory offset text
    generalizing other with
  | case1 | case2 | case3 =>
      rw [Lexeme.readQuoted]
      exact .stop holds
  | case4 memory offset rest hypothesis =>
      have two : byteWidth ['\\', '\\'] = 2 := by decide
      have passed := simulates.pass ['\\', '\\'] holds
      rw [two] at passed
      rw [Lexeme.readQuoted]
      exact (hypothesis passed).push ['\\', '\\'] two '\\'
  | case5 memory offset rest isDouble following answer hypothesis =>
      have two : byteWidth ['\\', '"'] = 2 := by decide
      obtain ⟨same, later⟩ := simulates.escapesQuote holds
      rw [answer] at same later
      have passed := simulates.pass ['\\', '"'] later
      rw [two] at passed
      rw [Lexeme.readQuoted, if_pos isDouble]
      dsimp only
      rw [← same, if_pos rfl]
      exact (hypothesis passed).push ['\\', '"'] two '"'
  | case6 memory offset rest isDouble escapes following answer notEscaped
      hypothesis =>
      obtain ⟨same, later⟩ := simulates.escapesQuote holds
      rw [answer] at same later
      have passed := simulates.pass ['\\'] later
      rw [slash] at passed
      rw [Lexeme.readQuoted, if_pos isDouble]
      dsimp only
      rw [← same, if_neg notEscaped]
      exact (hypothesis passed).push ['\\'] slash '\\'
  | case7 memory offset rest notDouble hypothesis =>
      have passed := simulates.pass ['\\'] holds
      rw [slash] at passed
      rw [Lexeme.readQuoted, if_neg notDouble]
      exact (hypothesis passed).push ['\\'] slash '\\'
  | case8 memory offset rest notSlash notQuote hypothesis =>
      have passed := simulates.pass ['\\'] holds
      rw [slash] at passed
      rw [Lexeme.readQuoted]
      · exact (hypothesis passed).push ['\\'] slash '\\'
      · exact notSlash
      · exact notQuote
  | case9 =>
      rw [Lexeme.readQuoted]
      · rw [if_pos rfl]
        exact .close (simulates.pass [_] holds)
      all_goals assumption
  | case10 memory offset rest _ _ _ _ _ hypothesis =>
      have doubled : byteWidth [quote, quote] = 2 := by simp [narrow]
      have passed := simulates.pass [quote, quote] holds
      rw [doubled] at passed
      rw [Lexeme.readQuoted]
      · rw [if_pos rfl, if_pos rfl]
        exact (hypothesis passed).push [quote, quote] doubled quote
      all_goals assumption
  | case11 _ _ _ _ notDoubled =>
      rw [Lexeme.readQuoted]
      · rw [if_pos rfl, if_neg notDoubled]
        exact .close (simulates.pass [_] holds)
      all_goals assumption
  | case12 memory offset character rest lineFeed carriageReturn _ _ notSlash
      notQuote hypothesis =>
      have one : byteWidth [character] = character.utf8Size := by simp
      have passed := simulates.pass [character] holds
      rw [one] at passed
      rw [readQuoted_cons lineFeed carriageReturn notSlash notQuote]
      exact (hypothesis passed).push [character] one character

/-! ## Pieces and lexemes -/

/--
A string is the same piece with both readers, and the memories
behind it are related.
-/
theorem quotePiece
    {offset : Nat}
    {quote : Char}
    (narrow : quote.utf8Size = 1)
    {rest : List Char}
    {memory : σ}
    {other : τ}
    (holds : related offset (quote :: rest) memory other) :
    (quotePiece first memory offset quote rest).1 =
        (quotePiece second other offset quote rest).1 ∧
      related
        (offset + byteWidth ((quote :: rest).take
          ((Lexeme.quotePiece first memory offset quote rest).1.extra + 1)))
        ((quote :: rest).drop
          ((Lexeme.quotePiece first memory offset quote rest).1.extra + 1))
        (Lexeme.quotePiece first memory offset quote rest).2
        (Lexeme.quotePiece second other offset quote rest).2 := by
  have one : byteWidth [quote] = 1 := by simp [narrow]
  have passed := simulates.pass [quote] holds
  rw [one] at passed
  have alike := simulates.readQuoted narrow memory (offset + 1) rest passed
  dsimp only [Lexeme.quotePiece]
  refine ⟨by rw [alike.content, alike.closed, alike.taken], ?_⟩
  rw [List.take_succ_cons, List.drop_succ_cons, byteWidth_cons, narrow,
    ← Nat.add_assoc]
  exact alike.related

/--
A bracket is the same piece with both readers, as their answers are the same.
-/
theorem bracketPiece
    {offset : Nat}
    {rest : List Char}
    {memory : σ}
    {other : τ}
    (holds : related offset ('[' :: rest) memory other) :
    (bracketPiece first memory offset rest).1 =
      (bracketPiece second other offset rest).1 ∧
      related offset ('[' :: rest)
        (Lexeme.bracketPiece first memory offset rest).2
        (Lexeme.bracketPiece second other offset rest).2 := by
  obtain ⟨same, later⟩ := simulates.pathEnd? holds
  unfold Lexeme.bracketPiece
  rw [show first.pathEnd? memory offset ('[' :: rest) = (_, _) from rfl,
    show second.pathEnd? other offset ('[' :: rest) = (_, _) from rfl, ← same]
  cases (first.pathEnd? memory offset ('[' :: rest)).1 with
  | none => exact ⟨rfl, later⟩
  | some close => exact ⟨rfl, later⟩

/-- The two readers cut the same piece, and they are related where it ends. -/
theorem cutPiece
    (before : List Char)
    {offset : Nat}
    {character : Char}
    {rest : List Char}
    {memory : σ}
    {other : τ}
    (holds : related offset (character :: rest) memory other) :
    ∃ piece later otherLater,
      cutPiece first memory before offset character rest = (piece, later) ∧
        Lexeme.cutPiece second other before offset character rest =
          (piece, otherLater) ∧
        related (offset + byteWidth
          ((character :: rest).take (piece.extra + 1)))
          ((character :: rest).drop (piece.extra + 1)) later otherLater := by
  have begins := Opening.begins before character rest
  have cut {later : σ} {otherLater : τ}
      (kept : related offset (character :: rest) later otherLater)
      (piece : Piece) :
      related (offset + byteWidth ((character :: rest).take (piece.extra + 1)))
        ((character :: rest).drop (piece.extra + 1)) later otherLater := by
    apply simulates.pass
    rw [List.take_append_drop]
    exact kept
  unfold Lexeme.cutPiece
  cases opening : Opening.of before character rest with
  | quote =>
      rw [opening] at begins
      have narrow : character.utf8Size = 1 := by
        rcases begins with rfl | rfl
        · decide
        · decide
      obtain ⟨same, later⟩ := simulates.quotePiece narrow holds
      exact ⟨_, _, _, rfl, Prod.ext same.symm rfl, later⟩
  | bracket =>
      rw [opening] at begins
      obtain rfl : character = '[' := begins
      obtain ⟨same, later⟩ := simulates.bracketPiece holds
      exact ⟨_, _, _, rfl, Prod.ext same.symm rfl, cut later _⟩
  | _ => exact ⟨_, _, _, rfl, rfl, cut holds _⟩

end LineReader.Simulates

/-- Two scanners stand at one place, and their memories are related. -/
structure Scanner.Beside
    (related : Nat → List Char → σ → τ → Prop)
    (scanner : Scanner σ)
    (other : Scanner τ) :
    Prop where
  cut : scanner.cut = other.cut
  related : related scanner.cut.offset scanner.cut.after scanner.memory
    other.memory

namespace LineReader.Simulates

variable {first : LineReader σ} {second : LineReader τ}
variable {related : Nat → List Char → σ → τ → Prop}
    (simulates : first.Simulates second related)

include simulates

/--
A step with one reader is a step with the other one, which takes off the same
piece; the scanners behind it are beside each other again.
-/
theorem step?
    {scanner following : Scanner σ}
    {other : Scanner τ}
    {taken : Taken}
    (beside : scanner.Beside related other)
    (step : scanner.step? first = some (taken, following)) :
    ∃ otherFollowing, other.step? second = some (taken, otherFollowing) ∧
      following.Beside related otherFollowing := by
  obtain ⟨same, holds⟩ := beside
  unfold Scanner.step? at step ⊢
  rw [← same]
  cases shape : scanner.cut.after with
  | nil =>
      rw [shape] at step
      cases step
  | cons character rest =>
      rw [shape] at step holds
      obtain ⟨piece, later, otherLater, firstCut, secondCut, kept⟩ :=
        simulates.cutPiece scanner.cut.before holds
      dsimp only at step ⊢
      rw [firstCut] at step
      rw [secondCut]
      cases step
      refine ⟨_, rfl, rfl, ?_⟩
      rw [Cut.skip_spec, shape]
      exact kept

/-- Scanners that stand beside each other have the same lexemes left. -/
theorem lexemes
    {scanner : Scanner σ}
    {other : Scanner τ}
    (beside : scanner.Beside related other) :
    scanner.lexemes first = other.lexemes second := by
  fun_induction scanner.lexemes first generalizing other with
  | case1 scanner ended =>
      have otherEnded : other.step? second = none := by
        rw [Scanner.step?_eq_none_iff] at ended ⊢
        rw [← beside.cut, ended]
      rw [Scanner.lexemes_of_ended otherEnded, beside.cut]
  | case2 scanner taken following step lexeme made hypothesis
  | case3 scanner taken following step made hypothesis =>
      obtain ⟨otherFollowing, otherStep, later⟩ := simulates.step? beside step
      rw [Scanner.lexemes_of_step? otherStep, made, hypothesis later]
      rfl

/-- A scanner on its way has one beside it that is as far on its way. -/
theorem reached
    {text : List Char}
    (initial : related 0 text first.initial second.initial)
    {scanner : Scanner σ}
    (comes : scanner.Reached first text) :
    ∃ other, Scanner.Reached second text other ∧
      scanner.Beside related other := by
  induction comes with
  | start => exact ⟨_, .start, rfl, initial⟩
  | step _ last hypothesis =>
      obtain ⟨other, comes, beside⟩ := hypothesis
      obtain ⟨following, step, later⟩ := simulates.step? beside last
      exact ⟨following, .step comes step, later⟩

end LineReader.Simulates

end Clipper.Lexeme
