import Mathlib.Data.List.Chain
import Clipper.Proofs.Lexeme.PathMemory

/-!
# The tokens of a text partition it

The tokens of a text stand in order, each on text of its own, and between them
are gaps.  A step of the scanner takes off the text of one piece; a run of steps
cuts the whole text into gaps and tokens, up to the token at its end.  Calling
for the next lexeme again and again gives the same lexemes, and from then on the
end of the text.

The partition is stated with gaps as they are defined apart from the scanner,
so it says which characters of a text are in no token: spaces, closed comments
and semicolons that continue their line.  Each step keeps its scanner within
the bounds of the text, with a memory of the line that is right; both are
invariants of reached scanners, and the lemmas about single steps are
collected in them.
-/

namespace Clipper.Lexeme

open Clipper.Source

/-! ## Steps -/

/-- What one step of a scanner takes off. -/
structure Scanner.Takes
    {σ : Type}
    (scanner : Scanner σ)
    (taken : Taken)
    (following : Scanner σ) :
    Prop where
  nonempty : taken.raw ≠ []
  before : following.cut.before = taken.raw.reverse ++ scanner.cut.before
  after : scanner.cut.after = taken.raw ++ following.cut.after
  offset : following.cut.offset = scanner.cut.offset + byteWidth taken.raw
  span : taken.span = ⟨scanner.cut.offset, following.cut.offset⟩
  gap :
    taken.content = .skipped →
      Gap scanner.cut.before taken.raw following.cut.after
  kind :
    ∀ kind lexeme, taken.content = .token kind lexeme → IsSpelled kind

namespace Scanner

variable {σ : Type} {reader : LineReader σ}

/--
A step of the scanner takes off the characters of one piece, which are at
least one, and leaves the rest of the text.
-/
theorem takes_of_step?
    {scanner following : Scanner σ}
    {taken : Taken}
    (step : scanner.step? reader = some (taken, following)) :
    scanner.Takes taken following := by
  unfold step? at step
  split at step
  · cases step
  · next first rest shape =>
      cases step
      simp only [Cut.skip_spec, shape]
      exact
        { nonempty := by simp
          before := rfl
          after := by simp [shape]
          offset := rfl
          span := rfl
          gap := gap_cutPiece reader _ _ _ first rest
          kind := fun _ _ => kind_cutPiece reader }

/--
With a character ahead there is a step, and it cuts off the piece that begins
with this character.
-/
theorem step?_of_ahead
    {scanner : Scanner σ}
    {first : Char}
    {rest : List Char}
    (ahead : scanner.cut.after = first :: rest) :
    scanner.step? reader =
      let piece := cutPiece reader scanner.memory scanner.cut.before
          scanner.cut.offset first rest
      let following := scanner.cut.skip (piece.1.extra + 1)
      some
        (⟨(first :: rest).take (piece.1.extra + 1),
          ⟨scanner.cut.offset, following.offset⟩,
        piece.1.content⟩, ⟨following, piece.2⟩) := by
  unfold step?
  rw [ahead]

theorem step?_eq_none_iff (scanner : Scanner σ) :
    scanner.step? reader = none ↔ scanner.cut.after = [] := by
  unfold step?
  split
  · next shape => simp [shape]
  · next first rest shape => simp [shape]

end Scanner

/--
The token of a piece stands on the text of
the piece, and is not the end of the text.
-/
theorem Taken.token_of_lexeme?
    {σ : Type}
    {scanner following : Scanner σ}
    {taken : Taken}
    (takes : scanner.Takes taken following)
    {lexeme : Lexeme}
    (made : taken.lexeme? = some lexeme) :
    lexeme.token.kind ≠ .endOfFile ∧ lexeme.token.span = taken.span := by
  unfold Taken.lexeme? ofContent? at made
  split at made
  · cases made
  · next kind text content =>
      cases made
      exact ⟨(takes.kind kind text content).1, rfl⟩
  · cases made
    exact ⟨by simp, rfl⟩

theorem Taken.skipped_of_lexeme?
    {taken : Taken}
    (made : taken.lexeme? = none) :
    taken.content = .skipped := by
  unfold Taken.lexeme? ofContent? at made
  split at made
  · assumption
  · cases made
  · cases made

/-! ## Partitions -/

/--
Tokens partition the text after a place: a gap, the text of a token, and so on
up to a gap before the token at the end.  The text before the place is kept
nearest character first.
-/
inductive Partition : (before after : List Char) → List Token → Prop where
  | finish
      {before gap : List Char}
      (isGap : Gap before gap []) :
      Partition before gap [.endOfFile (byteWidth before + byteWidth gap)]
  | token
      {before gap raw after : List Char}
      {token : Token}
      {others : List Token}
      (isGap : Gap before gap (raw ++ after))
      (nonempty : raw ≠ [])
      (kind : token.kind ≠ .endOfFile)
      (start : token.span.start = byteWidth before + byteWidth gap)
      (stop : token.span.stop = token.span.start + byteWidth raw)
      (later : Partition (raw.reverse ++ (gap.reverse ++ before))
        after others) :
      Partition before (gap ++ (raw ++ after)) (token :: others)

namespace Partition

/-- A gap in front of a partition joins its first gap. -/
theorem skip
    {before raw after : List Char}
    {tokens : List Token}
    (isGap : Gap before raw after)
    (later : Partition (raw.reverse ++ before) after tokens) :
    Partition before (raw ++ after) tokens := by
  cases later with
  | finish laterGap =>
      have whole : Gap before (raw ++ after) [] :=
        Gap.append (by simpa using isGap) laterGap
      have finished := Partition.finish whole
      simpa [Nat.add_assoc, Nat.add_left_comm] using finished
  | @token _ gap text after token others laterGap nonempty kind start stop
      rest =>
      have whole := Gap.append isGap laterGap
      rw [← List.append_assoc]
      refine .token whole nonempty kind ?_ stop (by simpa using rest)
      rw [start]
      simp [Nat.add_assoc, Nat.add_left_comm]

end Partition

theorem Scanner.Takes.placed
    {σ : Type}
    {scanner following : Scanner σ}
    {taken : Taken}
    (takes : scanner.Takes taken following)
    (placed : scanner.cut.offset = byteWidth scanner.cut.before) :
    following.cut.offset = byteWidth following.cut.before := by
  rw [takes.offset, takes.before, placed]
  simp [Nat.add_comm]

/-- The lexemes that are left partition the text that is left. -/
theorem Scanner.partition_lexemes
    {σ : Type}
    (reader : LineReader σ)
    (scanner : Scanner σ)
    (placed : scanner.cut.offset = byteWidth scanner.cut.before) :
    Partition scanner.cut.before scanner.cut.after
      (tokens (scanner.lexemes reader)) := by
  fun_induction scanner.lexemes reader with
  | case1 scanner ended =>
      rw [step?_eq_none_iff] at ended
      rw [ended]
      have noGap : Gap scanner.cut.before [] [] := .nil
      simpa [tokens, endOfFile, placed] using Partition.finish noGap
  | case2 scanner taken following step lexeme made hypothesis =>
      have takes := takes_of_step? step
      rcases Taken.token_of_lexeme? takes made with ⟨kind, span⟩
      have later := hypothesis (takes.placed placed)
      rw [takes.before] at later
      rw [takes.after]
      rw [takes.span] at span
      have noGap : Gap scanner.cut.before []
          (taken.raw ++ following.cut.after) := .nil
      refine .token noGap takes.nonempty kind ?_ ?_ later
      · simp [span, placed]
      · simp [span, takes.offset]
  | case3 scanner taken following step made hypothesis =>
      have takes := takes_of_step? step
      have later := hypothesis (takes.placed placed)
      rw [takes.before] at later
      rw [takes.after]
      exact later.skip (takes.gap (Taken.skipped_of_lexeme? made))

/-- The part of a text from one offset to another is a gap. -/
def GapBetween
    (text : List Char)
    (first last : Nat) :
    Prop :=
  ∃ before gap after,
    text = before ++ (gap ++ after) ∧
      byteWidth before = first ∧
      byteWidth (before ++ gap) = last ∧
      Gap before.reverse gap after

theorem GapBetween.le
    {text : List Char}
    {first last : Nat}
    (between : GapBetween text first last) :
    first ≤ last := by
  rcases between with ⟨before, gap, after, rfl, rfl, rfl, -⟩
  rw [byteWidth_append]
  exact Nat.le_add_right _ _

/-- A token that stands on text of its own, between two boundaries. -/
structure StandsIn
    (text : List Char)
    (token : Token) :
    Prop where
  kind : token.kind ≠ .endOfFile
  nonempty : token.span.start < token.span.stop
  start : IsBoundary text token.span.start
  stop : IsBoundary text token.span.stop

/-- The second token stands after the first, and a gap lies between them. -/
def Follows
    (text : List Char)
    (first second : Token) :
    Prop :=
  first.span.stop ≤ second.span.start ∧
  GapBetween text first.span.stop second.span.start

namespace Partition

variable {before after : List Char} {tokens : List Token}

/--
Between the beginning of the text that is left and its first
token there is a gap.
-/
theorem gap_first
    (partition : Partition before after tokens) :
    ∀ first ∈ tokens.head?,
      GapBetween (before.reverse ++ after)
        (byteWidth before) first.span.start := by
  intro first member
  cases partition with
  | @finish _ gap isGap =>
      cases member
      refine ⟨before.reverse, after, [], by simp, by simp, ?_, ?_⟩
      · simp [Token.endOfFile, Span.empty]
      · simpa using isGap
  | @token _ gap raw later token others isGap nonempty kind start stop rest =>
      cases member
      refine ⟨before.reverse, gap, raw ++ later, rfl, by simp, ?_, ?_⟩
      · rw [start]
        simp
      · simpa using isGap

/--
The last token is the end of the text, and
all others stand on text of their own.
-/
theorem exists_earlier
    (partition : Partition before after tokens) :
    ∃ earlier,
      tokens = earlier ++ [.endOfFile (byteWidth before + byteWidth after)] ∧
        ∀ token ∈ earlier, StandsIn (before.reverse ++ after) token := by
  induction partition with
  | finish => exact ⟨[], rfl, fun _ member => by cases member⟩
  | @token before gap raw after token others isGap nonempty kind start stop rest
      hypothesis =>
      rcases hypothesis with ⟨earlier, rfl, stand⟩
      refine ⟨token :: earlier, ?_, ?_⟩
      · simp [Nat.add_assoc, Nat.add_left_comm]
      · rw [List.forall_mem_cons]
        refine ⟨⟨kind, ?_, ?_, ?_⟩, ?_⟩
        · have positive := byteWidth_pos nonempty
          omega
        · refine ⟨before.reverse ++ gap, raw ++ after, by simp, ?_⟩
          rw [start]
          simp
        · refine ⟨before.reverse ++ gap ++ raw, after, by simp, ?_⟩
          rw [stop, start]
          simp [Nat.add_assoc]
        · simpa using stand

/-- Each token follows the one before it. -/
theorem isChain_follows
    (partition : Partition before after tokens) :
    tokens.IsChain (Follows (before.reverse ++ after)) := by
  induction partition with
  | finish => exact .singleton _
  | @token before gap raw after token others isGap nonempty kind start stop rest
      hypothesis =>
      have firstGap := rest.gap_first
      have stops : byteWidth (raw.reverse ++ (gap.reverse ++ before)) =
          token.span.stop := by
        rw [stop, start]
        simp [Nat.add_assoc, Nat.add_comm]
      rw [stops] at firstGap
      rw [List.isChain_cons]
      constructor
      · intro next member
        have between := firstGap next member
        refine ⟨between.le, ?_⟩
        simpa using between
      · simpa using hypothesis

end Partition

/-! ## Scanners on their way -/

/-- The scanners to which steps lead from the beginning of a text. -/
inductive Scanner.Reached
    {σ : Type}
    (reader : LineReader σ)
    (text : List Char) :
    Scanner σ → Prop where
  | start : Reached reader text (Scanner.ofText reader text)
  | step
      {scanner following : Scanner σ}
      {taken : Taken}
      (earlier : Reached reader text scanner)
      (last : scanner.step? reader = some (taken, following)) :
      Reached reader text following

/--
A scanner stands between two characters of the text, and what it cuts there lies
within the text and ends between two characters.
-/
structure Scanner.InBounds
    (text : List Char)
    (scanner : Scanner Lookahead) :
    Prop where
  whole : text = scanner.cut.before.reverse ++ scanner.cut.after
  offset : scanner.cut.offset = byteWidth scanner.cut.before
  piece :
    ∀ first rest, scanner.cut.after = first :: rest →
      (cutPiece .remembering scanner.memory scanner.cut.before
        scanner.cut.offset
        first rest).1.extra ≤ rest.length
  path :
    ∀ rest close, scanner.cut.after = '[' :: rest →
      (scanner.memory.pathEnd? scanner.cut.offset ('[' :: rest)).1 =
        some close →
        ClosesAt scanner.cut.offset rest close

/--
A step keeps the memory of the scanner right for the text that is ahead of it.
-/
theorem Scanner.remembers_step?
    {scanner following : Scanner Lookahead}
    {taken : Taken}
    (step : scanner.step? .remembering = some (taken, following))
    (remembers : scanner.memory.Remembers scanner.cut.offset
      scanner.cut.after) :
    following.memory.Remembers following.cut.offset following.cut.after := by
  unfold step? at step
  split at step
  · cases step
  · next first rest shape =>
      rw [shape] at remembers
      have kept := remembers_cutPiece scanner.cut.before remembers
      cases step
      simp only [Cut.skip_spec, shape]
      apply Lookahead.Remembers.skip
      rw [List.take_append_drop]
      exact kept

/--
A scanner that steps lead to from the beginning of a text stands between two
characters of it, and the offsets of its memory are offsets of the text.
-/
theorem Scanner.Reached.inBounds
    {text : List Char}
    {scanner : Scanner Lookahead}
    (reached : Scanner.Reached .remembering text scanner) :
    scanner.InBounds text := by
  -- The invariant of the induction: the place in the text, and the memory of
  -- the last walk.
  obtain ⟨whole, placed, remembers⟩ :
      text = scanner.cut.before.reverse ++ scanner.cut.after ∧
        scanner.cut.offset = byteWidth scanner.cut.before ∧
        scanner.memory.Remembers scanner.cut.offset scanner.cut.after := by
    induction reached with
    | start => exact ⟨rfl, rfl, Lookahead.Remembers.initial _ _⟩
    | step _ last hypothesis =>
        rcases hypothesis with ⟨whole, placed, remembers⟩
        have takes := takes_of_step? last
        refine ⟨?_, takes.placed placed, remembers_step? last remembers⟩
        rw [whole, takes.before, takes.after]
        simp
  have closes :
      ∀ rest close, scanner.cut.after = '[' :: rest →
        (scanner.memory.pathEnd? scanner.cut.offset ('[' :: rest)).1 =
          some close →
          ClosesAt scanner.cut.offset rest close := by
    intro rest close shape answer
    rw [shape] at remembers
    exact remembers.closesAt answer
  refine ⟨whole, placed, ?_, closes⟩
  intro first rest shape
  refine extra_cutPiece_le .remembering _ _ _ _ _ fun close answer bracket => ?_
  subst bracket
  exact closes rest close shape answer

/-! ## Calls for the next lexeme -/

/-- At the end of the text there is one lexeme, the end of the text. -/
theorem Scanner.lexemes_of_ended
    {σ : Type}
    {reader : LineReader σ}
    {scanner : Scanner σ}
    (ended : scanner.step? reader = none) :
    scanner.lexemes reader = [endOfFile scanner.cut.offset] := by
  rw [lexemes]
  split
  · rfl
  · next step =>
      rw [ended] at step
      cases step

/--
Before a step, the lexemes are that of the step, if it has one, and then
those after the step.
-/
theorem Scanner.lexemes_of_step?
    {σ : Type}
    {reader : LineReader σ}
    {scanner following : Scanner σ}
    {taken : Taken}
    (step : scanner.step? reader = some (taken, following)) :
    scanner.lexemes reader = taken.lexeme?.toList ++
      following.lexemes reader := by
  rw [lexemes]
  split
  · next ended =>
      rw [step] at ended
      cases ended
  · next same =>
      rw [step] at same
      cases same
      cases taken.lexeme? <;> rfl

/-- Where the first piece of a text is a token, its lexeme is the first. -/
theorem allWith_of_piece
    {σ : Type}
    {reader : LineReader σ}
    {first : Char}
    {tail rest : List Char}
    {kind : TokenKind}
    {lexeme : String}
    {memory : σ}
    (piece :
      cutPiece reader reader.initial [] 0 first (tail ++ rest) =
        (⟨tail.length, .token kind lexeme⟩, memory)) :
    allWith reader (first :: (tail ++ rest)) =
      ⟨⟨kind, ⟨0, byteWidth (first :: tail)⟩, lexeme⟩, none⟩ ::
        Scanner.lexemes reader
          ⟨⟨(first :: tail).reverse, rest, byteWidth (first :: tail)⟩,
            memory⟩ := by
  have skipped : (Cut.ofText (first :: (tail ++ rest))).skip (tail.length + 1) =
      ⟨(first :: tail).reverse, rest, byteWidth (first :: tail)⟩ := by
    rw [Cut.skip_spec]
    simp [Cut.ofText]
  have step : (Scanner.ofText reader (first :: (tail ++ rest))).step? reader =
      some (⟨first :: tail, ⟨0, byteWidth (first :: tail)⟩, .token kind lexeme⟩,
        ⟨⟨(first :: tail).reverse, rest, byteWidth (first :: tail)⟩,
          memory⟩) := by
    unfold Scanner.step?
    simp only [Scanner.ofText, Cut.ofText] at skipped ⊢
    rw [piece]
    simp [skipped]
  rw [allWith, Scanner.lexemes_of_step? step]
  rfl

/-- The last of the lexemes that are left is the end of the text. -/
theorem Scanner.getLast?_lexemes
    {σ : Type}
    (reader : LineReader σ)
    (scanner : Scanner σ) :
    (scanner.lexemes reader).getLast? =
      some (endOfFile (scanner.cut.offset + byteWidth scanner.cut.after)) := by
  fun_induction scanner.lexemes reader with
  | case1 scanner ended =>
      rw [step?_eq_none_iff] at ended
      simp [ended]
  | case2 scanner taken following step lexeme made hypothesis =>
      have takes := takes_of_step? step
      rw [List.getLast?_cons, hypothesis, takes.offset, takes.after,
        byteWidth_append, Nat.add_assoc]
      rfl
  | case3 scanner taken following step made hypothesis =>
      have takes := takes_of_step? step
      rw [hypothesis, takes.offset, takes.after, byteWidth_append,
        Nat.add_assoc]

/-- The lexemes that so many calls for the next one give. -/
def Scanner.calls
    {σ : Type}
    (reader : LineReader σ) :
    Nat → Scanner σ → List Lexeme
  | 0, _ => []
  | count + 1, scanner =>
      (scanner.next reader).1 :: calls reader count (scanner.next reader).2

/--
A call gives the first of the lexemes that are left, and leaves the others; at
the end of the text it leaves the end.
-/
theorem Scanner.lexemes_next
    {σ : Type}
    (reader : LineReader σ)
    (scanner : Scanner σ) :
    scanner.lexemes reader = (scanner.next reader).1 ::
      (scanner.next reader).2.lexemes reader ∨
      scanner.lexemes reader = [(scanner.next reader).1] ∧
        (scanner.next reader).2.lexemes reader = [(scanner.next reader).1] := by
  fun_induction scanner.next reader with
  | case1 scanner ended =>
      right
      exact ⟨lexemes_of_ended ended, lexemes_of_ended ended⟩
  | case2 scanner taken following step lexeme made =>
      left
      rw [lexemes_of_step? step, made]
      rfl
  | case3 scanner taken following step made hypothesis =>
      rw [lexemes_of_step? step, made]
      exact hypothesis

/--
Calls give the lexemes that are left, and then the last of them again and again.
-/
theorem Scanner.calls_eq_take
    {σ : Type}
    (reader : LineReader σ)
    (count : Nat)
    (scanner : Scanner σ)
    {final : Lexeme}
    (isLast : (scanner.lexemes reader).getLast? = some final) :
    scanner.calls reader count =
      (scanner.lexemes reader ++ List.replicate count final).take count := by
  induction count generalizing scanner with
  | zero => simp [calls]
  | succ count hypothesis =>
      rw [calls]
      rcases scanner.lexemes_next reader with further | ⟨finished, stays⟩
      · rw [further] at isLast ⊢
        have nonempty : (scanner.next reader).2.lexemes reader ≠ [] := by
          intro empty
          have last := (scanner.next reader).2.getLast?_lexemes reader
          rw [empty] at last
          cases last
        rw [List.getLast?_cons_of_ne_nil nonempty] at isLast
        rw [hypothesis _ isLast, List.cons_append, List.take_succ_cons]
        simp only [List.take_append, List.take_replicate]
        congr 3
        omega
      · rw [finished] at isLast
        cases isLast
        rw [hypothesis _ (by rw [stays]; rfl), stays, finished]
        simp [← List.replicate_succ]

/-! ## The partition of a text -/

/--
The tokens of a text partition it.  The last token, and only the last, is the
end of the text; every other token stands on text of its own; what lies before
the first token and between two tokens is a gap.  On its way the scanner never
cuts outside the text or inside a character, and further calls give the end of
the text, without a fault, again and again.
-/
theorem tokens_all_partition (text : List Char) :
    (∃ earlier,
      tokens (all text) = earlier ++ [.endOfFile (byteWidth text)] ∧
        ∀ token ∈ earlier, StandsIn text token) ∧
      (∀ first ∈ (tokens (all text)).head?,
        GapBetween text 0 first.span.start) ∧
      (tokens (all text)).IsChain (Follows text) ∧
      (∀ scanner, Scanner.Reached .remembering text scanner →
        scanner.InBounds text) ∧
      ∀ count,
        (Scanner.ofText .remembering text).calls .remembering count =
          (all text ++ List.replicate count (endOfFile (byteWidth text))).take
            count := by
  have partition : Partition [] text (tokens (all text)) :=
    (Scanner.ofText .remembering text).partition_lexemes .remembering rfl
  have isLast := (Scanner.ofText .remembering text).getLast?_lexemes
      .remembering
  refine ⟨?_, ?_, ?_, ?_, ?_⟩
  · simpa using partition.exists_earlier
  · simpa using partition.gap_first
  · simpa using partition.isChain_follows
  · exact fun scanner reached => reached.inBounds
  · intro count
    refine Scanner.calls_eq_take .remembering count _ ?_
    simpa [Scanner.ofText, Cut.ofText] using isLast

end Clipper.Lexeme
