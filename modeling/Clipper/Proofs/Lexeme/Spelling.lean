import Clipper.Proofs.Lexeme.QuestionLog
import Clipper.Proofs.Syntax.Blind
import Clipper.Syntax.Listing

/-!
# Texts that spell tokens

Which tokens a text spells may depend on what stands before it and after it: a
name goes on for as long as parts of names follow, and a star at the beginning
of a line opens a comment.  A text `Spells` some tokens under two such
conditions. Two texts, one after the other, spell the tokens of both where the
second one satisfies the condition of the first.

The conditions are tests on the text before and behind, so they can be
evaluated, and a condition may be weakened where a stronger one is known.
Texts that spell nothing, such as blanks and line breaks, are put between
others without adding a token.  The last step turns a text that spells tokens
into the tokens of its scanner, up to places.
-/

namespace Clipper

open Relabelled (relabel)

/-- A token at no place in particular. -/
def Token.unplaced
    (kind : TokenKind)
    (lexeme : String) :
    Token :=
  ⟨kind, Span.empty 0, lexeme⟩

@[simp]
theorem Token.kind_unplaced
    (kind : TokenKind)
    (lexeme : String) :
    (Token.unplaced kind lexeme).kind = kind :=
  rfl

namespace Lexeme

open Clipper.Source

/-- The tokens that are cut from a place on, without their places. -/
def tokensFrom (cut : Cut) : List Token :=
  ((Scanner.mk cut ()).lexemes .plain).map
    (fun lexeme => relabel .blind lexeme.token)

theorem tokensFrom_of_ended
    {cut : Cut}
    (ended : cut.after = []) :
    tokensFrom cut = [.unplaced .endOfFile ""] := by
  have noStep : (Scanner.mk cut ()).step? .plain = none :=
    (Scanner.step?_eq_none_iff _).mpr ended
  rw [tokensFrom, Scanner.lexemes_of_ended noStep]
  rfl

/-- The tokens that the content of a piece makes, when it is no fault. -/
def Content.tokens : Content → List Token
  | .token kind lexeme => [.unplaced kind lexeme]
  | .skipped | .fault _ => []

/--
A text whose first piece is known spells the token of that piece, if it has
one, and then what the rest of the text spells.
-/
theorem tokensFrom_of_piece
    {cut : Cut}
    {first : Char}
    {rest : List Char}
    {extra : Nat}
    {content : Content}
    (ahead : cut.after = first :: rest)
    (piece : (cutPiece .plain () cut.before cut.offset first rest).1 =
      ⟨extra, content⟩)
    (sound : ∀ cause, content ≠ .fault cause) :
    tokensFrom cut = content.tokens ++ tokensFrom (cut.skip (extra + 1)) := by
  obtain ⟨taken, step, made⟩ :
      ∃ taken, (Scanner.mk cut ()).step? .plain =
        some (taken, ⟨cut.skip (extra + 1), ()⟩) ∧
        taken.content = content := by
    refine ⟨⟨(first :: rest).take (extra + 1),
      ⟨cut.offset, (cut.skip (extra + 1)).offset⟩, content⟩, ?_, rfl⟩
    unfold Scanner.step?
    dsimp only
    rw [ahead]
    dsimp only
    rw [piece]
  rw [tokensFrom, Scanner.lexemes_of_step? step, List.map_append,
    Taken.lexeme?, made]
  cases content with
  | skipped => rfl
  | token => rfl
  | fault cause => exact absurd rfl (sound cause)

/-! ## Spelled tokens -/

/--
Wherever the text before satisfies the first condition and the text after it the
second, the text is cut into these tokens.
-/
def SpellsAfter
    (preceded : List Char → Bool)
    (text : List Char)
    (tokens : List Token)
    (followed : List Char → Bool) :
    Prop :=
  ∀ ⦃cut : Cut⦄ ⦃rest : List Char⦄,
    cut.after = text ++ rest → preceded cut.before = true →
      followed rest = true →
      tokensFrom cut = tokens ++ tokensFrom (cut.skip text.length)

/-- No condition on the text around. -/
def anyText (_text : List Char) : Bool :=
  true

/-- What comes before does not matter. -/
abbrev Spells :=
  SpellsAfter anyText

section

variable {preceded other followed last : List Char → Bool}
variable {text next : List Char} {tokens others : List Token}

theorem spells_nothing : SpellsAfter preceded [] [] followed :=
  fun _ _ _ _ _ => rfl

theorem SpellsAfter.weaken
    (spells : SpellsAfter preceded text tokens followed)
    (before : ∀ text, other text = true → preceded text = true)
    (after : ∀ text, last text = true → followed text = true) :
    SpellsAfter other text tokens last :=
  fun _ _ shape isPreceded isFollowed =>
    spells shape (before _ isPreceded) (after _ isFollowed)

/--
One text after the other, where each satisfies the condition of its neighbour.
-/
theorem SpellsAfter.then
    (first : SpellsAfter preceded text tokens followed)
    (second : SpellsAfter other next others last)
    (precedes : ∀ before, preceded before = true →
      other (text.reverse ++ before) = true)
    (follows : ∀ rest, last rest = true → followed (next ++ rest) = true) :
    SpellsAfter preceded (text ++ next) (tokens ++ others) last := by
  intro cut rest shape isPreceded isFollowed
  rw [List.append_assoc] at shape
  have later : cut.skip text.length =
      ⟨text.reverse ++ cut.before, next ++ rest,
        cut.offset + byteWidth text⟩ := by
    rw [Cut.skip_spec, shape, List.take_left, List.drop_left]
  rw [first shape isPreceded (follows rest isFollowed), List.length_append,
    ← Cut.skip_skip, List.append_assoc,
    @second (cut.skip text.length) rest (by rw [later])
      (by rw [later]; exact precedes _ isPreceded) isFollowed]

/--
One text after the other, where it does
not matter what stands before the second.
-/
theorem SpellsAfter.append
    (first : SpellsAfter preceded text tokens followed)
    (second : Spells next others last)
    (follows : ∀ rest, last rest = true → followed (next ++ rest) = true) :
    SpellsAfter preceded (text ++ next) (tokens ++ others) last :=
  first.then second (fun _ _ => rfl) follows

end

/-- A text that spells some tokens has these tokens and the end of the text. -/
theorem tokens_all_of_spells
    {followed : List Char → Bool}
    {text : List Char}
    {tokens : List Token}
    (spells : Spells text tokens followed)
    (atEnd : followed [] = true) :
    (Lexeme.tokens (all text)).map (relabel .blind) =
      tokens ++ [.unplaced .endOfFile ""] := by
  have start : (Cut.ofText text).after = text ++ [] :=
    (List.append_nil text).symm
  have ended : ((Cut.ofText text).skip text.length).after = [] := by
    rw [Cut.skip_after, Cut.ofText, List.drop_length]
  have cut : (Lexeme.tokens (all text)).map (relabel .blind) =
      tokensFrom (Cut.ofText text) := by
    rw [all_eq_allWith_plain, Lexeme.tokens, List.map_map]
    rfl
  rw [cut, spells start rfl atEnd, tokensFrom_of_ended ended]

/-- A text that is one piece spells the tokens of the piece. -/
theorem spells_of_piece
    {preceded followed : List Char → Bool}
    {first : Char}
    {tail : List Char}
    {content : Content}
    (sound : ∀ cause, content ≠ .fault cause)
    (piece :
      ∀ before offset rest, preceded before = true → followed rest = true →
        (cutPiece .plain () before offset first (tail ++ rest)).1 =
          ⟨tail.length, content⟩) :
    SpellsAfter preceded (first :: tail) content.tokens followed :=
  fun _ rest shape isPreceded isFollowed =>
    tokensFrom_of_piece shape (piece _ _ rest isPreceded isFollowed) sound

/-- A text that is one token, whatever stands before it. -/
theorem spells_token
    {followed : List Char → Bool}
    {first : Char}
    {tail : List Char}
    {kind : TokenKind}
    {lexeme : String}
    (piece :
      ∀ before offset rest, followed rest = true →
        (cutPiece .plain () before offset first (tail ++ rest)).1 =
          ⟨tail.length, .token kind lexeme⟩) :
    Spells (first :: tail) [.unplaced kind lexeme] followed :=
  spells_of_piece (by simp)
    (fun before offset rest _ => piece before offset rest)

/-! ## Spaces -/

/--
A run of spaces spells nothing: the piece
that takes it takes all spaces that follow.
-/
theorem spells_spaces
    {gap : List Char}
    (allSpace : ∀ character ∈ gap, isSpace character = true) :
    Spells gap [] anyText := by
  intro cut rest shape _ _
  -- From either place, what is cut next stands after the last space.
  have afterSpaces (cut : Cut) :
      tokensFrom cut = tokensFrom
        (cut.skip (cut.after.takeWhile isSpace).length) := by
    cases ahead : cut.after with
    | nil => simp [Cut.skip]
    | cons first following =>
        cases isBlank : isSpace first with
        | false => simp [isBlank, Cut.skip]
        | true =>
            have opens : Opening.of cut.before first following = .space := by
              rw [Opening.of, if_pos isBlank]
            have piece :
                (cutPiece .plain () cut.before cut.offset first following).1 =
                ⟨(following.takeWhile isSpace).length, .skipped⟩ := by
              rw [cutPiece, opens]
              rfl
            rw [tokensFrom_of_piece ahead piece (by simp),
              List.takeWhile_cons, isBlank]
            rfl
  have within : (gap ++ rest).takeWhile isSpace =
      gap ++ rest.takeWhile isSpace :=
    List.takeWhile_append_of_pos allSpace
  have later : (cut.skip gap.length).after = rest := by
    rw [Cut.skip_after, shape, List.drop_left]
  rw [afterSpaces cut, afterSpaces (cut.skip gap.length), shape, within, later,
    Cut.skip_skip, List.length_append]
  rfl

theorem spells_space : Spells [' '] [] anyText :=
  spells_spaces (List.forall_mem_singleton.mpr rfl)

end Lexeme

end Clipper
