import Clipper.Proofs.Grammar.Hull
import Clipper.Proofs.Lexeme.Excerpt

/-!
# Excerpts from a token to a token

The text from the beginning of a token to the end of a later one is cut into the
same tokens alone.  Where the excerpt goes on to the beginning of the next
token, semicolons may come after these.

An excerpt is compared with the text by two scanners that go side by side.  In
the middle they see the same characters, and at the end the excerpt lacks what
comes later in the text; a rule that looks ahead could see the difference.  It
does so for a semicolon only, whose rest of the line is blank in the excerpt
where the text has more.
-/

namespace Clipper.Lexeme

open Clipper.Source
open Clipper.Grammar (hull)

/--
Every lexeme of a text has a place at which the lexemes from it on are left.
-/
theorem exists_place
    {text : List Char}
    {before rest : List Lexeme}
    (shape : all text = before ++ rest)
    (nonempty : rest ≠ []) :
    ∃ scanner raw, (Scanner.ofText .plain text).Leads raw scanner ∧
      scanner.lexemes .plain = rest ∧ scanner.AtLexeme := by
  have plain : (Scanner.ofText .plain text).lexemes .plain =
      before ++ rest := by
    rw [← shape]
    exact (all_eq_allWith_plain text).symm
  obtain ⟨middle, raw, leads, left⟩ :
      ∃ middle raw, (Scanner.ofText .plain text).Leads raw middle ∧
        middle.lexemes .plain = rest := by
    rcases Decidable.em (before = []) with rfl | more
    · exact ⟨_, [], Scanner.leads_refl _, plain⟩
    · obtain ⟨middle, spells, left⟩ := Scanner.exists_spells plain more nonempty
      obtain ⟨raw, leads⟩ := spells.exists_leads
      exact ⟨middle, raw, leads, left⟩
  obtain ⟨last, skips, same, ready⟩ := Scanner.exists_skips middle
  obtain ⟨further, leadsFurther⟩ := skips.exists_leads
  exact ⟨last, raw ++ further, leads.trans leadsFurther, same.trans left, ready⟩

/--
A token that is no star begins with a
character that is neither a star nor a blank.
-/
theorem visible_of_token
    {scanner last : Scanner Unit}
    {first : Char}
    {piece : List Char}
    {lexeme : Lexeme}
    {others : List Lexeme}
    (ready : scanner.AtLexeme)
    (left : scanner.lexemes .plain = lexeme :: others)
    (leads : scanner.Leads (first :: piece) last)
    (ordinary : lexeme.token.kind ∉ [.error, .star, .starEqual]) :
    first ≠ '*' ∧ isBlank first = false := by
  have ahead : scanner.cut.after = first :: (piece ++ last.cut.after) :=
    leads.after
  obtain ⟨⟨taken, next⟩, step⟩ : ∃ result, scanner.step? .plain = some result :=
    ⟨_, Scanner.step?_of_ahead ahead⟩
  obtain ⟨other, made⟩ := Option.ne_none_iff_exists'.mp (ready taken next step)
  obtain ⟨character, tail, -, shape, content⟩ := Scanner.piece_of_step? step
  obtain rfl : character = first := (List.cons.inj (shape.symm.trans ahead)).1
  rw [Scanner.lexemes_of_step? step, made] at left
  obtain rfl : other = lexeme := (List.cons.inj left).1
  rw [Taken.lexeme?] at made
  cases what : taken.content with
  | skipped =>
      rw [what] at made
      cases made
  | fault cause =>
      rw [what] at made
      cases made
      simp at ordinary
  | token kind text =>
      rw [what] at made content
      cases made
      constructor
      · rintro rfl
        rcases kind_of_star (congrArg Piece.content content) with rfl | rfl
        · simp at ordinary
        · simp at ordinary
      · rw [Bool.eq_false_iff]
        intro blank
        rw [cutPiece, Opening.of, if_pos (isSpace_of_isBlank blank)] at content
        cases congrArg Piece.content content

/-- The scanner of an excerpt begins inside the text. -/
theorem inside_ofText
    {scanner last : Scanner Unit}
    {piece : List Char}
    (leads : scanner.Leads piece last)
    (visible : ∀ first ∈ piece.head?, first ≠ '*' ∧ isBlank first = false) :
    Scanner.Inside last.cut.after scanner (Scanner.ofText .plain piece) := by
  refine ⟨leads.after, ⟨scanner.cut.before, rfl⟩,
    fun first isFirst hidden => ?_⟩
  obtain ⟨noStar, noBlank⟩ := visible first isFirst
  rcases hidden with star | blank
  · exact absurd star noStar
  · rw [noBlank] at blank
    cases blank

/--
Some lexemes of a text are spelled from the beginning of the first one on.
-/
structure SpelledFrom
    (text : List Char)
    (part after : List Lexeme)
    (start last : Scanner Unit)
    (piece : List Char) :
    Prop where
  earlier : ∃ raw, (Scanner.ofText .plain text).Leads raw start
  run : start.Spells part last
  leads : start.Leads piece last
  left : last.lexemes .plain = after
  hull : hull (tokens part) = ⟨start.cut.offset, last.cut.offset⟩
  visible : ∀ first ∈ piece.head?, first ≠ '*' ∧ isBlank first = false

/--
A run of lexemes, from the beginning of its first to the beginning of the
next one, is cut into the same lexemes when it stands alone, and at most
semicolons come after them.
-/
theorem exists_spelledFrom
    {text : List Char}
    {before part after : List Lexeme}
    (shape : all text = before ++ (part ++ after))
    (nonempty : part ≠ [])
    (nonemptyAfter : after ≠ [])
    (ordinary : ∀ lexeme ∈ part.head?,
      lexeme.token.kind ∉ [.error, .star, .starEqual]) :
    ∃ start last piece, SpelledFrom text part after start last piece := by
  obtain ⟨start, raw, earlier, left, ready⟩ :=
    exists_place shape (List.append_ne_nil_of_left_ne_nil nonempty after)
  obtain ⟨last, run, leftAfter⟩ :=
    Scanner.exists_spells left nonempty nonemptyAfter
  obtain ⟨piece, leads⟩ := run.exists_leads
  refine ⟨start, last, piece, ⟨raw, earlier⟩, run, leads, leftAfter, ?_, ?_⟩
  · obtain ⟨lexeme, rest, rfl⟩ := List.exists_cons_of_ne_nil nonempty
    have begins : lexeme.token.span.start = start.cut.offset := by
      apply ready.start
      rw [left]
      rfl
    have ends := run.stop _ (List.getLast?_eq_getLast_of_ne_nil nonempty)
    rw [hull, tokens, List.getLast?_map,
      List.getLast?_eq_getLast_of_ne_nil nonempty, ← begins, ← ends]
    rfl
  · intro first isFirst
    obtain ⟨others, rfl⟩ := List.head?_eq_some_iff.mp isFirst
    obtain ⟨lexeme, rest, rfl⟩ := List.exists_cons_of_ne_nil nonempty
    exact visible_of_token ready left leads (ordinary lexeme rfl)

namespace SpelledFrom

variable {text piece : List Char} {part after : List Lexeme}
    {start last : Scanner Unit}
variable (spelled : SpelledFrom text part after start last piece)
variable (sound : ∀ lexeme ∈ part, lexeme.token.kind ≠ .error)

include spelled sound

/-- Up to the end of the last lexeme, the text makes these lexemes alone. -/
theorem excerpt :
    ∃ others offset,
      slice? text (Grammar.hull (tokens part)) = some piece ∧
        List.Forall₂ Token.Alike (tokens others) (tokens part) ∧
          all piece = others ++ [endOfFile offset] := by
  obtain ⟨raw, earlier⟩ := spelled.earlier
  obtain ⟨others, partLast, alike, shape, inside⟩ :=
    spelled.run.curtailed (List.suffix_refl _)
      (inside_ofText spelled.leads spelled.visible) sound
  refine ⟨others, partLast.cut.offset, ?_, alike, ?_⟩
  · rw [spelled.hull]
    exact earlier.slice? spelled.leads
  · have ended : partLast.cut.after = [] :=
      List.self_eq_append_left.mp inside.after
    rw [Scanner.lexemes_of_ended
      ((Scanner.step?_eq_none_iff partLast).mpr ended)] at shape
    rw [← shape]
    exact all_eq_allWith_plain _

/--
Up to the next lexeme, the text makes these lexemes, and semicolons behind them.
-/
theorem openExcerpt :
    ∀ next ∈ after.head?, ∃ piece others semicolons offset,
      slice? text ⟨(Grammar.hull (tokens part)).start, next.token.span.start⟩ =
        some piece ∧
        List.Forall₂ Token.Alike (tokens others) (tokens part) ∧
          (∀ lexeme ∈ semicolons, lexeme.token.kind = .semicolon) ∧
            all piece = others ++ (semicolons ++ [endOfFile offset]) := by
  intro next isNext
  obtain ⟨raw, earlier⟩ := spelled.earlier
  obtain ⟨place, skips, left, ready⟩ := Scanner.exists_skips last
  obtain ⟨gap, leadsGap⟩ := skips.exists_leads
  have leads := spelled.leads.trans leadsGap
  have nextStart : next.token.span.start = place.cut.offset := by
    apply ready.start
    rw [left, spelled.left]
    exact isNext
  have nonempty : piece ≠ [] := by
    rintro rfl
    have shorter := spelled.run.shorter
    rw [spelled.leads.after] at shorter
    exact Nat.lt_irrefl _ shorter
  have visible : ∀ first ∈ (piece ++ gap).head?,
      first ≠ '*' ∧ isBlank first = false := by
    rw [List.head?_append_of_ne_nil _ nonempty]
    exact spelled.visible
  obtain ⟨others, partLast, alike, shape, inside⟩ :=
    spelled.run.curtailed ⟨gap, leadsGap.after.symm⟩
      (inside_ofText leads visible) sound
  obtain ⟨semicolons, offset, only, shapeGap⟩ := skips.curtailed inside
  refine ⟨piece ++ gap, others, semicolons, offset, ?_, alike, only, ?_⟩
  · rw [spelled.hull, nextStart]
    exact earlier.slice? leads
  · rw [← shapeGap, ← shape]
    exact all_eq_allWith_plain _

end SpelledFrom

end Clipper.Lexeme
