import Clipper.Proofs.BlindReadings
import Clipper.Proofs.Lexeme.ScannerRuns

/-!
# Excerpts of a text

An excerpt that begins with a token and ends behind one is cut into the same
tokens as in its text, unless a star begins it.  What the rules look at beyond
the excerpt makes no difference: a star has a token before it on its line or
not, in the text and in the excerpt alike; and a semicolon that continues its
line in the text does so in the excerpt, as the next token is on a later line.
Behind the last token, a semicolon may lose the line that it continues; then it
is a token of the excerpt.
-/

namespace Clipper.Lexeme

open Clipper.Source

/--
Whether only blanks stand before a place on its line is told by the text of
the excerpt, as soon as it holds a visible character.
-/
theorem atLineStart_append
    {before : List Char}
    (visible : ∃ character ∈ before, isBlank character = false)
    (outside : List Char) :
    atLineStart (before ++ outside) = atLineStart before := by
  obtain ⟨character, member, isVisible⟩ := visible
  have stops : before.dropWhile isBlank ≠ [] := by
    intro none
    rw [List.dropWhile_eq_nil_iff.mp none character member] at isVisible
    cases isVisible
  obtain ⟨first, rest, shape⟩ := List.exists_cons_of_ne_nil stops
  rw [atLineStart, dropWhile_append_of_ne_nil stops, atLineStart, shape]
  rfl

/-! ## Semicolons that lose the line that they continue -/

/--
There is nothing but spaces in the text, and
a comment may come after the first blanks.
-/
inductive Idle (dropped : List Char) : List Char → Prop where
  | spaces
      {text : List Char}
      (all : ∀ character ∈ text, isSpace character = true) :
      Idle dropped text
  | comment
      {blanks rest : List Char}
      (all : ∀ character ∈ blanks, isBlank character = true)
      (nonempty : rest ≠ [])
      (opens : opensLineComment (rest ++ dropped) = true)
      (later : ∀ character ∈ rest.dropWhile (· != '\n'),
        isSpace character = true) :
      Idle dropped (blanks ++ rest)

/-- Without a visible character, a line is blank up to the end of the text. -/
theorem isSpace_of_blankLine
    {text dropped : List Char}
    (visible : (firstLine (text ++ dropped)).any
      (fun character => !isBlank character) = true)
    (blank : (firstLine text).any
      (fun character => !isBlank character) = false) :
    ∀ character ∈ text, isSpace character = true := by
  have whole : firstLine text = text := by
    by_contra partly
    have same : firstLine (text ++ dropped) = firstLine text := by
      rw [firstLine, List.takeWhile_append, if_neg]
      · rfl
      · intro full
        exact partly ((List.takeWhile_prefix _).eq_of_length full)
    rw [same, blank] at visible
    cases visible
  intro character member
  rw [whole, List.any_eq_false] at blank
  have isBlank := blank character member
  simp only [Bool.not_eq_true, Bool.not_eq_false'] at isBlank
  rw [isSpace, isBlank]
  rfl

/--
A semicolon continues its line if behind blanks and a comment there is a line
feed, and the next line is not blank.
-/
theorem continuesLine_iff {text : List Char} :
    continuesLine (';' :: text) = true ↔
      ∃ next, afterBlanksAndComment text = '\n' :: next ∧
        (firstLine next).any (fun character => !isBlank character) = true := by
  rw [continuesLine]
  constructor
  · intro continues
    split at continues
    · next next ends => exact ⟨next, ends, continues⟩
    · cases continues
  · rintro ⟨next, ends, visible⟩
    rw [ends]
    exact visible

theorem isSpace_of_isBlank
    {character : Char}
    (blank : isBlank character = true) :
    isSpace character = true := by
  rw [isSpace, blank, Bool.true_or]

/--
What follows the line feed is blank where the
line is continued with the dropped text only.
-/
theorem isSpace_of_lineFeed
    {text later dropped next : List Char}
    (ends : continuesLine (';' :: text) = false)
    (after : afterBlanksAndComment text = '\n' :: later)
    (visible : (firstLine next).any
      (fun character => !isBlank character) = true)
    (same : next = later ++ dropped) :
    ∀ character ∈ '\n' :: later, isSpace character = true := by
  refine List.forall_mem_cons.mpr
    ⟨by decide, isSpace_of_blankLine (same ▸ visible) ?_⟩
  rw [Bool.eq_false_iff]
  intro stays
  rw [continuesLine_iff.mpr ⟨later, after, stays⟩] at ends
  cases ends

/-- A comment that a line feed ends within the text opens there. -/
theorem opensLineComment_of_lineFeed
    {text dropped : List Char}
    (opens : opensLineComment (text ++ dropped) = true)
    (feed : text.dropWhile (· != '\n') ≠ []) :
    opensLineComment text = true := by
  match text with
  | [] => exact absurd rfl feed
  | [first] =>
      have isFeed : first = '\n' := by
        by_contra differs
        simp [differs] at feed
      subst isFeed
      rw [List.singleton_append, opensLineComment_cons] at opens
      rcases opens with ⟨isFirst, -⟩ | ⟨isFirst, -⟩
      · cases isFirst
      · cases isFirst
  | first :: second :: rest =>
      rw [List.cons_append, opensLineComment_cons] at opens
      rw [opensLineComment_cons]
      exact opens

/--
Where a semicolon continues its line only thanks to the dropped text, nothing
but blanks, one comment and line feeds stands behind it in the excerpt.  So no
token comes after it there.
-/
theorem idle_of_continuesLine
    {text dropped : List Char}
    (continues : continuesLine (';' :: (text ++ dropped)) = true)
    (ends : continuesLine (';' :: text) = false) :
    Idle dropped text := by
  have split : text.takeWhile isBlank ++ text.dropWhile isBlank = text :=
    List.takeWhile_append_dropWhile
  have blanks : ∀ character ∈ text.takeWhile isBlank,
      isBlank character = true :=
    fun _ member => List.mem_takeWhile_imp member
  obtain ⟨next, after, visible⟩ := continuesLine_iff.mp continues
  have here : afterBlanksAndComment text =
      if opensLineComment (text.dropWhile isBlank) then
        (text.dropWhile isBlank).dropWhile (· != '\n')
      else text.dropWhile isBlank :=
    rfl
  rw [← split]
  generalize text.takeWhile isBlank = front at blanks split ⊢
  rcases Decidable.em (text.dropWhile isBlank = []) with none | some
  · rw [none, List.append_nil]
    exact .spaces fun character member =>
      isSpace_of_isBlank (blanks character member)
  · have there : afterBlanksAndComment (text ++ dropped) =
        if opensLineComment (text.dropWhile isBlank ++ dropped) then
          (text.dropWhile isBlank ++ dropped).dropWhile (· != '\n')
        else text.dropWhile isBlank ++ dropped := by
      rw [← dropWhile_append_of_ne_nil some]
      rfl
    generalize text.dropWhile isBlank = rest at some here there split ⊢
    by_cases opens : opensLineComment (rest ++ dropped) = true
    · refine .comment blanks some opens ?_
      cases line : rest.dropWhile (· != '\n') with
      | nil => exact List.forall_mem_nil _
      | cons first later =>
          have isFeed : first = '\n' := by
            have stops := List.head?_dropWhile_not (· != '\n') rest
            rw [line] at stops
            simpa using stops
          subst isFeed
          have someLine : rest.dropWhile (· != '\n') ≠ [] := by
            rw [line]
            exact List.cons_ne_nil _ _
          rw [if_pos opens, dropWhile_append_of_ne_nil someLine, line, after]
            at there
          rw [if_pos (opensLineComment_of_lineFeed opens someLine), line]
            at here
          exact isSpace_of_lineFeed ends here visible (List.cons.inj there).2
    · have noComment : ¬ opensLineComment rest = true :=
        fun comment => opens (opensLineComment_append comment)
      rw [if_neg opens, after] at there
      obtain ⟨first, later, rfl⟩ := List.exists_cons_of_ne_nil some
      obtain ⟨rfl, same⟩ := List.cons.inj there
      rw [if_neg noComment] at here
      refine .spaces (List.forall_mem_append.mpr
        ⟨?_, isSpace_of_lineFeed ends here visible same⟩)
      exact fun character member => isSpace_of_isBlank (blanks character member)

/-! ## Runs behind such a semicolon -/

namespace Scanner

variable {first last : Scanner Unit} {lexemes : List Lexeme}
    {text dropped : List Char}

/--
A skipped piece that is a run of characters leaves what is behind the run.
-/
theorem exists_step_of_run
    {test : Char → Bool}
    {character : Char}
    {rest : List Char}
    (ahead : first.cut.after = character :: rest)
    (passes : test character = true)
    (piece :
      (cutPiece .plain first.memory first.cut.before first.cut.offset
        character rest).1 =
        ⟨(rest.takeWhile test).length, .skipped⟩) :
    ∃ taken next, first.step? .plain = some (taken, next) ∧
      taken.content = .skipped ∧
      next.cut.after = first.cut.after.dropWhile test := by
  refine ⟨_, _, step?_of_ahead ahead, ?_, ?_⟩
  · rw [piece]
  · dsimp only
    rw [piece, Cut.skip_after, ahead, List.dropWhile_cons_of_pos passes,
      List.drop_succ_cons, drop_takeWhile]

/-- A space is skipped in one step with the spaces that follow it. -/
theorem exists_step_of_space
    {character : Char}
    {rest : List Char}
    (ahead : first.cut.after = character :: rest)
    (space : isSpace character = true) :
    ∃ taken next, first.step? .plain = some (taken, next) ∧
      taken.content = .skipped ∧
      next.cut.after = first.cut.after.dropWhile isSpace := by
  refine exists_step_of_run ahead space ?_
  rw [cutPiece, Opening.of, if_pos space]
  rfl

/--
A comment up to the end of its line is skipped in one step, which
stops at the line feed.
-/
theorem exists_step_of_lineComment
    (opens : opensLineComment first.cut.after = true) :
    ∃ taken next, first.step? .plain = some (taken, next) ∧
      taken.content = .skipped ∧
      next.cut.after = first.cut.after.dropWhile (· != '\n') := by
  cases ahead : first.cut.after with
  | nil =>
      rw [ahead] at opens
      cases opens
  | cons character rest =>
      rw [ahead] at opens
      have visible : isSpace character = false ∧
          (character != '\n') = true := by
        rcases (opensLineComment_cons _ _).mp opens with ⟨rfl, -⟩ | ⟨rfl, -⟩
        · decide
        · decide
      rw [← ahead]
      refine exists_step_of_run ahead visible.2 ?_
      rw [cutPiece, Opening.of, visible.1, if_neg Bool.false_ne_true,
        if_pos opens]
      rfl

/-- A run that makes a lexeme goes beyond a place behind which it ends. -/
theorem Spells.not_suffix
    (spells : first.Spells lexemes last)
    (suffix : dropped <:+ last.cut.after) :
    ¬ first.cut.after <:+ dropped := by
  intro within
  exact Nat.not_le_of_lt spells.shorter (within.trans suffix).length_le

/-- The sign of a comment is visible, so no space is dropped before it. -/
theorem dropWhile_isSpace_of_comment
    (opens : opensLineComment text = true) :
    text.dropWhile isSpace = text := by
  cases text with
  | nil => rfl
  | cons character rest =>
      apply List.dropWhile_cons_of_neg
      rcases (opensLineComment_cons _ _).mp opens with ⟨rfl, -⟩ | ⟨rfl, -⟩
      · decide
      · decide

/-- Among spaces up to the end of an excerpt there is no token. -/
theorem not_spells_of_spaces
    (shape : first.cut.after = text ++ dropped)
    (suffix : dropped <:+ last.cut.after)
    (spaces : ∀ character ∈ text, isSpace character = true) :
    ¬ first.Spells lexemes last := by
  intro spells
  cases text with
  | nil => exact spells.not_suffix suffix (shape ▸ List.suffix_refl _)
  | cons character rest =>
      obtain ⟨taken, next, step, skipped, after⟩ :=
        exists_step_of_space shape (spaces character List.mem_cons_self)
      apply (spells.of_step? step skipped).not_suffix suffix
      rw [after, shape, List.dropWhile_append_of_pos spaces]
      exact List.dropWhile_suffix _

/-- In idle text up to the end of an excerpt there is no token. -/
theorem not_spells_of_idle
    (shape : first.cut.after = text ++ dropped)
    (suffix : dropped <:+ last.cut.after)
    (idle : Idle dropped text) :
    ¬ first.Spells lexemes last := by
  cases idle with
  | spaces all => exact not_spells_of_spaces shape suffix all
  | @comment blanks rest all nonempty opens later =>
      have behind
          {place : Scanner Unit}
          (shape : place.cut.after = rest ++ dropped) :
          ¬ place.Spells lexemes last := by
        intro spells
        rw [← shape] at opens
        obtain ⟨taken, next, step, skipped, after⟩ :=
          exists_step_of_lineComment opens
        have remains := spells.of_step? step skipped
        rw [shape, List.dropWhile_append] at after
        split at after
        · exact remains.not_suffix suffix (after ▸ List.dropWhile_suffix _)
        · exact not_spells_of_spaces after suffix later remains
      cases blanks with
      | nil => exact behind shape
      | cons character others =>
          intro spells
          obtain ⟨taken, next, step, skipped, after⟩ :=
            exists_step_of_space shape
              (isSpace_of_isBlank (all character List.mem_cons_self))
          refine behind ?_ (spells.of_step? step skipped)
          have spaces : ∀ blank ∈ character :: others, isSpace blank = true :=
            fun blank member => isSpace_of_isBlank (all blank member)
          rw [after, shape, List.append_assoc,
            List.dropWhile_append_of_pos spaces]
          exact dropWhile_isSpace_of_comment opens

/-! ## The scanner of an excerpt -/

/--
The second scanner is at the same place of an
excerpt, behind which some text is dropped.
-/
structure Inside
    (dropped : List Char)
    (whole part : Scanner Unit) :
    Prop where
  after : whole.cut.after = part.cut.after ++ dropped
  before : ∃ outside, whole.cut.before = part.cut.before ++ outside
  /-- Neither a star nor a blank begins the excerpt. -/
  visible :
    ∀ first ∈ part.cut.after.head?, first = '*' ∨ isBlank first = true →
      ∃ character ∈ part.cut.before, isBlank character = false

variable {whole part next partNext : Scanner Unit} {taken : Taken}

/--
Two scanners that stand at the same place of the text and of its excerpt still
do so when both have taken the same characters.
-/
theorem Inside.advance
    {raw : List Char}
    (inside : Inside dropped whole part)
    (leads : whole.Leads raw next)
    (leadsPart : part.Leads raw partNext)
    (nonempty : raw ≠ []) :
    Inside dropped next partNext := by
  obtain ⟨outside, before⟩ := inside.before
  obtain ⟨first, tail, rfl⟩ := List.exists_cons_of_ne_nil nonempty
  refine ⟨?_, ⟨outside, ?_⟩, fun _ _ _ => ?_⟩
  · have same := inside.after
    rw [leads.after, leadsPart.after, List.append_assoc] at same
    exact List.append_cancel_left same
  · rw [leads.before, before, leadsPart.before, List.append_assoc]
  · rw [leadsPart.before]
    cases blank : isBlank first with
    | false => exact ⟨first, by simp, blank⟩
    | true =>
        have ahead : part.cut.after.head? = some first := by
          rw [leadsPart.after]
          rfl
        obtain ⟨character, member, isVisible⟩ :=
          inside.visible first ahead (.inr blank)
        exact ⟨character, List.mem_append_right _ member, isVisible⟩

/--
One step in the text is one step in the excerpt, with the same characters and
the same content, as long as the piece ends within the excerpt.  The cases are
those in which a rule looks further: a star and a semicolon.
-/
theorem Inside.step?
    (inside : Inside dropped whole part)
    (step : whole.step? .plain = some (taken, next))
    (suffix : dropped <:+ next.cut.after)
    (sound : ∀ cause, taken.content ≠ .fault cause)
    (sameLine :
      ∀ text, part.cut.after = ';' :: text →
        continuesLine (';' :: text) =
          continuesLine (';' :: (text ++ dropped))) :
    ∃ other partNext, part.step? .plain = some (other, partNext) ∧
      other.raw = taken.raw ∧
      other.content = taken.content ∧ Inside dropped next partNext := by
  obtain ⟨first, tail, raw, shape, piece⟩ := piece_of_step? step
  obtain ⟨rest, behind⟩ := suffix
  have ahead : part.cut.after = first :: (tail ++ rest) := by
    have same := inside.after
    rw [shape, ← behind, ← List.append_assoc] at same
    exact (List.append_cancel_right same).symm
  obtain ⟨outside, before⟩ := inside.before
  rw [← behind, ← List.append_assoc] at piece
  have sameStart (star : first = '*') :
      atLineStart whole.cut.before = atLineStart part.cut.before := by
    rw [before]
    exact atLineStart_append
      (inside.visible first (by rw [ahead]; rfl) (.inl star)) outside
  have same :
      (cutPiece .plain () part.cut.before part.cut.offset first
        (tail ++ rest)).1 =
        ⟨tail.length, taken.content⟩ := by
    rw [← piece]
    refine cutPiece_curtailed sameStart ?_ ?_ ?_
    · rintro rfl
      exact sameLine _ ahead
    · rw [piece, List.length_append]
      exact Nat.le_add_right _ _
    · rw [piece]
      exact sound
  have stepPart : part.step? .plain = _ := step?_of_ahead ahead
  have sameRaw :
      (first :: (tail ++ rest)).take
          ((cutPiece .plain () part.cut.before part.cut.offset first
            (tail ++ rest)).1.extra + 1) =
        taken.raw := by
    rw [same, raw, List.take_succ_cons, List.take_left]
  refine ⟨_, _, stepPart, sameRaw, congrArg Piece.content same, ?_⟩
  have leadsPart := leads_of_step? stepPart
  dsimp only at leadsPart
  exact inside.advance (leads_of_step? step) (sameRaw ▸ leadsPart)
    (raw ▸ List.cons_ne_nil _ _)

/-! ## Semicolons in an excerpt -/

/--
What the step at a semicolon takes off: the semicolon alone, which is skipped
if it continues its line and is a token otherwise.
-/
theorem step_of_semicolon
    {rest : List Char}
    (ahead : first.cut.after = ';' :: rest)
    (step : first.step? .plain = some (taken, next)) :
    taken.raw = [';'] ∧ taken.content = (semicolonPiece rest).content ∧
    next.cut.after = rest := by
  have opening : Opening.of first.cut.before ';' rest = .semicolon := by
    simp [Opening.of, isSpace, isBlank, opensLineComment, opensStarComment]
  have piece :
      (cutPiece .plain first.memory first.cut.before first.cut.offset
        ';' rest).1 =
        semicolonPiece rest := by
    rw [cutPiece, opening]
  have single : (semicolonPiece rest).extra = 0 := by
    rw [semicolonPiece]
    split <;> rfl
  rw [step?_of_ahead ahead] at step
  cases step
  refine ⟨?_, congrArg Piece.content piece, ?_⟩
  · dsimp only
    rw [piece, single]
    rfl
  · dsimp only
    rw [piece, single, Cut.skip_after, ahead]
    rfl

theorem continuesLine_curtailed
    (stays :
      continuesLine (';' :: (text ++ dropped)) = true →
      continuesLine (';' :: text) = true) :
    continuesLine (';' :: text) = continuesLine (';' :: (text ++ dropped)) :=
  Bool.eq_iff_iff.mpr ⟨continuesLine_append, stays⟩

/-- Where a lexeme is made, no semicolon continues its line. -/
theorem Inside.sameLine_of_token
    {lexeme : Lexeme}
    (inside : Inside dropped whole part)
    (step : whole.step? .plain = some (taken, next))
    (made : taken.lexeme? = some lexeme) :
    ∀ text, part.cut.after = ';' :: text →
      continuesLine (';' :: text) =
        continuesLine (';' :: (text ++ dropped)) := by
  intro text ahead
  refine continuesLine_curtailed fun continues => ?_
  have shape : whole.cut.after = ';' :: (text ++ dropped) := by
    rw [inside.after, ahead, List.cons_append]
  have content := (step_of_semicolon shape step).2.1
  rw [semicolonPiece, if_pos continues] at content
  rw [Taken.lexeme?, content] at made
  cases made

/--
Before a further lexeme, a semicolon continues its line in the excerpt too.
-/
theorem Inside.sameLine_of_spells
    (inside : Inside dropped whole part)
    (step : whole.step? .plain = some (taken, next))
    (later : next.Spells lexemes last)
    (suffix : dropped <:+ last.cut.after) :
    ∀ text, part.cut.after = ';' :: text →
      continuesLine (';' :: text) =
        continuesLine (';' :: (text ++ dropped)) := by
  intro text ahead
  refine continuesLine_curtailed fun continues => ?_
  by_contra ends
  have shape : whole.cut.after = ';' :: (text ++ dropped) := by
    rw [inside.after, ahead, List.cons_append]
  have idle := idle_of_continuesLine continues (eq_false_of_ne_true ends)
  exact not_spells_of_idle (step_of_semicolon shape step).2.2 suffix idle later

/-- A semicolon that loses its line is a token of the excerpt. -/
theorem Inside.semicolon
    {text : List Char}
    (inside : Inside dropped whole part)
    (step : whole.step? .plain = some (taken, next))
    (ahead : part.cut.after = ';' :: text)
    (ends : continuesLine (';' :: text) = false) :
    ∃ other partNext lexeme, part.step? .plain = some (other, partNext) ∧
      other.lexeme? = some lexeme ∧ lexeme.token.kind = .semicolon ∧
        Inside dropped next partNext := by
  have shape : whole.cut.after = ';' :: (text ++ dropped) := by
    rw [inside.after, ahead, List.cons_append]
  obtain ⟨⟨other, partNext⟩, stepPart⟩ :
      ∃ result, part.step? .plain = some result :=
    ⟨_, step?_of_ahead ahead⟩
  obtain ⟨raw, content, -⟩ := step_of_semicolon ahead stepPart
  have leadsPart := leads_of_step? stepPart
  have leads := leads_of_step? step
  rw [raw] at leadsPart
  rw [(step_of_semicolon shape step).1] at leads
  rw [semicolonPiece, ends, if_neg Bool.false_ne_true] at content
  refine ⟨other, partNext, ⟨⟨.semicolon, other.span, ";"⟩, none⟩,
    stepPart, ?_, rfl, inside.advance leads leadsPart (List.cons_ne_nil _ _)⟩
  rw [Taken.lexeme?, content]
  rfl

/-! ## The lexemes of an excerpt -/

/--
Pieces with the same characters and the same content make lexemes that differ
in their places only.
-/
theorem exists_alike_lexeme
    {other : Taken}
    {lexeme : Lexeme}
    (raw : other.raw = taken.raw)
    (content : other.content = taken.content)
    (made : taken.lexeme? = some lexeme) :
    ∃ made, other.lexeme? = some made ∧ made.token.Alike lexeme.token := by
  rw [Taken.lexeme?, ofContent?.eq_def] at made ⊢
  rw [raw, content]
  split at made
  · cases made
  · cases made
    exact ⟨_, rfl, rfl, rfl⟩
  · cases made
    exact ⟨_, rfl, rfl, rfl⟩

theorem sound_of_lexeme
    {lexeme : Lexeme}
    (made : taken.lexeme? = some lexeme)
    (sound : lexeme.token.kind ≠ .error) :
    ∀ cause, taken.content ≠ .fault cause := by
  intro cause fault
  rw [Taken.lexeme?, fault] at made
  cases made
  exact sound rfl

/-- What is spelled in a text is spelled in an excerpt that holds it. -/
theorem Spells.curtailed
    (spells : whole.Spells lexemes last)
    (suffix : dropped <:+ last.cut.after)
    (inside : Inside dropped whole part)
    (sound : ∀ lexeme ∈ lexemes, lexeme.token.kind ≠ .error) :
    ∃ others partLast,
      List.Forall₂ Token.Alike (tokens others) (tokens lexemes) ∧
      part.lexemes .plain = others ++ partLast.lexemes .plain ∧
      Inside dropped last partLast := by
  induction spells generalizing part with
  | @last whole next taken lexeme step made =>
      have clean := sound_of_lexeme made (sound lexeme List.mem_cons_self)
      obtain ⟨other, partNext, stepPart, raw, content, later⟩ :=
        inside.step? step suffix clean (inside.sameLine_of_token step made)
      obtain ⟨madePart, isMade, alike⟩ := exists_alike_lexeme raw content made
      refine ⟨[madePart], partNext, .cons alike .nil, ?_, later⟩
      rw [lexemes_of_step? stepPart, isMade]
      rfl
  | @token whole next last taken lexeme lexemes step made later hypothesis =>
      rw [List.forall_mem_cons] at sound
      obtain ⟨raw, leads⟩ := later.exists_leads
      have nextSuffix : dropped <:+ next.cut.after :=
        suffix.trans ⟨raw, leads.after.symm⟩
      obtain ⟨other, partNext, stepPart, sameRaw, content, insideNext⟩ :=
        inside.step? step nextSuffix (sound_of_lexeme made sound.1)
          (inside.sameLine_of_token step made)
      obtain ⟨madePart, isMade, alike⟩ :=
        exists_alike_lexeme sameRaw content made
      obtain ⟨others, partLast, alikeOthers, shape, insideLast⟩ :=
        hypothesis suffix insideNext sound.2
      refine ⟨madePart :: others, partLast, .cons alike alikeOthers,
        ?_, insideLast⟩
      rw [lexemes_of_step? stepPart, isMade, shape]
      rfl
  | @skip whole next last taken lexemes step skipped later hypothesis =>
      obtain ⟨raw, leads⟩ := later.exists_leads
      have nextSuffix : dropped <:+ next.cut.after :=
        suffix.trans ⟨raw, leads.after.symm⟩
      have clean : ∀ cause, taken.content ≠ .fault cause := by
        rw [skipped]
        exact fun _ => Content.noConfusion
      obtain ⟨other, partNext, stepPart, -, content, insideNext⟩ :=
        inside.step? step nextSuffix clean
          (inside.sameLine_of_spells step later suffix)
      obtain ⟨others, partLast, alike, shape, insideLast⟩ :=
        hypothesis suffix insideNext sound
      refine ⟨others, partLast, alike, ?_, insideLast⟩
      rw [lexemes_of_step? stepPart, Taken.lexeme?, content, skipped, shape]
      rfl

/--
What is skipped in a text is skipped in an
excerpt, or semicolons in it are tokens.
-/
theorem Skips.curtailed
    (skips : whole.Skips last)
    (inside : Inside last.cut.after whole part) :
    ∃ semicolons offset,
      (∀ lexeme ∈ semicolons, lexeme.token.kind = .semicolon) ∧
      part.lexemes .plain = semicolons ++ [endOfFile offset] := by
  induction skips generalizing part with
  | @here whole =>
      have ended : part.cut.after = [] :=
        List.self_eq_append_left.mp inside.after
      exact ⟨[], _, List.forall_mem_nil _,
        lexemes_of_ended ((step?_eq_none_iff part).mpr ended)⟩
  | @step whole next last taken step skipped later hypothesis =>
      obtain ⟨raw, leads⟩ := later.exists_leads
      by_cases lost : ∃ text, part.cut.after = ';' :: text ∧
        continuesLine (';' :: text) = false
      · obtain ⟨text, ahead, ends⟩ := lost
        obtain ⟨other, partNext, lexeme, stepPart, made, isSemicolon,
            insideNext⟩ :=
          inside.semicolon step ahead ends
        obtain ⟨semicolons, offset, all, shape⟩ := hypothesis insideNext
        refine ⟨lexeme :: semicolons, offset,
          List.forall_mem_cons.mpr ⟨isSemicolon, all⟩, ?_⟩
        rw [lexemes_of_step? stepPart, made, shape]
        rfl
      · have clean : ∀ cause, taken.content ≠ .fault cause := by
          rw [skipped]
          exact fun _ => Content.noConfusion
        have sameLine (text : List Char)
            (ahead : part.cut.after = ';' :: text) :
            continuesLine (';' :: text) =
              continuesLine (';' :: (text ++ last.cut.after)) := by
          refine continuesLine_curtailed fun _ => ?_
          by_contra ends
          exact lost ⟨text, ahead, eq_false_of_ne_true ends⟩
        obtain ⟨other, partNext, stepPart, -, content, insideNext⟩ :=
          inside.step? step ⟨raw, leads.after.symm⟩ clean sameLine
        obtain ⟨semicolons, offset, all, shape⟩ := hypothesis insideNext
        refine ⟨semicolons, offset, all, ?_⟩
        rw [lexemes_of_step? stepPart, Taken.lexeme?, content, skipped, shape]
        rfl

end Scanner

end Clipper.Lexeme
