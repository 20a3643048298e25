import Clipper.Proofs.Lexeme.TokenAlone

/-!
# Runs of a scanner

From one place in a text to a later one, a scanner skips pieces, or it spells
lexemes: a run that spells lexemes ends with the last of them.  The text between
the two places is what the run has read.

Runs make it possible to speak of a part of the lexemes of a text without its
offsets: a part of the list of lexemes has a run that spells it, and two runs
can be joined where one ends and the other begins.  Which text a run has read
is told by its two ends.  A run that skips everything is the beginning of the
run to the next lexeme.
-/

namespace Clipper.Lexeme

open Clipper.Source

namespace Scanner

/-- The second place is behind the first one, and the text is between them. -/
structure Leads
    (first : Scanner Unit)
    (raw : List Char)
    (last : Scanner Unit) :
    Prop where
  after : first.cut.after = raw ++ last.cut.after
  before : last.cut.before = raw.reverse ++ first.cut.before
  offset : last.cut.offset = first.cut.offset + byteWidth raw

variable {first middle last next : Scanner Unit} {taken : Taken}
    {lexeme : Lexeme}
variable {lexemes : List Lexeme}

theorem leads_refl (scanner : Scanner Unit) : scanner.Leads [] scanner :=
  ⟨rfl, rfl, rfl⟩

theorem Leads.trans
    {earlier later : List Char}
    (one : first.Leads earlier middle)
    (two : middle.Leads later last) :
    first.Leads (earlier ++ later) last := by
  constructor
  · rw [one.after, two.after, List.append_assoc]
  · rw [two.before, one.before, List.reverse_append, List.append_assoc]
  · rw [two.offset, one.offset, byteWidth_append, Nat.add_assoc]

theorem leads_of_step?
    (step : first.step? .plain = some (taken, next)) :
    first.Leads taken.raw next :=
  have takes := takes_of_step? step
  ⟨takes.after, takes.before, takes.offset⟩

theorem Leads.after_eq
    {text raw : List Char}
    (leads : (ofText .plain text).Leads raw first) :
    text = raw ++ first.cut.after :=
  leads.after

theorem Leads.before_eq
    {text raw : List Char}
    (leads : (ofText .plain text).Leads raw first) :
    first.cut.before = raw.reverse :=
  leads.before.trans (List.append_nil _)

theorem Leads.offset_eq
    {text raw : List Char}
    (leads : (ofText .plain text).Leads raw first) :
    first.cut.offset = byteWidth raw :=
  leads.offset.trans (Nat.zero_add _)

/-- The text that a run has read is the slice between its two places. -/
theorem Leads.slice?
    {text raw piece : List Char}
    (earlier : (ofText .plain text).Leads raw first)
    (run : first.Leads piece last) :
    slice? text ⟨first.cut.offset, last.cut.offset⟩ = some piece := by
  refine slice?_eq_some_iff.mpr ⟨raw, last.cut.after, ?_, ?_⟩
  · rw [earlier.after_eq, run.after]
  · rw [run.offset, earlier.offset_eq]

/-! ## Steps from what is ahead -/

/-- The step that a piece makes. -/
theorem exists_step_of_piece
    {first : Char}
    {tail after : List Char}
    {content : Content}
    {scanner : Scanner Unit}
    (ahead : scanner.cut.after = first :: (tail ++ after))
    (piece :
      (cutPiece .plain () scanner.cut.before scanner.cut.offset first
        (tail ++ after)).1 =
        ⟨tail.length, content⟩) :
    ∃ taken next,
      scanner.step? .plain = some (taken, next) ∧
        taken.raw = first :: tail ∧ taken.content = content := by
  refine ⟨_, _, step?_of_ahead ahead, ?_, ?_⟩
  · dsimp only
    rw [piece, List.take_succ_cons, List.take_left]
  · dsimp only
    rw [piece]

/-- The step over a run of spaces up to a visible character. -/
theorem exists_step_of_spaces
    {scanner : Scanner Unit}
    {gap after : List Char}
    (ahead : scanner.cut.after = gap ++ after)
    (nonempty : gap ≠ [])
    (spaces : ∀ character ∈ gap, isSpace character = true)
    (stops : ∀ character ∈ after.head?, isSpace character = false) :
    ∃ taken next,
      scanner.step? .plain = some (taken, next) ∧ taken.raw = gap ∧
      taken.content = .skipped := by
  obtain ⟨first, tail, rfl⟩ := List.exists_cons_of_ne_nil nonempty
  rw [List.forall_mem_cons] at spaces
  refine exists_step_of_piece ahead ?_
  rw [cutPiece, Opening.of, if_pos spaces.1]
  exact congrArg (fun run => Piece.mk run .skipped)
    (congrArg List.length (takeWhile_append_of_head spaces.2 stops))

/-- A run that passes a prefix of so many characters passes just these. -/
theorem run_of_length
    {test : Char → Bool}
    {tail after : List Char}
    (length : ((tail ++ after).takeWhile test).length = tail.length) :
    (tail ++ after).takeWhile test = tail ∧
    (tail ++ after).dropWhile test = after := by
  have passed : (tail ++ after).takeWhile test = tail := by
    rw [← take_takeWhile, length, List.take_left]
  have split := List.takeWhile_append_dropWhile (p := test) (l := tail ++ after)
  rw [passed] at split
  exact ⟨passed, List.append_cancel_left split⟩

/-- A step from a space passes all spaces up to a visible character. -/
theorem spaces_of_step?
    {first : Char}
    {tail : List Char}
    {scanner : Scanner Unit}
    (step : scanner.step? .plain = some (taken, next))
    (raw : taken.raw = first :: tail)
    (space : isSpace first = true) :
    taken.content = .skipped ∧
      (∀ character ∈ taken.raw, isSpace character = true) ∧
        ∀ character ∈ next.cut.after.head?, isSpace character = false := by
  obtain ⟨_, _, sameRaw, -, piece⟩ := piece_of_step? step
  obtain ⟨rfl, rfl⟩ := List.cons.inj (raw.symm.trans sameRaw)
  have opening : Opening.of scanner.cut.before first (tail ++ next.cut.after) =
      .space :=
    if_pos space
  rw [cutPiece, opening] at piece
  obtain ⟨length, content⟩ := Piece.mk.inj piece
  obtain ⟨passed, left⟩ := run_of_length length
  have stops := List.head?_dropWhile_not isSpace (tail ++ next.cut.after)
  refine ⟨content.symm, ?_, ?_⟩
  · rw [raw, ← passed]
    exact List.forall_mem_cons.mpr
      ⟨space, fun _ member => List.mem_takeWhile_imp member⟩
  · intro character member
    rw [left, member] at stops
    simpa using stops

/-! ## Skipping and spelling -/

theorem lexeme?_of_skipped (skipped : taken.content = .skipped) :
    taken.lexeme? = none := by
  rw [Taken.lexeme?, skipped]
  rfl

/-- A run of pieces that are skipped. -/
inductive Skips : Scanner Unit → Scanner Unit → Prop where
  | here {scanner : Scanner Unit} : Skips scanner scanner
  | step
      {first next last : Scanner Unit}
      {taken : Taken}
      (step : first.step? .plain = some (taken, next))
      (skipped : taken.content = .skipped)
      (later : Skips next last) :
      Skips first last

/-- A run that makes the lexemes, up to the end of the last of them. -/
inductive Spells : Scanner Unit → List Lexeme → Scanner Unit → Prop where
  | last
      {first next : Scanner Unit}
      {taken : Taken}
      {lexeme : Lexeme}
      (step : first.step? .plain = some (taken, next))
      (made : taken.lexeme? = some lexeme) :
      Spells first [lexeme] next
  | token
      {first next last : Scanner Unit}
      {taken : Taken}
      {lexeme : Lexeme}
      {lexemes : List Lexeme}
      (step : first.step? .plain = some (taken, next))
      (made : taken.lexeme? = some lexeme)
      (later : Spells next lexemes last) :
      Spells first (lexeme :: lexemes) last
  | skip
      {first next last : Scanner Unit}
      {taken : Taken}
      {lexemes : List Lexeme}
      (step : first.step? .plain = some (taken, next))
      (skipped : taken.content = .skipped)
      (later : Spells next lexemes last) :
      Spells first lexemes last

theorem Skips.exists_leads (skips : first.Skips last) :
    ∃ raw, first.Leads raw last := by
  induction skips with
  | here => exact ⟨[], leads_refl _⟩
  | step step _ _ hypothesis =>
      obtain ⟨raw, later⟩ := hypothesis
      exact ⟨_, (leads_of_step? step).trans later⟩

theorem Spells.exists_leads (spells : first.Spells lexemes last) :
    ∃ raw, first.Leads raw last := by
  induction spells with
  | last step => exact ⟨_, leads_of_step? step⟩
  | token step _ _ hypothesis | skip step _ _ hypothesis =>
      obtain ⟨raw, later⟩ := hypothesis
      exact ⟨_, (leads_of_step? step).trans later⟩

/-- A run that makes a lexeme reads some text. -/
theorem Spells.shorter
    (spells : first.Spells lexemes last) :
    last.cut.after.length < first.cut.after.length := by
  induction spells with
  | last step => exact step?_shorter step
  | token step _ _ hypothesis | skip step _ _ hypothesis =>
      exact Nat.lt_trans hypothesis (step?_shorter step)

/-- The last lexeme ends where the run ends. -/
theorem Spells.stop
    (spells : first.Spells lexemes last) :
    ∀ lexeme ∈ lexemes.getLast?, lexeme.token.span.stop = last.cut.offset := by
  have nonempty {first last : Scanner Unit} {lexemes : List Lexeme}
      (spells : first.Spells lexemes last) : lexemes ≠ [] := by
    induction spells with
    | last | token => exact List.cons_ne_nil _ _
    | skip _ _ _ hypothesis => exact hypothesis
  induction spells with
  | @last _ _ _ made step isMade =>
      rintro _ ⟨⟩
      have takes := takes_of_step? step
      change made.token.span.stop = _
      rw [(Taken.token_of_lexeme? takes isMade).2, takes.span]
  | token _ _ later hypothesis =>
      rw [List.getLast?_cons_of_ne_nil (nonempty later)]
      exact hypothesis
  | skip _ _ _ hypothesis => exact hypothesis

/-- A skipped piece at the beginning does not belong to what is spelled. -/
theorem Spells.of_step?
    (spells : first.Spells lexemes last)
    (step : first.step? .plain = some (taken, next))
    (skipped : taken.content = .skipped) :
    next.Spells lexemes last := by
  have noLexeme := lexeme?_of_skipped skipped
  cases spells with
  | last other made | token other made =>
      rw [step] at other
      cases other
      rw [noLexeme] at made
      cases made
  | skip other _ later =>
      rw [step] at other
      cases other
      exact later

/-! ## Two scanners -/

/--
Scanners whose steps make corresponding lexemes find corresponding lexemes.
-/
theorem lexemes_eq_map
    (related : Scanner Unit → Scanner Unit → Prop)
    {change : Lexeme → Lexeme}
    (ends :
      ∀ scanner other, related scanner other → scanner.cut.after = [] →
        other.cut.after = [] ∧
          endOfFile other.cut.offset = change (endOfFile scanner.cut.offset))
    (steps :
      ∀ scanner other taken next, related scanner other →
        scanner.step? .plain = some (taken, next) →
          ∃ otherTaken otherNext,
            other.step? .plain = some (otherTaken, otherNext) ∧
              otherTaken.lexeme? = taken.lexeme?.map change ∧
              related next otherNext)
    {scanner other : Scanner Unit}
    (both : related scanner other) :
    other.lexemes .plain = (scanner.lexemes .plain).map change := by
  fun_induction scanner.lexemes .plain generalizing other with
  | case1 scanner ended =>
      obtain ⟨otherEnd, same⟩ :=
        ends scanner other both ((step?_eq_none_iff scanner).mp ended)
      rw [lexemes_of_ended ((step?_eq_none_iff other).mpr otherEnd), same]
      rfl
  | case2 scanner taken next step lexeme made hypothesis =>
      obtain ⟨otherTaken, otherNext, stepOther, same, later⟩ :=
        steps scanner other _ _ both step
      rw [lexemes_of_step? stepOther, same, made, hypothesis later]
      rfl
  | case3 scanner taken next step made hypothesis =>
      obtain ⟨otherTaken, otherNext, stepOther, same, later⟩ :=
        steps scanner other _ _ both step
      rw [lexemes_of_step? stepOther, same, made, hypothesis later]
      rfl

/-! ## The runs of a text -/

/-- The next piece, if there is one, is a lexeme. -/
def AtLexeme (scanner : Scanner Unit) : Prop :=
  ∀ taken next, scanner.step? .plain = some (taken, next) → taken.lexeme? ≠ none

/-- The first lexeme begins at the scanner that is at it. -/
theorem AtLexeme.start
    {scanner : Scanner Unit}
    (ready : scanner.AtLexeme) :
    ∀ lexeme ∈ (scanner.lexemes .plain).head?,
      lexeme.token.span.start = scanner.cut.offset := by
  cases step : scanner.step? .plain with
  | none =>
      rw [lexemes_of_ended step]
      rintro _ ⟨⟩
      rfl
  | some result =>
      obtain ⟨taken, next⟩ := result
      obtain ⟨lexeme, made⟩ :=
        Option.ne_none_iff_exists'.mp (ready taken next step)
      rw [lexemes_of_step? step, made]
      rintro _ ⟨⟩
      have takes := takes_of_step? step
      rw [(Taken.token_of_lexeme? takes made).2, takes.span]

/-- Some pieces are skipped up to the first lexeme or the end of the text. -/
theorem exists_skips
    (scanner : Scanner Unit) :
    ∃ last, scanner.Skips last ∧ last.lexemes .plain = scanner.lexemes .plain ∧
      last.AtLexeme := by
  fun_induction scanner.lexemes .plain with
  | case1 scanner ended =>
      refine ⟨scanner, .here, lexemes_of_ended ended, fun taken next step => ?_⟩
      rw [ended] at step
      cases step
  | case2 scanner taken following step found made =>
      refine ⟨scanner, .here, ?_, fun other next again => ?_⟩
      · rw [lexemes_of_step? step, made]
        rfl
      · rw [step] at again
        cases again
        rw [made]
        exact Option.some_ne_none _
  | case3 scanner taken following step made hypothesis =>
      obtain ⟨last, skips, same, ready⟩ := hypothesis
      exact ⟨last, .step step (Taken.skipped_of_lexeme? made) skips,
        same, ready⟩

/-- The first lexemes that are left are spelled. -/
theorem exists_spells
    {scanner : Scanner Unit}
    {part rest : List Lexeme}
    (shape : scanner.lexemes .plain = part ++ rest)
    (nonempty : part ≠ [])
    (nonemptyRest : rest ≠ []) :
    ∃ last, scanner.Spells part last ∧ last.lexemes .plain = rest := by
  fun_induction scanner.lexemes .plain generalizing part with
  | case1 scanner ended =>
      have short := congrArg List.length shape
      rw [List.length_append, List.length_singleton] at short
      have somePart := List.length_pos_iff.mpr nonempty
      have someRest := List.length_pos_iff.mpr nonemptyRest
      omega
  | case2 scanner taken following step found made hypothesis =>
      obtain ⟨first, others, rfl⟩ := List.exists_cons_of_ne_nil nonempty
      obtain ⟨rfl, later⟩ := List.cons.inj shape
      rcases Decidable.em (others = []) with rfl | more
      · exact ⟨following, .last step made, later⟩
      · obtain ⟨last, spells, same⟩ := hypothesis later more
        exact ⟨last, .token step made spells, same⟩
  | case3 scanner taken following step made hypothesis =>
      obtain ⟨last, spells, same⟩ := hypothesis shape nonempty
      exact ⟨last, .skip step (Taken.skipped_of_lexeme? made) spells, same⟩

end Scanner

end Clipper.Lexeme
