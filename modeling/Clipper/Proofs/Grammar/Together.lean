import Clipper.Proofs.Grammar.Seam

/-!
# Rules side by side

Two rules go together when they lead from states side by side to states side by
side, and their values are the same up to the relabelling.  Every combinator of
rules has one lemma here.  A reading that is cut short drops all tokens ahead,
those after the seam too; therefore it only counts when nothing comes after the
seam.

The hypotheses of a lemma say where in a rule the seam may be noticed: at a
token that is taken, at a token that is tested, or at a loop that looks for
another round.  A rule that only takes and tests tokens needs to know no more
than that one is ahead.  The laws on single runs of the two loops are proved
first, as they are used by other modules too.
-/

namespace Clipper.Grammar

open Relabelled (relabel)
open Rule

namespace Rule

variable {α : Type}

/--
A loop does nothing where no round is opened, or where the reading recovers.
-/
theorem runMany_closed
    {open? : Token → Option (Rule α)}
    {state : State}
    (closed : state.recovering = true ∨
      ∀ token ∈ state.rest.head?, open? token = none) :
    runMany open? state = ([], state) := by
  unfold runMany
  split
  · rfl
  · next token rest shape =>
      split
      · rfl
      · next calm =>
          obtain recovering | none := closed
          · exact absurd recovering calm
          · rw [none token (by rw [shape]; rfl)]

/-- A loop that is opened runs one round, and then goes on. -/
theorem runMany_opened
    {open? : Token → Option (Rule α)}
    {state : State}
    {token : Token}
    {rest : List Token}
    {rule : Rule α}
    (shape : state.rest = token :: rest)
    (calm : state.recovering = false)
    (opened : open? token = some rule) :
    runMany open? state =
      ((rule.run state.advance).1 ::
        (runMany open? (rule.run state.advance).2).1,
        (runMany open? (rule.run state.advance).2).2) := by
  rw [runMany.eq_def]
  split
  · next none =>
      rw [shape] at none
      cases none
  · next token' rest' shape' =>
      rw [shape] at shape'
      cases shape'
      rw [calm, if_neg Bool.false_ne_true, opened]

/--
A loop over statements does nothing where it closes, or where
the tokens have ended.
-/
theorem runSequence_closed
    {closes : State → Bool}
    {item : Rule (Option α)}
    {state : State}
    (closed : state.rest = [] ∨ closes state = true) :
    runSequence closes item state = ([], state) := by
  unfold runSequence
  split
  · rfl
  · next ahead =>
      obtain ended | closed := closed
      · exact absurd ended ahead
      · rw [if_pos closed]

/--
A loop over statements that is open runs one attempt, steps
forward, and then goes on.
-/
theorem runSequence_opened
    {closes : State → Bool}
    {item : Rule (Option α)}
    {state : State}
    (ahead : state.rest ≠ [])
    (opened : closes state = false) :
    runSequence closes item state =
      ((item.run state).1.toList ++
          (runSequence closes item (state.forward (item.run state).2)).1,
        (runSequence closes item (state.forward (item.run state).2)).2) := by
  rw [runSequence.eq_def, dif_neg ahead, if_neg (Bool.eq_false_iff.mp opened)]

theorem eat_here
    {kind : TokenKind}
    {state : State}
    (here : state.kind = kind) :
    (eat kind).run state = (true, state.advance) :=
  if_pos here

theorem eat_elsewhere
    {kind : TokenKind}
    {state : State}
    (elsewhere : state.kind ≠ kind) :
    (eat kind).run state = (false, state) :=
  if_neg elsewhere

end Rule

namespace Seam

variable {seam : Seam}

/--
Either nothing comes after the seam, or the first reading was not cut short.
-/
def Counts
    (seam : Seam)
    (state : State) :
    Prop :=
  seam.kind = .ending ∨ state.cutShort = false

theorem Counts.of_reaches
    {before after : State}
    (counts : seam.Counts after)
    (reaches : before.Reaches after) :
    seam.Counts before :=
  counts.imp_right reaches.whole

variable {α β : Type} [Relabelled α] [Relabelled β] {left right : State}

/--
From states side by side, two rules yield
the same and lead to states side by side.
-/
def Together
    (seam : Seam)
    (first second : Rule α)
    (left right : State) :
    Prop :=
  seam.Counts (first.run left).2 →
    (second.run right).1 = relabel seam.change (first.run left).1 ∧
      seam.Beside (first.run left).2 (second.run right).2

/--
Rules in turn go together if the first ones do, and the later ones with values
that are relabelled.
-/
theorem together_bind
    {first second : Rule α}
    {next further : α → Rule β}
    (both : seam.Together first second left right)
    (later :
      ∀ value middle middle', first.run left = (value, middle) →
        seam.Beside middle middle' →
        seam.Together (next value) (further (relabel seam.change value))
          middle middle') :
    seam.Together (first >>= next) (second >>= further) left right := by
  intro counts
  obtain ⟨same, beside⟩ :=
    both (counts.of_reaches ((next (first.run left).1).reaches _))
  rw [run_bind, run_bind, same]
  exact later _ _ _ rfl beside counts

theorem together_pure
    {value other : α}
    (beside : seam.Beside left right)
    (same : other = relabel seam.change value) :
    seam.Together (pure value) (pure other) left right :=
  fun _ => ⟨same, beside⟩

theorem together_map
    {first second : Rule α}
    {make remake : α → β}
    (both : seam.Together first second left right)
    (same : ∀ value, remake (relabel seam.change value) =
      relabel seam.change (make value)) :
    seam.Together (make <$> first) (remake <$> second) left right := by
  intro counts
  obtain ⟨value, beside⟩ := both counts
  exact ⟨(congrArg remake value).trans (same _), beside⟩

/-- After a question, the rest of each rule runs from the same state. -/
theorem together_ask_bind
    {γ : Type}
    {question : State → γ}
    {next further : γ → Rule β}
    (later : seam.Together (next (question left)) (further (question right))
      left right) :
    seam.Together (ask question >>= next) (ask question >>= further)
      left right :=
  later

/--
A choice is made together if both sides choose alike and each
branch is read together.
-/
theorem together_ite
    {condition other : Prop}
    [Decidable condition]
    [Decidable other]
    {first second alternative otherwise : Rule α}
    (same : other ↔ condition)
    (yes : condition → seam.Together first second left right)
    (no : ¬ condition → seam.Together alternative otherwise left right) :
    seam.Together (if condition then first else alternative)
      (if other then second else otherwise)
      left right := by
  rcases Decidable.em condition with holds | fails
  · rw [if_pos holds, if_pos (same.mpr holds)]
    exact yes holds
  · rw [if_neg fails, if_neg (mt same.mp fails)]
    exact no fails

section Moves

variable (beside : seam.Beside left right)

include beside

/--
Both sides take the token that is ahead, and what follows is
told it with its place moved.
-/
theorem together_advance_bind
    {next further : Token → Rule β}
    (ahead : left.rest ≠ [])
    (resting : seam.kind = .semicolon → left.kind ≠ .semicolon)
    (later :
      seam.Beside left.advance right.advance →
        seam.Together (next left.current)
          (further (relabel seam.change left.current))
          left.advance right.advance) :
    seam.Together (advance >>= next) (advance >>= further) left right := by
  change seam.Together (next left.current) (further right.current) left.advance
    right.advance
  rw [beside.current ahead]
  exact later (beside.advance ahead fun isSemicolon =>
    Or.inl (resting isSemicolon))

theorem together_recovered_bind
    {next further : Unit → Rule β}
    (ahead : seam.kind = .semicolon → left.rest ≠ [])
    (later :
      seam.Beside { left with recovering := false }
        { right with recovering := false } →
        seam.Together (next ()) (further ()) { left with recovering := false }
          { right with recovering := false }) :
    seam.Together (recovered >>= next) (recovered >>= further) left right :=
  later (beside.recovered ahead)

theorem together_reportHere
    {first second : Cause}
    (same : seam.kind = .routine ∨ second = relabel seam.change first) :
    seam.Together (reportHere first) (reportHere second) left right :=
  fun _ => ⟨rfl, beside.addHere same⟩

theorem together_report
    {first second : Cause}
    {span other : Span}
    (sameCause : second = relabel seam.change first)
    (sameSpan : other = relabel seam.change span) :
    seam.Together (report first span) (report second other) left right := by
  refine fun _ => ⟨rfl, beside.add (Or.inr ?_)⟩
  rw [sameCause, sameSpan, relabel_report]

theorem together_fail
    {first second : Cause}
    (same : seam.kind = .routine ∨ second = relabel seam.change first) :
    seam.Together (fail first) (fail second) left right :=
  fun _ => ⟨rfl, beside.fail same⟩

theorem together_cutOff : seam.Together cutOff cutOff left right := by
  intro counts
  obtain ending | whole := counts
  · exact ⟨rfl, beside.cutOff ending⟩
  · cases whole

theorem together_spanFrom (start : Nat) :
    seam.Together (spanFrom start) (spanFrom (relabel seam.change start))
      left right := by
  refine fun _ => ⟨?_, beside⟩
  change Span.mk _ (max right.reached _) =
    relabel _ (Span.mk start (max left.reached start))
  rw [beside.reached, relabel_span, relabel_max]

/--
Where both states have a token of a kind ahead
or none has, both rules take it or none does.
-/
theorem together_eat_bind_of_same
    {kind : TokenKind}
    {next further : Bool → Rule β}
    (same : right.kind = kind ↔ left.kind = kind)
    (isToken : kind ≠ .endOfFile)
    (other : seam.kind = .semicolon → kind ≠ .semicolon)
    (taken :
      left.kind = kind → seam.Beside left.advance right.advance →
        seam.Together (next true) (further true) left.advance right.advance)
    (missing : left.kind ≠ kind →
      seam.Together (next false) (further false) left right) :
    seam.Together (eat kind >>= next) (eat kind >>= further) left right := by
  rcases Decidable.em (left.kind = kind) with here | elsewhere
  · have ate := beside.advance (State.ahead_of_kind here isToken)
        fun isSemicolon =>
      Or.inl (by rw [here]; exact other isSemicolon)
    rw [Together, run_bind, run_bind, eat_here here, eat_here (same.mpr here)]
    exact taken here ate
  · rw [Together, run_bind, run_bind, eat_elsewhere elsewhere,
      eat_elsewhere (mt same.mp elsewhere)]
    exact missing elsewhere

theorem together_eat
    {kind : TokenKind}
    (same : right.kind = kind ↔ left.kind = kind)
    (isToken : kind ≠ .endOfFile)
    (other : seam.kind = .semicolon → kind ≠ .semicolon) :
    seam.Together (eat kind) (eat kind) left right :=
  together_eat_bind_of_same beside same isToken other
    (fun _ ate => together_pure ate rfl) (fun _ => together_pure beside rfl)

/--
Both rules take a token of a kind that begins no head, or none of them does.
-/
theorem together_eat_bind
    {kind : TokenKind}
    {next further : Bool → Rule β}
    (plain : isPlain kind = true)
    (other : seam.kind = .semicolon → kind ≠ .semicolon)
    (guarded : seam.kind = .semicolon → left.recovering = false ∨
      prolongs kind = true)
    (taken :
      left.kind = kind → seam.Beside left.advance right.advance →
        seam.Together (next true) (further true) left.advance right.advance)
    (missing : left.kind ≠ kind →
      seam.Together (next false) (further false) left right) :
    seam.Together (eat kind >>= next) (eat kind >>= further) left right :=
  together_eat_bind_of_same beside (beside.same_kind plain guarded)
    (by rintro rfl; cases plain) other taken missing

/--
An expected token is taken on both sides, or missed by both
with the same report.
-/
theorem together_expect
    {kind : TokenKind}
    {part : Part}
    (plain : isPlain kind = true)
    (other : kind ≠ .semicolon)
    (guarded : seam.kind = .semicolon → left.recovering = false ∨
      prolongs kind = true) :
    seam.Together (expect kind part) (expect kind part) left right :=
  together_eat_bind beside plain (fun _ => other) guarded
    (fun _ ate => together_pure ate rfl)
    (fun _ => together_fail beside (Or.inr rfl))

/--
Where no error may be hidden, both rules take a name, or none of them does.
-/
theorem together_expectName
    (place : NamePlace)
    (ready : seam.Ready left) :
    seam.Together (expectName place) (expectName place) left right := by
  have same : right.kind = .identifier ↔ left.kind = .identifier :=
    beside.same_kind rfl fun isSemicolon => Or.inl (ready isSemicolon)
  refine together_ask_bind (together_ite same (fun named => ?_) (fun _ => ?_))
  · have isName : left.kind = .identifier := named
    have ahead : left.rest ≠ [] := State.ahead_of_kind isName (by decide)
    refine together_advance_bind beside ahead (fun _ => by rw [isName]; decide)
      fun ate => ?_
    refine together_pure ate ?_
    rw [beside.current ahead, relabel_identifier, lexeme_relabel, named,
      span_relabel_token]
  · refine together_bind (together_fail beside (Or.inr rfl))
      fun _ _ _ _ after => ?_
    refine together_pure after ?_
    rw [beside.span_current, start_relabel, relabel_placeholder]

/-- An optional part behind a word is read on both sides or on neither. -/
theorem together_optionalAfter
    {kind : TokenKind}
    {rule : Rule α}
    (plain : isPlain kind = true)
    (other : kind ≠ .semicolon)
    (ready : seam.Ready left)
    (both : seam.Beside left.advance right.advance →
      seam.Together rule rule left.advance right.advance) :
    seam.Together (optionalAfter kind rule) (optionalAfter kind rule)
      left right :=
  together_eat_bind beside plain (fun _ => other)
    (fun isSemicolon => Or.inl (ready isSemicolon))
    (fun _ ate => together_map (both ate) fun _ => rfl)
    (fun _ => together_pure beside rfl)

end Moves

/-! ## Loops -/

/--
Two loops open the same parts, and the second one none at the head of a routine.
-/
structure OpensAlike
    (seam : Seam)
    (open? openFurther? : Token → Option (Rule α)) :
    Prop where
  closed : ∀ token, open? token = none →
    openFurther? (relabel seam.change token) = none
  opened :
    ∀ token rule, open? token = some rule →
      token.kind ≠ .semicolon ∧
        ∃ further, openFurther? (relabel seam.change token) = some further ∧
          ∀ left right, seam.Beside left right → seam.Ready left →
            seam.Together rule further left right
  noHead : ∀ token, isHeadKind token.kind = true → openFurther? token = none

/-- Beyond the end of the first reading, neither loop goes on. -/
theorem OpensAlike.closed_beyond
    {open? openFurther? : Token → Option (Rule α)}
    (alike : seam.OpensAlike open? openFurther?)
    (beside : seam.Beside left right)
    (ended : left.rest = []) :
    right.recovering = true ∨
    ∀ token ∈ right.rest.head?, openFurther? token = none := by
  have fits := seam.fits
  rw [beside.rest_of_ended ended]
  cases kind : seam.kind with
  | ending =>
      rw [kind] at fits
      rw [show seam.tail = [] from fits]
      exact Or.inr nofun
  | routine =>
      rw [kind] at fits
      refine Or.inr fun token member => alike.noHead token ?_
      have head := isHeadKind_of_opensRoutine fits
      obtain ⟨rest, shape⟩ := List.head?_eq_some_iff.mp member
      rw [shape] at head
      exact head
  | semicolon =>
      exact Or.inl (beside.recovering.trans (beside.resting kind ended))

/--
Loops go together if their rounds do.  The induction is on the tokens ahead
of the first reading.
-/
theorem together_many
    {open? openFurther? : Token → Option (Rule α)}
    (alike : seam.OpensAlike open? openFurther?)
    (beside : seam.Beside left right) :
    seam.Together (many open?) (many openFurther?) left right := by
  suffices rounds :
      ∀ right, seam.Beside left right → seam.Counts (runMany open? left).2 →
        (runMany openFurther? right).1 =
          relabel seam.change (runMany open? left).1 ∧
          seam.Beside (runMany open? left).2 (runMany openFurther? right).2 from
    rounds right beside
  clear beside
  fun_induction runMany open? left with
  | case1 left ended =>
      intro right beside _
      rw [runMany_closed (alike.closed_beyond beside ended)]
      exact ⟨rfl, beside⟩
  | case2 left token rest ahead recovering =>
      intro right beside _
      rw [runMany_closed (Or.inl (beside.recovering.trans recovering))]
      exact ⟨rfl, beside⟩
  | case3 left token rest ahead _ none =>
      intro right beside _
      have shape := beside.rest
      rw [ahead, relabel_list, List.map_cons, List.cons_append] at shape
      have closed : ∀ token ∈ right.rest.head?,
          openFurther? token = Option.none := by
        intro other member
        rw [shape] at member
        cases member
        exact alike.closed token none
      rw [runMany_closed (Or.inr closed)]
      exact ⟨rfl, beside⟩
  | case4 left token rest ahead calm rule isOpened first shorter others
      hypothesis =>
      intro right beside counts
      have shape := beside.rest
      rw [ahead, relabel_list, List.map_cons, List.cons_append] at shape
      have steady : left.recovering = false := Bool.eq_false_iff.mpr calm
      obtain ⟨noSemicolon, further, furtherOpened, both⟩ :=
        alike.opened token rule isOpened
      have ahead' : left.rest ≠ [] := by
        rw [ahead]
        exact List.cons_ne_nil token rest
      have ate : seam.Beside left.advance right.advance :=
        beside.advance ahead' fun _ =>
          Or.inl (by rw [State.kind_of_rest ahead]; exact noSemicolon)
      have ready : seam.Ready left.advance :=
        fun _ => by rw [State.recovering_advance, steady]
      obtain ⟨value, after⟩ :=
        both _ _ ate ready (counts.of_reaches (runMany_reaches open? first.2))
      obtain ⟨values, final⟩ := hypothesis _ after counts
      rw [runMany_opened shape (beside.recovering.trans steady) furtherOpened]
      exact ⟨congrArg₂ List.cons value values, final⟩

/-- A comma opens the next item of a list on both sides. -/
theorem opensAlike_afterComma
    {item other : Rule α}
    (each :
      ∀ left right, seam.Beside left right → seam.Ready left →
        seam.Together item other left right) :
    seam.OpensAlike (afterComma? item) (afterComma? other) where
  closed token none := by
    rw [afterComma?] at none
    split at none
    · cases none
    · next noComma => exact if_neg noComma
  opened token rule opened := by
    rw [afterComma?] at opened
    split at opened
    · next comma =>
        cases opened
        exact ⟨by rw [comma]; decide, other, if_pos comma, each⟩
    · cases opened
  noHead token head := by
    refine if_neg fun comma => ?_
    rw [comma] at head
    cases head

/-- The first item may need less than the others, which come after a comma. -/
theorem together_separated
    {item other : Rule α}
    (first : seam.Together item other left right)
    (each :
      ∀ left right, seam.Beside left right → seam.Ready left →
        seam.Together item other left right) :
    seam.Together (separated item) (separated other) left right := by
  refine together_bind first fun value _ _ _ beside => ?_
  refine together_bind (together_many (opensAlike_afterComma each) beside)
    fun values _ _ _ after => ?_
  exact together_pure after rfl

/-- Parts between two tokens go together, if their items do. -/
theorem together_enclosed
    {item other : Rule α}
    {closer : TokenKind}
    {part : Part}
    (beside : seam.Beside left right)
    (plain : isPlain closer = true)
    (noSemicolon : closer ≠ .semicolon)
    (prolonging : prolongs closer = true)
    (first : left.kind ≠ closer → seam.Together item other left right)
    (each :
      ∀ left right, seam.Beside left right → seam.Ready left →
        seam.Together item other left right) :
    seam.Together (enclosed item closer part) (enclosed other closer part)
      left right := by
  have same : right.kind = closer ↔ left.kind = closer :=
    beside.same_kind plain fun _ => Or.inr prolonging
  have items :
      seam.Together (separatedUnless item closer) (separatedUnless other closer)
        left right :=
    together_ask_bind (together_ite same (fun _ => together_pure beside rfl)
      (fun open' => together_separated (first open') each))
  refine together_bind items fun values _ _ _ after => ?_
  refine together_bind
    (together_expect after plain noSemicolon fun _ => Or.inr prolonging)
    fun _ _ _ _ final => ?_
  exact together_pure final rfl

/-! ### Sequences -/

namespace Beside

/--
A round of a loop that takes no token drops one in both readings, or in none.
-/
theorem forward
    {later further : State}
    (before : seam.Beside left right)
    (after : seam.Beside later further)
    (suffix : later.rest <:+ left.rest)
    (ahead : left.rest ≠ [])
    (resting : seam.kind = .semicolon → later.rest = left.rest →
      left.kind ≠ .semicolon) :
    seam.Beside (left.forward later) (right.forward further) := by
  have same : further.rest = right.rest ↔ later.rest = left.rest := by
    rw [before.rest, after.rest, List.append_cancel_right_eq]
    refine ⟨fun equal => suffix.eq_of_length ?_, fun equal => by rw [equal]⟩
    have lengths := congrArg List.length equal
    rwa [relabel_list, relabel_list, List.length_map, List.length_map]
      at lengths
  rw [State.forward, State.forward]
  rcases Decidable.em (later.rest = left.rest) with still | moved
  · rw [if_pos (beq_iff_eq.mpr still), if_pos (beq_iff_eq.mpr (same.mpr still))]
    refine after.advance (by rw [still]; exact ahead) fun isSemicolon =>
      Or.inl ?_
    rw [State.kind_eq_headKind, still, ← State.kind_eq_headKind]
    exact resting isSemicolon still
  · rw [if_neg (mt beq_iff_eq.mp moved),
      if_neg (mt beq_iff_eq.mp (mt same.mp moved))]
    exact after

end Beside

theorem toList_append_relabel
    (value? : Option α)
    (values : List α) :
    (relabel seam.change value?).toList ++ relabel seam.change values =
      relabel seam.change (value?.toList ++ values) := by
  cases value? <;> rfl

/--
A loop over items that ends at the seam, or
before it, does the same in both readings.
-/
theorem together_sequence
    {closes : State → Bool}
    {item other : Rule (Option α)}
    (noSemicolon : seam.kind ≠ .semicolon)
    (alike :
      ∀ left right, seam.Beside left right → left.rest ≠ [] →
        closes right = closes left)
    (beyond : ∀ right : State, right.rest = seam.tail → right.rest = [] ∨
      closes right = true)
    (each :
      ∀ left right, seam.Beside left right → left.rest ≠ [] →
        seam.Together item other left right)
    (beside : seam.Beside left right) :
    seam.Together (sequence closes item) (sequence closes other)
      left right := by
  suffices rounds :
      ∀ right, seam.Beside left right →
        seam.Counts (runSequence closes item left).2 →
        (runSequence closes other right).1 =
          relabel seam.change (runSequence closes item left).1 ∧
          seam.Beside (runSequence closes item left).2
            (runSequence closes other right).2 from
    rounds right beside
  clear beside
  fun_induction runSequence closes item left with
  | case1 left ended =>
      intro right beside _
      rw [runSequence_closed (beyond right (beside.rest_of_ended ended))]
      exact ⟨rfl, beside⟩
  | case2 left ahead closed =>
      intro right beside _
      rw [runSequence_closed (Or.inr ((alike _ _ beside ahead).trans closed))]
      exact ⟨rfl, beside⟩
  | case3 left ahead opened first shorter others hypothesis =>
      intro right beside counts
      have countsFirst : seam.Counts first.2 :=
        (counts.of_reaches
          (runSequence_reaches closes item (left.forward first.2))).of_reaches
          (State.forward_reaches left first.2)
      obtain ⟨made, after⟩ := each _ _ beside ahead countsFirst
      have forward := beside.forward after (item.suffix left) ahead
          fun isSemicolon =>
        absurd isSemicolon noSemicolon
      obtain ⟨values, final⟩ := hypothesis _ forward counts
      have opened' : closes right = false :=
        (alike _ _ beside ahead).trans (Bool.eq_false_iff.mpr opened)
      rw [runSequence_opened (beside.ahead ahead) opened']
      refine ⟨?_, final⟩
      rw [made, values]
      exact toList_append_relabel first.1 others.1

end Seam

end Clipper.Grammar
