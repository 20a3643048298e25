import Clipper.Proofs.Grammar.CutShort
import Clipper.Proofs.Syntax.Marks

/-!
# The tokens that a reading takes

A rule passes some of the tokens ahead.  Where the reading is cut short, the
tokens from there on are dropped, and the cut is reported at the first of them;
a reading that was cut short passes no token and reports nothing.  The reports
of missing parts stay silent behind a cut because an expression leaves the
reading recovering, and those of missing closing words because they ask for the
cut.

`Shows` says that the marks of a tree are the marks of some of the tokens that
were passed, in their order.  A rule that makes a value brings a relation
between the value and the tokens it passed; the relations are put together as
the rules are, and silence behind a cut is one of the states that a rule may
leave.
-/

namespace Clipper.Grammar

open Rule

/--
The span of the first of the tokens ahead,
or of the end of the file behind them.
-/
def spanAhead
    (stop : Span)
    (tokens : List Token) :
    Span :=
  tokens.head?.elim stop Token.span

namespace State

theorem span_current (state : State) :
    state.current.span = spanAhead state.stop state.rest := by
  rw [current]
  cases shape : state.rest with
  | nil => rfl
  | cons token rest => rfl

/-- None of the reports is that of a cut. -/
abbrev Shallow (reports : List Report) : Prop :=
  ∀ report ∈ reports, report.cause.isTooDeep = false

theorem shallow_nil : Shallow [] :=
  List.forall_mem_nil _

/--
From one state to another the tokens were taken,
and then the reading was cut short or not.
-/
inductive Passes
    (before : State)
    (taken : List Token)
    (after : State) :
    Prop where
  | whole
      (ahead : before.rest = taken ++ after.rest)
      (stop : before.cutShort = false → after.stop = before.stop)
      (same : after.cutShort = before.cutShort)
      (reports : List Report)
      (added : after.reports = reports ++ before.reports)
      (shallow : Shallow reports)
      (silent : before.cutShort = true → reports = [])
  | cut
      (later : List Token)
      (ahead : before.rest = taken ++ later)
      (whole : before.cutShort = false)
      (isCut : after.cutShort = true)
      (dropped : after.rest = [])
      (reports : List Report)
      (added :
        after.reports =
          ⟨.tooDeep nestingLimit, spanAhead before.stop later⟩ ::
            (reports ++ before.reports))
      (shallow : Shallow reports)

namespace Passes

variable {before middle after : State} {first second : List Token}

theorem refl (state : State) : state.Passes [] state :=
  .whole rfl (fun _ => rfl) rfl [] rfl shallow_nil (fun _ => rfl)

/--
Tokens that are passed one run after the other are passed together, with a cut
in at most one of the two runs.
-/
theorem trans
    (earlier : before.Passes first middle)
    (later : middle.Passes second after) :
    before.Passes (first ++ second) after := by
  cases earlier with
  | whole ahead stop same reports added shallow silent =>
      cases later with
      | whole aheadLater stopLater sameLater reportsLater addedLater
          shallowLater silentLater =>
          refine .whole ?_ ?_ ?_ (reportsLater ++ reports) ?_ ?_ ?_
          · rw [ahead, aheadLater, List.append_assoc]
          · intro whole
            rw [stopLater (same.trans whole), stop whole]
          · rw [sameLater, same]
          · rw [addedLater, added, List.append_assoc]
          · exact List.forall_mem_append.mpr ⟨shallowLater, shallow⟩
          · intro isCut
            rw [silentLater (same.trans isCut), silent isCut]
            rfl
      | cut behind aheadLater whole isCut droppedLater reportsLater addedLater
          shallowLater =>
          refine .cut behind ?_ (same.symm.trans whole) isCut droppedLater
            (reportsLater ++ reports) ?_ ?_
          · rw [ahead, aheadLater, List.append_assoc]
          · rw [addedLater, added, stop (same.symm.trans whole),
              List.append_assoc]
          · exact List.forall_mem_append.mpr ⟨shallowLater, shallow⟩
  | cut behind ahead whole isCut droppedHere reports added shallow =>
      cases later with
      | whole aheadLater stopLater sameLater reportsLater addedLater
          shallowLater silentLater =>
          rw [droppedHere] at aheadLater
          obtain ⟨rfl, ended⟩ := List.append_eq_nil_iff.mp aheadLater.symm
          refine .cut behind ?_ whole (sameLater.trans isCut) ended
            reports ?_ shallow
          · rw [List.append_nil, ahead]
          · rw [addedLater, silentLater isCut, added]
            rfl
      | cut _ _ wholeLater =>
          rw [isCut] at wholeLater
          cases wholeLater

end Passes

/-! ## Behind a cut -/

/-- Behind a cut no tokens are ahead. -/
def Dropped (state : State) : Prop :=
  state.cutShort = true → state.rest = []

/-- Behind a cut no tokens are ahead, and errors are not reported. -/
def Silent (state : State) : Prop :=
  state.cutShort = true → state.rest = [] ∧ state.recovering = true

/-- The reading was not cut short. -/
def Whole (state : State) : Prop :=
  state.cutShort = false

/-- The reading was not cut short, and a token is ahead. -/
def Ahead (state : State) : Prop :=
  state.cutShort = false ∧ state.rest ≠ []

/--
What holds of every whole state, and tells
that no tokens are ahead behind a cut.
-/
structure Guard (guard : State → Prop) : Prop where
  of_whole : ∀ state : State, state.Whole → guard state
  dropped : ∀ state, guard state → state.Dropped

theorem Whole.silent {state : State} (whole : state.Whole) : state.Silent := by
  intro isCut
  rw [whole] at isCut
  cases isCut

theorem Silent.dropped {state : State} (silent : state.Silent) :
    state.Dropped :=
  fun isCut => (silent isCut).1

theorem guard_whole : Guard Whole :=
  ⟨fun _ whole => whole, fun _ whole => whole.silent.dropped⟩

theorem guard_silent : Guard Silent :=
  ⟨fun _ whole => whole.silent, fun _ silent => silent.dropped⟩

theorem guard_dropped : Guard Dropped :=
  ⟨fun _ whole => whole.silent.dropped, fun _ dropped => dropped⟩

theorem Dropped.ahead
    {state : State}
    (dropped : state.Dropped)
    (ahead : state.rest ≠ []) :
    state.Ahead := by
  refine ⟨?_, ahead⟩
  cases cut : state.cutShort with
  | false => rfl
  | true => exact absurd (dropped cut) ahead

/-- A silent state that does not recover was not cut short. -/
theorem Silent.whole
    {state : State}
    (silent : state.Silent)
    (steady : state.recovering = false) :
    state.Whole := by
  rw [Whole, Bool.eq_false_iff]
  intro isCut
  rw [(silent isCut).2] at steady
  cases steady

/-- What is guarded holds after a token is taken. -/
theorem Guard.advance
    {guard : State → Prop}
    (isGuard : Guard guard)
    {state : State}
    (holds : guard state) :
    guard state.advance := by
  rcases Decidable.em (state.rest = []) with ended | ahead
  · rwa [advance_of_ended ended]
  · apply isGuard.of_whole
    rw [Whole, cutShort_advance]
    exact ((isGuard.dropped state holds).ahead ahead).1

/-- Taking a token passes it, at the end of the file none. -/
theorem passes_advance (state : State) :
    state.Passes (state.rest.take 1) state.advance := by
  refine .whole ?_ ?_ (cutShort_advance state) [] (reports_advance state)
    shallow_nil (fun _ => rfl)
  · rw [advance]
    split
    · next ended => simp [ended]
    · next token rest ahead => simp [ahead]
  · intro _
    rw [advance]
    split <;> rfl

/--
A move to fewer tokens with a report of another cause passes the tokens between.
-/
theorem exists_passes_fail
    (state : State)
    {cause : Cause}
    (shallow : cause.isTooDeep = false)
    (silent : state.Silent) :
    ∃ taken, state.Passes taken (state.fail cause) ∧
      (state.fail cause).Silent := by
  cases steady : state.recovering with
  | true =>
      have same : state.fail cause = state := by rw [fail, steady, if_pos rfl]
      rw [same]
      exact ⟨[], .refl state, silent⟩
  | false =>
      have whole := silent.whole steady
      obtain ⟨taken, ahead⟩ := fail_suffix state cause
      have wholeAfter : (state.fail cause).Whole := by
        rw [Whole, cutShort_fail]
        exact whole
      refine ⟨taken, .whole ahead.symm ?_ (cutShort_fail state cause)
        [⟨cause, state.current.span⟩] ?_ ?_ ?_, wholeAfter.silent⟩
      · intro _
        rw [fail, steady, if_neg Bool.false_ne_true, recover]
        dsimp only
        split
        · rw [advance]
          split <;> rfl
        · rfl
      · rw [fail, steady, if_neg Bool.false_ne_true, reports_recover]
        rfl
      · exact List.forall_mem_singleton.mpr shallow
      · intro isCut
        rw [whole] at isCut
        cases isCut

/--
To cut the reading off passes no token, and behind the cut nothing is said.
-/
theorem passes_cutOff
    {state : State}
    (dropped : state.Dropped) :
    state.Passes [] state.cutOff ∧ state.cutOff.Silent := by
  refine ⟨?_, fun _ => ⟨rfl, rfl⟩⟩
  cases cut : state.cutShort with
  | true =>
      refine .whole ?_ ?_ (cut.symm ▸ rfl) [] ?_ shallow_nil (fun _ => rfl)
      · rw [dropped cut]
        rfl
      · intro whole
        rw [cut] at whole
        cases whole
      · rw [cutOff, cut]
        rfl
  | false =>
      refine .cut state.rest rfl cut rfl rfl [] ?_ shallow_nil
      rw [reports_cutOff cut, span_current]
      rfl

/-- A report that is not about the nesting passes nothing. -/
theorem passes_add
    (state : State)
    {report : Report}
    (shallow : report.cause.isTooDeep = false)
    (whole : state.Whole) :
    state.Passes [] (state.add report) := by
  refine .whole rfl (fun _ => rfl) rfl [report]
    rfl (List.forall_mem_singleton.mpr shallow) ?_
  intro isCut
  rw [whole] at isCut
  cases isCut

/-- Reporting errors again passes no token. -/
theorem passes_recovered (state : State) :
    state.Passes [] { state with recovering := false } :=
  .whole rfl (fun _ => rfl) rfl [] rfl shallow_nil (fun _ => rfl)

/-- Behind a cut, a step forward by force has nothing to take. -/
theorem Dropped.exists_passes_forward
    {after : State}
    (dropped : after.Dropped)
    (before : State) :
    ∃ taken, after.Passes taken (forward before after) ∧
      (forward before after).Dropped := by
  rw [forward]
  split
  · exact ⟨_, after.passes_advance, guard_dropped.advance dropped⟩
  · exact ⟨[], .refl after, dropped⟩

/-- The reading was not cut short, and the token ahead shows these marks. -/
structure Offers
    (marks : List Mark)
    (state : State) :
    Prop where
  ahead : state.Ahead
  shows : Shows marks [state.current]

theorem Ahead.rest_eq
    {state : State}
    (ahead : state.Ahead) :
    state.rest = state.current :: state.advance.rest := by
  cases shape : state.rest with
  | nil => exact absurd shape ahead.2
  | cons token rest => simp [current, advance, shape]

theorem Whole.advance
    {state : State}
    (whole : state.Whole) :
    state.advance.Whole :=
  (cutShort_advance state).trans whole

/-- Behind a cut no token but the end of the file is ahead. -/
theorem Dropped.ahead_of_kind
    {state : State}
    (dropped : state.Dropped)
    (token : state.kind ≠ .endOfFile) :
    state.Ahead := by
  apply dropped.ahead
  intro ended
  apply token
  rw [kind, current, ended]

theorem Ahead.offers
    {state : State}
    (ahead : state.Ahead) :
    state.Offers [.form] :=
  ⟨ahead, .form _⟩

end State

open State

namespace Rule

variable {α β : Type}

/--
From every state with the precondition the rule passes some tokens; the value
brings them, and what the state is afterwards depends on the value.
-/
def Passes
    (before : State → Prop)
    (rule : Rule α)
    (brings : α → List Token → Prop)
    (after : α → State → Prop) :
    Prop :=
  ∀ state, before state →
    ∃ taken,
      state.Passes taken (rule.run state).2 ∧
        brings (rule.run state).1 taken ∧
        after (rule.run state).1 (rule.run state).2

section

variable
  {before : State → Prop}
  {rule : Rule α}
  {brings : α → List Token → Prop}
  {after : α → State → Prop}

/-- What a rule passes is said with less known before and less claimed after. -/
theorem Passes.mono
    {first : State → Prop}
    {carries : α → List Token → Prop}
    {last : α → State → Prop}
    (passes : Passes before rule brings after)
    (stronger : ∀ state, first state → before state)
    (weaker : ∀ value taken, brings value taken → carries value taken)
    (wider : ∀ value state, after value state → last value state) :
    Passes first rule carries last := by
  intro state holds
  obtain ⟨taken, passed, brought, still⟩ := passes state (stronger state holds)
  exact ⟨taken, passed, weaker _ _ brought, wider _ _ still⟩

/-- A rule passes the same from fewer states. -/
theorem Passes.weaken
    {first : State → Prop}
    (passes : Passes before rule brings after)
    (stronger : ∀ state, first state → before state) :
    Passes first rule brings after :=
  fun state holds => passes state (stronger state holds)

/--
A rule passes what its first part passes, and then what its second part does.
-/
theorem Passes.bind
    {next : α → Rule β}
    {carries : β → List Token → Prop}
    {last : β → State → Prop}
    (first : Passes before rule brings after)
    (second :
      ∀ value taken, brings value taken →
        Passes (after value) (next value)
          (fun result later => carries result (taken ++ later)) last) :
    Passes before (rule >>= next) carries last := by
  intro state holds
  obtain ⟨taken, passed, brought, middle⟩ := first state holds
  obtain ⟨later, passedLater, carried, still⟩ := second _ taken brought _ middle
  exact ⟨taken ++ later, passed.trans passedLater, carried, still⟩

theorem passes_pure
    {value : α}
    (brought : brings value [])
    (still : ∀ state, before state → after value state) :
    Passes before (pure value) brings after :=
  fun state holds => ⟨[], .refl state, brought, still state holds⟩

/-- To change the value of a rule does not change what it passes. -/
theorem Passes.map
    {carries : β → List Token → Prop}
    {last : State → Prop}
    (passes : Passes before rule brings (fun _ => last))
    (change : α → β)
    (carried : ∀ value taken, brings value taken →
      carries (change value) taken) :
    Passes before (change <$> rule) carries (fun _ => last) := by
  refine passes.bind fun value taken brought =>
    passes_pure ?_ fun _ holds => holds
  rw [List.append_nil]
  exact carried value taken brought

/-- An answer of the state can be used behind it. -/
theorem passes_asking
    {answer : Type}
    {question : State → answer}
    {next : answer → Rule α}
    (second : ∀ value,
      Passes (fun state => before state ∧ question state = value)
        (next value) brings after) :
    Passes before (ask question >>= next) brings after :=
  fun state holds => second (question state) state ⟨holds, rfl⟩

theorem passes_ask
    {answer : Type}
    {question : State → answer}
    {next : answer → Rule α}
    (second : ∀ value, Passes before (next value) brings after) :
    Passes before (ask question >>= next) brings after :=
  fun state holds => second (question state) state holds

/-- A choice passes what the rule that is chosen passes. -/
theorem passes_ite
    {condition : Prop}
    [Decidable condition]
    {other : Rule α}
    (yes : condition → Passes before rule brings after)
    (no : ¬condition → Passes before other brings after) :
    Passes before (if condition then rule else other) brings after := by
  split
  · next holds => exact yes holds
  · next fails => exact no fails

end

/-- The marks of what is read show the tokens passed. -/
abbrev Showing
    (marks : α → List Mark)
    (value : α)
    (taken : List Token) :
    Prop :=
  Shows (marks value) taken

/--
From silent states to silent states, and what is read shows the tokens passed.
-/
abbrev Tells
    (rule : Rule α)
    (marks : α → List Mark) :
    Prop :=
  Passes Silent rule (Showing marks) (fun _ => Silent)

theorem Tells.whole
    {rule : Rule α}
    {marks : α → List Mark}
    (tells : rule.Tells marks) :
    Passes Whole rule (Showing marks) (fun _ => Silent) :=
  tells.weaken fun _ whole => whole.silent

/-- Any tokens may be passed. -/
abbrev Anything
    (_ : α)
    (_ : List Token) :
    Prop :=
  True

/-! ## Tokens -/

/-- The token that a state offers is taken and shown. -/
theorem passes_offered {marks : List Mark} :
    Passes (Offers marks) advance (fun _ => Shows marks) (fun _ => Whole) := by
  intro state offers
  have passed := state.passes_advance
  rw [offers.ahead.rest_eq] at passed
  exact ⟨[state.current], passed, offers.shows, Whole.advance offers.ahead.1⟩

/-- The token with which a form begins is taken and shown. -/
theorem passes_form :
    Passes Ahead advance (fun _ => Shows [.form]) (fun _ => Whole) :=
  passes_offered.weaken fun _ ahead => ahead.offers

/-- A known token ahead is taken and shown. -/
theorem passes_token
    {token : Token}
    {marks : List Mark}
    (present : token.kind ≠ .endOfFile)
    (shows : Shows marks [token]) :
    Passes (fun state => state.Dropped ∧ state.current = token) advance
      (fun _ => Shows marks) (fun _ => Whole) := by
  apply passes_offered.weaken
  rintro state ⟨dropped, rfl⟩
  exact ⟨dropped.ahead_of_kind present, shows⟩

section

variable {guard : State → Prop} (isGuard : Guard guard)

include isGuard

theorem passes_advance : Passes guard advance Anything (fun _ => guard) :=
  fun state holds => ⟨_, state.passes_advance, trivial, isGuard.advance holds⟩

theorem passes_eat (kind : TokenKind) :
    Passes guard (eat kind) Anything (fun _ => guard) := by
  intro state holds
  rw [eat]
  dsimp only
  split
  · exact passes_advance isGuard state holds
  · exact ⟨[], .refl state, trivial, holds⟩

/-- What the values of the rounds show, the values of all rounds show. -/
theorem passes_many
    {open? : Token → Option (Rule α)}
    {marks : α → List Mark}
    (opened :
      ∀ token rule, open? token = some rule →
        Passes Whole rule (fun value later =>
          Shows (marks value) (token :: later))
            (fun _ => guard)) :
    Passes guard (many open?) (Showing (List.flatMap marks))
      (fun _ => guard) := by
  intro state holds
  change
    ∃ taken,
      state.Passes taken (runMany open? state).2 ∧
        Shows ((runMany open? state).1.flatMap marks) taken ∧
        guard (runMany open? state).2
  fun_induction runMany open? state with
  | case1 | case2 | case3 => exact ⟨[], .refl _, .nothing [], holds⟩
  | case4 state token rest shape calm rule isOpened first shorter others
      hypothesis =>
      have ahead : state.Ahead :=
        (isGuard.dropped state holds).ahead
          (shape ▸ List.cons_ne_nil token rest)
      have passedToken := state.passes_advance
      rw [shape] at passedToken
      obtain ⟨part, passedPart, shown, still⟩ :=
        opened token rule isOpened state.advance (Whole.advance ahead.1)
      obtain ⟨later, passedLater, shownLater, stillLater⟩ := hypothesis still
      refine ⟨_, (passedToken.trans passedPart).trans passedLater,
        ?_, stillLater⟩
      exact shown.append shownLater

end

/-- A token may be taken before the one that is. -/
theorem passes_eat_advance (kind : TokenKind) :
    Passes Ahead (eat kind >>= fun eaten => (eaten, ·) <$> advance)
      (fun _ => Shows [.form]) (fun _ => Whole) := by
  intro state ahead
  have first := state.passes_advance
  rw [ahead.rest_eq] at first
  rw [run_bind, eat]
  dsimp only
  split
  · refine ⟨_, first.trans state.advance.passes_advance, ?_,
      (Whole.advance ahead.1).advance⟩
    exact (Shows.form state.current).passing _
  · exact ⟨_, first, .form state.current, Whole.advance ahead.1⟩

/--
A token that may be absent and a token that is taken are passed, and then
what comes after them.
-/
theorem passes_eat_advance_bind
    (kind : TokenKind)
    {next : Bool → Token → Rule β}
    {carries : β → List Token → Prop}
    {last : β → State → Prop}
    (second :
      ∀ eaten token taken, Shows [.form] taken →
        Passes Whole (next eaten token)
          (fun result later => carries result (taken ++ later)) last) :
    Passes Ahead (eat kind >>= fun eaten => advance >>= next eaten)
      carries last :=
  (passes_eat_advance kind).bind fun both taken isForm =>
    second both.1 both.2 taken isForm

/-! ## Errors -/

theorem passes_fail
    {cause : Cause}
    (shallow : cause.isTooDeep = false) :
    Passes Silent (fail cause) Anything (fun _ => Silent) := by
  intro state silent
  obtain ⟨taken, passed, still⟩ := state.exists_passes_fail shallow silent
  exact ⟨taken, passed, trivial, still⟩

/-- A report passes nothing, and stays silent behind a cut. -/
theorem passes_report
    {cause : Cause}
    (shallow : cause.isTooDeep = false)
    (span : Span)
    (marks : List Mark) :
    Passes (Offers marks) (report cause span) Anything
      (fun _ => Offers marks) :=
  fun state offers =>
    ⟨[], state.passes_add shallow offers.ahead.1, trivial, offers.ahead,
      offers.shows⟩

theorem passes_reportHere
    {cause : Cause}
    (shallow : cause.isTooDeep = false) :
    Passes Whole (reportHere cause) Anything (fun _ => Whole) :=
  fun state whole => ⟨[], state.passes_add shallow whole, trivial, whole⟩

theorem passes_cutOff : Passes Dropped cutOff Anything (fun _ => Silent) := by
  intro state dropped
  obtain ⟨passed, silent⟩ := State.passes_cutOff dropped
  exact ⟨[], passed, trivial, silent⟩

theorem passes_recovered :
    Passes Dropped recovered Anything (fun _ => Dropped) :=
  fun state dropped => ⟨[], state.passes_recovered, trivial, dropped⟩

theorem passes_expect
    (kind : TokenKind)
    (part : Part) :
    Passes Silent (expect kind part) Anything (fun _ => Silent) := by
  refine (passes_eat guard_silent kind).bind fun eaten _ _ => passes_ite ?_ ?_
  · exact fun _ => passes_pure trivial fun _ silent => silent
  · exact fun _ => passes_fail rfl

/-! ## Names and lists -/

/--
A required name shows its token, or it is a placeholder and shows nothing.
-/
theorem tells_expectName (place : NamePlace) :
    (expectName place).Tells Identifier.marks := by
  refine passes_asking fun token => passes_ite (fun isName => ?_) fun _ => ?_
  · have read := passes_token (by rw [isName]; decide)
        (Identifier.shows_token isName)
    refine (read.weaken fun _ both => ⟨both.1.dropped, both.2⟩).bind
      fun _ _ shown => ?_
    exact passes_pure (shown.passing []) fun _ whole => whole.silent
  · have failed :
        Passes (fun state => state.Silent ∧ state.current = token)
          (fail (.expectedName place)) Anything (fun _ => Silent) :=
      (passes_fail rfl).weaken fun _ both => both.1
    exact failed.bind fun _ _ _ => passes_pure (.nothing _) fun _ silent =>
      silent

/-- A part that a token announces shows what it passed, or it is absent. -/
theorem Passes.optionalAfter
    {rule : Rule α}
    {marks : α → List Mark}
    {guard : State → Prop}
    (passes : Passes guard rule (Showing marks) (fun _ => guard))
    (isGuard : Guard guard)
    (kind : TokenKind) :
    Passes guard (optionalAfter kind rule) (Showing (·.elim [] marks))
      (fun _ => guard) := by
  refine (passes_eat isGuard kind).bind fun eaten taken _ =>
    passes_ite (fun _ => ?_) fun _ => ?_
  · exact passes.map some fun _ _ shown => shown.after taken
  · exact passes_pure (.nothing _) fun _ holds => holds

section

variable {item : Rule α} {marks : α → List Mark}

/-- A list shows what its items show, in order. -/
theorem Tells.separated (tells : item.Tells marks) :
    (separated item).Tells (List.flatMap marks) := by
  have others : (many (afterComma? item)).Tells (List.flatMap marks) := by
    refine passes_many guard_silent fun token rule opened => ?_
    rw [afterComma?] at opened
    split at opened
    · cases opened
      refine tells.whole.mono (fun _ whole => whole) ?_
        (fun _ _ silent => silent)
      exact fun _ _ shown => shown.after [token]
    · cases opened
  refine tells.bind fun first taken shown =>
    others.bind fun rest later shownLater => ?_
  refine passes_pure ?_ fun _ silent => silent
  rw [Showing, List.flatMap_cons]
  exact shown.append (shownLater.passing [])

/-- A part between two tokens shows what its items show. -/
theorem Tells.enclosed
    (tells : item.Tells marks)
    (closer : TokenKind)
    (part : Part) :
    (enclosed item closer part).Tells (List.flatMap marks) := by
  have items : (separatedUnless item closer).Tells (List.flatMap marks) := by
    refine passes_ask fun kind => passes_ite (fun _ => ?_) fun _ =>
      tells.separated
    exact passes_pure (.nothing []) fun _ silent => silent
  refine items.bind fun values taken shown =>
    (passes_expect closer part).bind fun _ later _ => ?_
  exact passes_pure (shown.passing _) fun _ silent => silent

/--
A round of a sequence begins before a token; behind a cut there are no rounds.
-/
theorem Passes.sequence
    {item : Rule (Option α)}
    (passes : Passes Ahead item (Showing (·.toList.flatMap marks))
      (fun _ => Dropped))
    (closes : State → Bool) :
    Passes Dropped (sequence closes item) (Showing (List.flatMap marks))
      (fun _ => Dropped) := by
  intro state dropped
  change
    ∃ taken,
      state.Passes taken (runSequence closes item state).2 ∧
        Shows ((runSequence closes item state).1.flatMap marks) taken ∧
          (runSequence closes item state).2.Dropped
  fun_induction runSequence closes item state with
  | case1 | case2 => exact ⟨[], .refl _, .nothing [], dropped⟩
  | case3 state ended opened first shorter others hypothesis =>
      obtain ⟨part, passedPart, shown, still⟩ :=
        passes state (dropped.ahead ended)
      obtain ⟨skipped, passedForward, stillForward⟩ :=
        still.exists_passes_forward state
      obtain ⟨later, passedLater, shownLater, stillLater⟩ :=
        hypothesis stillForward
      refine ⟨_, (passedPart.trans passedForward).trans passedLater,
        ?_, stillLater⟩
      rw [List.flatMap_append]
      exact (shown.passing skipped).append shownLater

end

end Rule

end Clipper.Grammar
