import Clipper.Grammar.Rule

/-!
# Readings without a report

A reading is calm when it neither recovers from an error nor was cut short; so
it starts, and so it stays for as long as nothing is reported.  `Rule.Reads`
says that a rule goes from a calm state to another one without a report.  The
rules that report never do so, and for the others the lemmas below tell exactly
which tokens they took.

The laws are equivalences, to be used for rewriting: a reading of a rule that
is put together is a reading of its parts, with the states in between.  They
are used in both directions.  From a reading of the whole, soundness takes the
tokens of the parts; and from the tokens, completeness puts the reading
together.
-/

namespace Clipper.Grammar

namespace State

/-- Neither recovering from an error nor cut short. -/
structure Calm (state : State) : Prop where
  steady : state.recovering = false
  whole : state.cutShort = false

theorem calm_ofTokens (tokens : List Token) : (ofTokens tokens).Calm :=
  ⟨rfl, rfl⟩

/-! ## Reports are only added -/

theorem reports_advance (state : State) :
    state.advance.reports = state.reports := by
  unfold advance
  split <;> rfl

@[simp]
theorem recovering_advance (state : State) :
    state.advance.recovering = state.recovering := by
  rw [advance]
  cases state.rest <;> rfl

theorem reports_recover (state : State) :
    state.recover.reports = state.reports := by
  unfold recover
  dsimp only
  split
  · exact reports_advance _
  · rfl

/-- No move takes back a report. -/
theorem Move.reports_suffix
    {before after : State}
    (move : Move before after) :
    before.reports <:+ after.reports := by
  cases move with
  | advance => exact ⟨[], (reports_advance before).symm⟩
  | report report => exact List.suffix_cons _ _
  | reportHere cause => exact List.suffix_cons _ _
  | fail cause =>
      unfold State.fail
      split
      · exact List.suffix_refl _
      · rw [reports_recover]
        exact List.suffix_cons _ _
  | cutOff =>
      unfold State.cutOff
      dsimp only
      split
      · exact List.suffix_refl _
      · exact List.suffix_cons _ _
  | recovered => exact List.suffix_refl _

theorem Reaches.reports_suffix
    {before after : State}
    (reaches : Reaches before after) :
    before.reports <:+ after.reports := by
  induction reaches with
  | refl => exact List.suffix_refl _
  | step _ last hypothesis => exact hypothesis.trans last.reports_suffix

/--
The reports only grow; as they are the
same at both ends, they are so in between.
-/
theorem Reaches.quiet_between
    {first second third : State}
    (earlier : Reaches first second)
    (later : Reaches second third)
    (quiet : third.reports = first.reports) :
    second.reports = first.reports := by
  have grows := later.reports_suffix
  rw [quiet] at grows
  exact grows.eq_of_length
    (Nat.le_antisymm grows.length_le earlier.reports_suffix.length_le)

/-! ## A calm state stays calm without a report -/

theorem Calm.advance
    {state : State}
    (calm : state.Calm) :
    state.advance.Calm := by
  unfold State.advance
  split
  · exact calm
  · exact ⟨calm.steady, calm.whole⟩

theorem calm_of_advance
    {state : State}
    (calm : state.advance.Calm) :
    state.Calm := by
  unfold State.advance at calm
  split at calm
  · exact calm
  · exact ⟨calm.steady, calm.whole⟩

theorem Calm.reports_fail
    {state : State}
    (calm : state.Calm)
    (cause : Cause) :
    (state.fail cause).reports = ⟨cause, state.current.span⟩ ::
      state.reports := by
  unfold State.fail
  rw [calm.steady, if_neg Bool.false_ne_true, reports_recover]
  rfl

theorem Calm.reports_cutOff
    {state : State}
    (calm : state.Calm) :
    state.cutOff.reports = ⟨.tooDeep nestingLimit, state.current.span⟩ ::
      state.reports := by
  unfold State.cutOff
  rw [calm.whole, if_neg Bool.false_ne_true]
  rfl

/-- A move without a report keeps the reading calm. -/
theorem Move.calm
    {before after : State}
    (move : Move before after)
    (quiet : after.reports = before.reports)
    (calm : before.Calm) :
    after.Calm := by
  cases move with
  | advance => exact calm.advance
  | report report => exact ⟨calm.steady, calm.whole⟩
  | reportHere cause => exact ⟨calm.steady, calm.whole⟩
  | fail cause =>
      rw [calm.reports_fail] at quiet
      exact absurd quiet (List.cons_ne_self _ _)
  | cutOff =>
      rw [calm.reports_cutOff] at quiet
      exact absurd quiet (List.cons_ne_self _ _)
  | recovered => exact ⟨rfl, calm.whole⟩

/-- Moves without a report keep the reading calm. -/
theorem Reaches.calm
    {before after : State}
    (reaches : Reaches before after)
    (quiet : after.reports = before.reports)
    (calm : before.Calm) :
    after.Calm := by
  induction reaches with
  | refl => exact calm
  | @step middle last earlier move hypothesis =>
      have middleQuiet := earlier.quiet_between move.reaches quiet
      exact move.calm (quiet.trans middleQuiet.symm) (hypothesis middleQuiet)

/-! ## The token ahead -/

theorem kind_of_rest
    {state : State}
    {token : Token}
    {rest : List Token}
    (ahead : state.rest = token :: rest) :
    state.kind = token.kind := by
  unfold kind current
  rw [ahead]

theorem current_of_rest
    {state : State}
    {token : Token}
    {rest : List Token}
    (ahead : state.rest = token :: rest) :
    state.current = token := by
  unfold current
  rw [ahead]

/-- To take a token leaves the tokens behind it. -/
theorem rest_advance
    {state : State}
    {token : Token}
    {rest : List Token}
    (ahead : state.rest = token :: rest) :
    state.advance.rest = rest := by
  unfold advance
  split
  · next none =>
      rw [ahead] at none
      cases none
  · next first others shape =>
      rw [ahead] at shape
      cases shape
      rfl

theorem kind_advance (state : State) :
    state.advance.kind = state.secondKind := by
  rcases state with ⟨_ | ⟨token, _ | ⟨next, others⟩⟩, _, _, _, _, _, _⟩
  · rfl
  · rfl
  · rfl

/--
Before the end of the file, the token ahead is the first of the tokens ahead.
-/
theorem rest_of_kind
    {state : State}
    {kind : TokenKind}
    (same : state.kind = kind)
    (isToken : kind ≠ .endOfFile) :
    state.rest = state.current :: state.advance.rest := by
  cases shape : state.rest with
  | nil =>
      have ended : state.kind = .endOfFile := by
        rw [State.kind, current, shape]
      exact absurd (same.symm.trans ended) isToken
  | cons token rest => rw [current_of_rest shape, rest_advance shape]

theorem ahead_of_kind
    {state : State}
    {kind : TokenKind}
    (here : state.kind = kind)
    (isToken : kind ≠ .endOfFile) :
    state.rest ≠ [] := by
  rw [rest_of_kind here isToken]
  exact List.cons_ne_nil _ _

/-- A round of a loop that took a token drops none. -/
theorem forward_of_taken
    {before after : State}
    (taken : after.rest.length < before.rest.length) :
    before.forward after = after := by
  rw [forward, if_neg]
  intro same
  rw [eq_of_beq same] at taken
  exact Nat.lt_irrefl _ taken

/-- A token of one of two kinds is ahead, so the list of tokens is not empty. -/
theorem rest_of_either
    {state : State}
    {first second : TokenKind}
    (either : state.kind = first ∨ state.kind = second)
    (isToken : first ≠ .endOfFile)
    (isTokenToo : second ≠ .endOfFile) :
    state.rest = state.current :: state.advance.rest := by
  rcases either with same | same
  · exact rest_of_kind same isToken
  · exact rest_of_kind same isTokenToo

end State

namespace Rule

variable {α β : Type}

/-! ## Runs of first steps -/

theorem run_ask_bind
    (question : State → α)
    (next : α → Rule β)
    (state : State) :
    (ask question >>= next).run state = (next (question state)).run state :=
  rfl

theorem run_advance_bind
    (next : Token → Rule α)
    (state : State) :
    (advance >>= next).run state = (next state.current).run state.advance :=
  rfl

/-! ## Rules that read without a report -/

/-- From a calm state, the rule reads a value and reports nothing. -/
structure Reads
    (rule : Rule α)
    (state : State)
    (value : α)
    (next : State) : Prop where
  calm : state.Calm
  run : rule.run state = (value, next)
  quiet : next.reports = state.reports

namespace Reads

theorem calm_next
    {rule : Rule α}
    {state next : State}
    {value : α}
    (reads : Reads rule state value next) :
    next.Calm := by
  have reaches := rule.reaches state
  rw [reads.run] at reaches
  exact reaches.calm reads.quiet reads.calm

end Reads

variable {state next : State}

/-- To give a value takes nothing. -/
theorem reads_pure
    {value result : α} :
    Reads (pure value) state result next ↔
    state.Calm ∧ result = value ∧ next = state := by
  constructor
  · intro reads
    rcases Prod.mk.inj reads.run with ⟨rfl, rfl⟩
    exact ⟨reads.calm, rfl, rfl⟩
  · rintro ⟨calm, rfl, rfl⟩
    exact ⟨calm, rfl, rfl⟩

/--
Two rules in turn read what the first reads and then what the second does.
With this law a reading is taken apart along the definition of its rule.
-/
theorem reads_bind
    {rule : Rule α}
    {continuation : α → Rule β}
    {result : β} :
    Reads (rule >>= continuation) state result next ↔
      ∃ value middle,
        Reads rule state value middle ∧
        Reads (continuation value) middle result next := by
  constructor
  · intro reads
    have run := reads.run
    rw [run_bind] at run
    have reaches := (continuation (rule.run state).1).reaches (rule.run state).2
    rw [run] at reaches
    have quiet := (rule.reaches state).quiet_between reaches reads.quiet
    have first : Reads rule state (rule.run state).1 (rule.run state).2 :=
      ⟨reads.calm, rfl, quiet⟩
    exact ⟨_, _, first, first.calm_next, run, reads.quiet.trans quiet.symm⟩
  · rintro ⟨value, middle, first, second⟩
    refine ⟨first.calm, ?_, second.quiet.trans first.quiet⟩
    rw [run_bind, first.run]
    exact second.run

/-- To change the value of a rule does not change what it reads. -/
theorem reads_map
    {rule : Rule α}
    {change : α → β}
    {result : β} :
    Reads (change <$> rule) state result next ↔
      ∃ value, Reads rule state value next ∧ result = change value := by
  change Reads (rule >>= fun value => pure (change value)) state result next ↔ _
  rw [reads_bind]
  constructor
  · rintro ⟨value, middle, first, second⟩
    rcases reads_pure.mp second with ⟨-, rfl, rfl⟩
    exact ⟨value, first, rfl⟩
  · rintro ⟨value, first, rfl⟩
    exact ⟨value, next, first, reads_pure.mpr ⟨first.calm_next, rfl, rfl⟩⟩

/-- A question about the state takes nothing. -/
theorem reads_ask
    {question : State → α}
    {value : α} :
    Reads (ask question) state value next ↔
      state.Calm ∧ value = question state ∧ next = state := by
  constructor
  · intro reads
    rcases Prod.mk.inj reads.run with ⟨rfl, rfl⟩
    exact ⟨reads.calm, rfl, rfl⟩
  · rintro ⟨calm, rfl, rfl⟩
    exact ⟨calm, rfl, rfl⟩

/-- To take a token takes the one that is ahead. -/
theorem reads_advance
    {token : Token} :
    Reads advance state token next ↔
      state.Calm ∧ token = state.current ∧ next = state.advance := by
  constructor
  · intro reads
    rcases Prod.mk.inj reads.run with ⟨rfl, rfl⟩
    exact ⟨reads.calm, rfl, rfl⟩
  · rintro ⟨calm, rfl, rfl⟩
    exact ⟨calm, rfl, state.reports_advance⟩

/-- A token that may be absent is taken, if it is ahead. -/
theorem reads_eat
    {kind : TokenKind}
    {eaten : Bool} :
    Reads (eat kind) state eaten next ↔
      state.Calm ∧
        (state.kind = kind ∧ eaten = true ∧ next = state.advance ∨
          state.kind ≠ kind ∧ eaten = false ∧ next = state) := by
  constructor
  · intro reads
    have run := reads.run
    refine ⟨reads.calm, ?_⟩
    change (if state.kind = kind then (true, state.advance)
      else (false, state)) = _ at run
    split at run
    · next same =>
        rcases Prod.mk.inj run with ⟨rfl, rfl⟩
        exact Or.inl ⟨same, rfl, rfl⟩
    · next other =>
        rcases Prod.mk.inj run with ⟨rfl, rfl⟩
        exact Or.inr ⟨other, rfl, rfl⟩
  · rintro ⟨calm, ⟨same, rfl, rfl⟩ | ⟨other, rfl, rfl⟩⟩
    · exact ⟨calm, if_pos same, state.reports_advance⟩
    · exact ⟨calm, if_neg other, rfl⟩

/--
A choice by the token ahead takes the token where
it is of the kind, and leaves it elsewhere.
-/
theorem reads_eat_ite
    {kind : TokenKind}
    {present absent : Rule β}
    {result : β} :
    Reads (eat kind >>= fun eaten => if eaten = true then present else absent)
      state result next ↔
      state.kind = kind ∧ Reads present state.advance result next ∨
        state.kind ≠ kind ∧ Reads absent state result next := by
  rw [reads_bind]
  constructor
  · rintro ⟨eaten, middle, ate, continued⟩
    rcases reads_eat.mp ate with ⟨-, ⟨same, rfl, rfl⟩ | ⟨other, rfl, rfl⟩⟩
    · rw [if_pos rfl] at continued
      exact Or.inl ⟨same, continued⟩
    · rw [if_neg Bool.false_ne_true] at continued
      exact Or.inr ⟨other, continued⟩
  · rintro (⟨same, continued⟩ | ⟨other, continued⟩)
    · have calm := State.calm_of_advance continued.calm
      exact ⟨true, _, reads_eat.mpr ⟨calm, Or.inl ⟨same, rfl, rfl⟩⟩, continued⟩
    · exact ⟨false, _, reads_eat.mpr ⟨continued.calm, Or.inr ⟨other, rfl, rfl⟩⟩,
        continued⟩

/-- To end a recovery does nothing to a calm reading. -/
theorem reads_recovered :
    Reads recovered state () next ↔ state.Calm ∧ next = state := by
  constructor
  · intro reads
    have same : { state with recovering := false } = next :=
      (Prod.mk.inj reads.run).2
    rw [← reads.calm.steady] at same
    exact ⟨reads.calm, same.symm⟩
  · rintro ⟨calm, rfl⟩
    refine ⟨calm, ?_, rfl⟩
    change ((), { next with recovering := false }) = _
    rw [← calm.steady]

/-! ### Rules that report -/

theorem not_reads_fail
    {cause : Cause}
    {nothing : Unit} :
    ¬ Reads (fail cause) state nothing next := by
  intro reads
  have failed : state.fail cause = next := (Prod.mk.inj reads.run).2
  have quiet := reads.quiet
  rw [← failed, reads.calm.reports_fail] at quiet
  exact List.cons_ne_self _ _ quiet

/-- A rule that reports never reads without a report. -/
theorem not_reads_report
    {cause : Cause}
    {span : Span}
    {nothing : Unit} :
    ¬ Reads (report cause span) state nothing next := by
  intro reads
  have reported : state.add ⟨cause, span⟩ = next := (Prod.mk.inj reads.run).2
  have quiet := reads.quiet
  rw [← reported] at quiet
  exact List.cons_ne_self _ _ quiet

theorem not_reads_reportHere
    {cause : Cause}
    {nothing : Unit} :
    ¬ Reads (reportHere cause) state nothing next := by
  intro reads
  have reported : state.addHere cause = next := (Prod.mk.inj reads.run).2
  have quiet := reads.quiet
  rw [← reported] at quiet
  exact List.cons_ne_self _ _ quiet

theorem not_reads_cutOff {nothing : Unit} :
    ¬ Reads cutOff state nothing next := by
  intro reads
  have cut : state.cutOff = next := (Prod.mk.inj reads.run).2
  have quiet := reads.quiet
  rw [← cut, reads.calm.reports_cutOff] at quiet
  exact List.cons_ne_self _ _ quiet

/-! ### Expected tokens -/

/-- A required token was ahead, and was taken. -/
theorem reads_expect
    {kind : TokenKind}
    {part : Part}
    {nothing : Unit} :
    Reads (expect kind part) state nothing next ↔
      state.Calm ∧ state.kind = kind ∧ next = state.advance := by
  rw [expect, reads_eat_ite]
  constructor
  · rintro (⟨same, ended⟩ | ⟨-, failed⟩)
    · rcases reads_pure.mp ended with ⟨calm, -, rfl⟩
      exact ⟨State.calm_of_advance calm, same, rfl⟩
    · exact absurd failed not_reads_fail
  · rintro ⟨calm, same, rfl⟩
    exact Or.inl ⟨same, reads_pure.mpr ⟨calm.advance, rfl, rfl⟩⟩

/-- A required name was ahead, and was taken with its span. -/
theorem reads_expectName
    {place : NamePlace}
    {name : Identifier} :
    Reads (expectName place) state name next ↔
      state.Calm ∧ state.kind = .identifier ∧
        name = ⟨state.current.lexeme, state.current.span⟩ ∧
        next = state.advance := by
  unfold expectName
  rw [reads_bind]
  constructor
  · rintro ⟨token, middle, first, second⟩
    rcases reads_ask.mp first with ⟨calm, rfl, rfl⟩
    split at second
    · next same =>
        rcases reads_bind.mp second with ⟨_, _, advanced, ended⟩
        rcases reads_advance.mp advanced with ⟨-, -, rfl⟩
        exact ⟨calm, same, (reads_pure.mp ended).2⟩
    · rcases reads_bind.mp second with ⟨_, _, failed, -⟩
      exact absurd failed not_reads_fail
  · rintro ⟨calm, same, rfl, rfl⟩
    have named : state.current.kind = .identifier := same
    refine ⟨_, _, reads_ask.mpr ⟨calm, rfl, rfl⟩, ?_⟩
    rw [if_pos named]
    exact reads_bind.mpr
      ⟨_, _, reads_advance.mpr ⟨calm, rfl, rfl⟩,
        reads_pure.mpr ⟨calm.advance, rfl, rfl⟩⟩

/-!
### First steps

Where a rule begins with one of these steps, only what comes after it is left to
read.
-/

/-- After a question, the reading goes on with the answer. -/
theorem reads_ask_bind
    {question : State → α}
    {continuation : α → Rule β}
    {result : β} :
    Reads (ask question >>= continuation) state result next ↔
      Reads (continuation (question state)) state result next := by
  rw [reads_bind]
  constructor
  · rintro ⟨_, _, asked, reads⟩
    rcases reads_ask.mp asked with ⟨-, rfl, rfl⟩
    exact reads
  · intro reads
    exact ⟨_, _, reads_ask.mpr ⟨reads.calm, rfl, rfl⟩, reads⟩

/-- After a token was taken, the reading goes on with it. -/
theorem reads_advance_bind
    {continuation : Token → Rule β}
    {result : β} :
    Reads (advance >>= continuation) state result next ↔
      Reads (continuation state.current) state.advance result next := by
  rw [reads_bind]
  constructor
  · rintro ⟨_, _, advanced, reads⟩
    rcases reads_advance.mp advanced with ⟨-, rfl, rfl⟩
    exact reads
  · intro reads
    exact ⟨_, _, reads_advance.mpr ⟨State.calm_of_advance reads.calm, rfl, rfl⟩,
      reads⟩

/-- A required token is ahead, and the reading goes on behind it. -/
theorem reads_expect_bind
    {kind : TokenKind}
    {part : Part}
    {continuation : Unit → Rule β}
    {result : β} :
    Reads (expect kind part >>= continuation) state result next ↔
      state.kind = kind ∧
      Reads (continuation ()) state.advance result next := by
  rw [reads_bind]
  constructor
  · rintro ⟨_, _, expected, reads⟩
    rcases reads_expect.mp expected with ⟨-, same, rfl⟩
    exact ⟨same, reads⟩
  · rintro ⟨same, reads⟩
    exact ⟨_, _, reads_expect.mpr ⟨State.calm_of_advance reads.calm, same, rfl⟩,
      reads⟩

/-- A required name is ahead, and the reading goes on behind it. -/
theorem reads_expectName_bind
    {place : NamePlace}
    {continuation : Identifier → Rule β}
    {result : β} :
    Reads (expectName place >>= continuation) state result next ↔
      state.kind = .identifier ∧
        Reads (continuation ⟨state.current.lexeme, state.current.span⟩)
          state.advance result
          next := by
  rw [reads_bind]
  constructor
  · rintro ⟨_, _, expected, reads⟩
    rcases reads_expectName.mp expected with ⟨-, same, rfl, rfl⟩
    exact ⟨same, reads⟩
  · rintro ⟨same, reads⟩
    exact ⟨_, _, reads_expectName.mpr
      ⟨State.calm_of_advance reads.calm, same, rfl, rfl⟩, reads⟩

/-- After a recovery was ended, a calm reading goes on as before. -/
theorem reads_recovered_bind
    {continuation : Unit → Rule β}
    {result : β} :
    Reads (recovered >>= continuation) state result next ↔
      Reads (continuation ()) state result next := by
  rw [reads_bind]
  constructor
  · rintro ⟨_, _, recovers, reads⟩
    rcases reads_recovered.mp recovers with ⟨-, rfl⟩
    exact reads
  · intro reads
    exact ⟨(), state, reads_recovered.mpr ⟨reads.calm, rfl⟩, reads⟩

/-! ### Loops -/

/-- Where no part opens, the loop ends. -/
theorem reads_many_of_closed
    {open? : Token → Option (Rule α)}
    {values : List α}
    (closed : ∀ token rest, state.rest = token :: rest → open? token = none) :
    Reads (many open?) state values next ↔
    state.Calm ∧ values = [] ∧ next = state := by
  have run : runMany open? state = ([], state) := by
    unfold runMany
    split
    · rfl
    · next token rest shape =>
        rw [closed token rest shape]
        exact ite_self _
  constructor
  · intro reads
    rcases Prod.mk.inj (run.symm.trans reads.run) with ⟨rfl, rfl⟩
    exact ⟨reads.calm, rfl, rfl⟩
  · rintro ⟨calm, rfl, rfl⟩
    exact ⟨calm, run, rfl⟩

/-- Where a part opens, the loop takes its token, reads the part and goes on. -/
theorem reads_many_of_opened
    {open? : Token → Option (Rule α)}
    {token : Token}
    {rest : List Token}
    {rule : Rule α}
    {values : List α}
    (shape : state.rest = token :: rest)
    (opened : open? token = some rule) :
    Reads (many open?) state values next ↔
      Reads (rule >>= fun value => (value :: ·) <$> many open?) state.advance
        values next := by
  have run (calm : state.Calm) :
      runMany open? state =
        (rule >>= fun value => (value :: ·) <$> many open?).run
          state.advance := by
    unfold runMany
    split
    · next none =>
        rw [shape] at none
        cases none
    · next token' rest' shape' =>
        rw [shape] at shape'
        cases shape'
        rw [calm.steady, if_neg Bool.false_ne_true, opened]
        rfl
  constructor
  · intro reads
    exact ⟨reads.calm.advance, (run reads.calm).symm.trans reads.run,
      reads.quiet.trans state.reports_advance.symm⟩
  · intro reads
    have calm := State.calm_of_advance reads.calm
    exact ⟨calm, (run calm).trans reads.run,
      reads.quiet.trans state.reports_advance⟩

/-- The loop reads nothing exactly where no part opens. -/
theorem reads_many_nil {open? : Token → Option (Rule α)} :
    Reads (many open?) state [] next ↔
      state.Calm ∧
        (∀ token rest, state.rest = token :: rest → open? token = none) ∧
        next = state := by
  constructor
  · intro reads
    have closed : ∀ token rest, state.rest = token :: rest →
        open? token = none := by
      intro token rest shape
      cases opened : open? token with
      | none => rfl
      | some rule =>
          rcases reads_bind.mp ((reads_many_of_opened shape opened).mp reads)
            with
              ⟨value, middle, -, continued⟩
          rcases reads_map.mp continued with ⟨others, -, impossible⟩
          cases impossible
    rcases (reads_many_of_closed closed).mp reads with ⟨calm, -, same⟩
    exact ⟨calm, closed, same⟩
  · rintro ⟨calm, closed, rfl⟩
    exact (reads_many_of_closed closed).mpr ⟨calm, rfl, rfl⟩

/-- The loop reads a first part exactly where one opens. -/
theorem reads_many_cons
    {open? : Token → Option (Rule α)}
    {value : α}
    {others : List α} :
    Reads (many open?) state (value :: others) next ↔
      ∃ token rest rule middle,
        state.rest = token :: rest ∧ open? token = some rule ∧
          Reads rule state.advance value middle ∧
          Reads (many open?) middle others next := by
  constructor
  · intro reads
    by_cases closed : ∀ token rest, state.rest = token :: rest →
      open? token = none
    · rcases (reads_many_of_closed closed).mp reads with ⟨-, impossible, -⟩
      cases impossible
    · simp only [Classical.not_forall] at closed
      rcases closed with ⟨token, rest, shape, isSome⟩
      rcases Option.ne_none_iff_exists'.mp isSome with ⟨rule, opened⟩
      rcases reads_bind.mp ((reads_many_of_opened shape opened).mp reads) with
        ⟨first, middle, once, continued⟩
      rcases reads_map.mp continued with ⟨later, again, same⟩
      cases same
      exact ⟨token, rest, rule, middle, shape, opened, once, again⟩
  · rintro ⟨token, rest, rule, middle, shape, opened, once, again⟩
    exact (reads_many_of_opened shape opened).mpr
      (reads_bind.mpr ⟨value, middle, once, reads_map.mpr ⟨others, again, rfl⟩⟩)

/--
What every round of the loop keeps, the loop keeps.  The invariant speaks of the
tokens taken so far, of the value made of them and of the state.
-/
theorem Reads.many_foldl
    {open? : Token → Option (Rule α)}
    (step : β → α → β)
    (invariant : List Token → β → State → Prop)
    (round :
      ∀ {before : List Token} {made : β} {state middle : State} {token : Token}
        {rest : List Token} {rule : Rule α} {value : α},
        invariant before made state → state.rest = token :: rest →
          open? token = some rule →
          Reads rule state.advance value middle →
            ∃ tokens, state.advance.rest = tokens ++ middle.rest ∧
              invariant (before ++ token :: tokens) (step made value) middle)
    (values : List α) :
    ∀ {state next : State} {before : List Token} {made : β},
      invariant before made state → Reads (many open?) state values next →
        ∃ tokens, state.rest = tokens ++ next.rest ∧
          invariant (before ++ tokens) (values.foldl step made) next := by
  induction values with
  | nil =>
      intro state next before made holds reads
      rcases reads_many_nil.mp reads with ⟨-, -, rfl⟩
      refine ⟨[], rfl, ?_⟩
      rw [List.append_nil]
      exact holds
  | cons value values hypothesis =>
      intro state next before made holds reads
      rcases reads_many_cons.mp reads with
        ⟨token, rest, rule, middle, shape, opened, once, again⟩
      rcases round holds shape opened once with ⟨tokens, taken, holdsAfter⟩
      rcases hypothesis holdsAfter again
        with ⟨further, furtherTaken, holdsAtEnd⟩
      refine ⟨token :: (tokens ++ further), ?_, ?_⟩
      · rw [shape, ← State.rest_advance shape, taken, furtherTaken,
          List.cons_append, List.append_assoc]
      · rw [List.append_assoc, List.cons_append] at holdsAtEnd
        exact holdsAtEnd

/-- The loop over statements: it ends, or goes one round. -/
theorem Reads.of_sequence
    {closes : State → Bool}
    {item : Rule (Option α)}
    {values : List α}
    (reads : Reads (sequence closes item) state values next) :
    (state.rest = [] ∨ closes state = true) ∧ values = [] ∧ next = state ∨
      ∃ first middle others, closes state = false ∧
        Reads item state first middle ∧
        Reads (sequence closes item) (state.forward middle) others next ∧
          values = first.toList ++ others := by
  have run : runSequence closes item state = (values, next) := reads.run
  unfold runSequence at run
  split at run
  · next ended =>
      rcases Prod.mk.inj run with ⟨rfl, rfl⟩
      exact Or.inl ⟨Or.inl ended, rfl, rfl⟩
  · split at run
    · next closed =>
        rcases Prod.mk.inj run with ⟨rfl, rfl⟩
        exact Or.inl ⟨Or.inr closed, rfl, rfl⟩
    · next opened =>
        dsimp only at run
        rcases Prod.mk.inj run with ⟨rfl, rfl⟩
        have once := item.reaches state
        have again := State.forward_reaches state (item.run state).2
        have later :=
          runSequence_reaches closes item (state.forward (item.run state).2)
        have quietBefore := (once.trans again).quiet_between later reads.quiet
        have quiet := once.quiet_between again quietBefore
        refine Or.inr ⟨_, _, _, eq_false_of_ne_true opened,
          ⟨reads.calm, rfl, quiet⟩,
            ⟨(once.trans again).calm quietBefore reads.calm, rfl,
              reads.quiet.trans quietBefore.symm⟩, rfl⟩

/--
The loop over statements ends where the tokens end and where it is closed.
-/
theorem reads_sequence_of_closed
    {closes : State → Bool}
    {item : Rule (Option α)}
    (calm : state.Calm)
    (closed : state.rest = [] ∨ closes state = true) :
    Reads (sequence closes item) state [] state := by
  refine ⟨calm, ?_, rfl⟩
  change runSequence closes item state = _
  unfold runSequence
  split
  · rfl
  · next ahead =>
      rcases closed with ended | isClosed
      · exact absurd ended ahead
      · rw [if_pos isClosed]

/-- A round of the loop that takes a token drops none. -/
theorem reads_sequence_of_round
    {closes : State → Bool}
    {item : Rule (Option α)}
    {first : Option α}
    {others : List α}
    {middle : State}
    (opened : closes state = false)
    (once : Reads item state first middle)
    (taken : middle.rest.length < state.rest.length)
    (again : Reads (sequence closes item) middle others next) :
    Reads (sequence closes item) state (first.toList ++ others) next := by
  refine ⟨once.calm, ?_, again.quiet.trans once.quiet⟩
  have ahead : state.rest ≠ [] := by
    intro ended
    rw [ended] at taken
    exact Nat.not_lt_zero _ taken
  have kept : state.forward middle = middle := State.forward_of_taken taken
  have run : runSequence closes item middle = (others, next) := again.run
  change runSequence closes item state = _
  rw [runSequence.eq_def, dif_neg ahead, opened, if_neg Bool.false_ne_true]
  dsimp only
  rw [once.run, kept, run]

end Rule

end Clipper.Grammar
