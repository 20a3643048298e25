import Clipper.Grammar.Program
import Clipper.Proofs.Grammar.Reads
import Clipper.Proofs.Grammar.Yields

/-!
# Readings that are cut short

A reading that was cut short stays so, and it has reported that the program is
nested too deeply.  Therefore a reading without that report was never cut short:
not at its end, and at no point before.  `Rule.Runs` is a run of a rule that is
not cut short; such a run falls into runs of the parts of the rule.

To be cut short is the one thing that a reading does to all tokens ahead at
once, so many laws hold of readings without it only.  The field that records
it is set where the limit is passed, together with a report, unless an earlier
report has set it already.  Nothing ever clears it again.  Runs that are not
cut short can be taken apart at every bind, which is how the laws on closing
words and on routines are proved.
-/

namespace Clipper.Grammar

namespace State

/-- At the end there is no token to take. -/
theorem advance_of_ended
    {state : State}
    (ended : state.rest = []) :
    state.advance = state := by
  rw [advance]
  split
  · rfl
  · next shape =>
      rw [ended] at shape
      cases shape

@[simp]
theorem cutShort_advance (state : State) :
    state.advance.cutShort = state.cutShort := by
  rw [advance]
  cases state.rest <;> rfl

@[simp]
theorem cutShort_recover (state : State) :
    state.recover.cutShort = state.cutShort := by
  rw [recover]
  dsimp only
  split
  · rw [cutShort_advance]
  · rfl

@[simp]
theorem cutShort_fail
    (state : State)
    (cause : Cause) :
    (state.fail cause).cutShort = state.cutShort := by
  rw [fail]
  split
  · rfl
  · rw [cutShort_recover]
    rfl

/-- No move clears the record that the reading was cut short. -/
theorem Move.cutShort
    {before after : State}
    (move : Move before after)
    (cut : before.cutShort = true) :
    after.cutShort = true := by
  cases move with
  | advance => rw [cutShort_advance, cut]
  | report | reportHere | recovered => exact cut
  | fail => rw [cutShort_fail, cut]
  | cutOff => rfl

/-- What is cut short stays so; what is whole at the end was whole all along. -/
theorem Reaches.whole
    {before after : State}
    (reaches : Reaches before after)
    (whole : after.cutShort = false) :
    before.cutShort = false := by
  cases cut : before.cutShort with
  | false => rfl
  | true =>
      have still : after.cutShort = true :=
        reaches.keeps (fun _ _ move => move.cutShort) cut
      rw [whole] at still
      cases still

end State

/-- Whether a cause is that the program is nested too deeply. -/
def Cause.isTooDeep : Cause → Bool
  | tooDeep _ => true
  | _ => false

/-- No report says that the program is nested too deeply. -/
abbrev Reading.Shallow
    {α : Type}
    (reading : Reading α) :
    Prop :=
  ∀ report ∈ reading.reports, report.cause.isTooDeep = false

namespace State

theorem reports_cutOff
    {state : State}
    (whole : state.cutShort = false) :
    state.cutOff.reports = ⟨.tooDeep nestingLimit, state.current.span⟩ ::
      state.reports := by
  rw [cutOff, whole, if_neg Bool.false_ne_true]
  rfl

/-- A reading that was cut short has reported so. -/
def cutShortReported : Invariant where
  holds state := state.cutShort = true →
  ∃ report ∈ state.reports, report.cause.isTooDeep = true
  kept before after move reported cut := by
    cases early : before.cutShort with
    | true =>
        obtain ⟨report, member, deep⟩ := reported early
        exact ⟨report, move.reports_suffix.subset member, deep⟩
    | false =>
        cases move with
        | advance => simp [early] at cut
        | report | reportHere | recovered => simp [add, addHere, early] at cut
        | fail => simp [early] at cut
        | cutOff =>
            rw [reports_cutOff early]
            exact ⟨_, List.mem_cons_self, rfl⟩

end State

namespace Rule

variable {α β : Type} {state next : State}

/--
The rule takes one state to another with this value, and is not cut short.
-/
structure Runs
    (rule : Rule α)
    (state : State)
    (value : α)
    (next : State) : Prop where
  run : rule.run state = (value, next)
  whole : next.cutShort = false

namespace Runs

variable {rule : Rule α} {value : α} (runs : Runs rule state value next)

include runs

theorem value_eq : value = (rule.run state).1 := by
  rw [runs.run]

theorem next_eq : next = (rule.run state).2 := by
  rw [runs.run]

theorem reaches : state.Reaches next := by
  rw [runs.next_eq]
  exact rule.reaches state

end Runs

theorem runs_iff
    {rule : Rule α}
    {value : α} :
    Runs rule state value next ↔
      (rule.run state).1 = value ∧ (rule.run state).2 = next ∧
      next.cutShort = false :=
  ⟨fun runs => ⟨runs.value_eq.symm, runs.next_eq.symm, runs.whole⟩,
    fun ⟨value, next, whole⟩ => ⟨Prod.ext value next, whole⟩⟩

theorem runs_of_whole
    {rule : Rule α}
    (whole : (rule.run state).2.cutShort = false) :
    Runs rule state (rule.run state).1 (rule.run state).2 :=
  ⟨rfl, whole⟩

theorem runs_pure
    {value result : α}
    (runs : Runs (pure value) state result next) :
    result = value ∧ next = state := by
  obtain ⟨rfl, rfl⟩ := Prod.mk.inj runs.run
  exact ⟨rfl, rfl⟩

/-- A run of two rules in turn is a run of the first and a run of the second. -/
theorem runs_bind
    {rule : Rule α}
    {continuation : α → Rule β}
    {result : β}
    (runs : Runs (rule >>= continuation) state result next) :
    ∃ value middle, Runs rule state value middle ∧
      Runs (continuation value) middle result next := by
  have second : Runs (continuation (rule.run state).1)
      (rule.run state).2 result next :=
    ⟨runs.run, runs.whole⟩
  exact ⟨_, _, runs_of_whole (second.reaches.whole runs.whole), second⟩

theorem runs_map
    {rule : Rule α}
    {change : α → β}
    {result : β}
    (runs : Runs (change <$> rule) state result next) :
    ∃ value, Runs rule state value next ∧ result = change value := by
  obtain ⟨rfl, rfl⟩ := Prod.mk.inj runs.run
  exact ⟨_, ⟨rfl, runs.whole⟩, rfl⟩

theorem runs_ask_bind
    {question : State → α}
    {continuation : α → Rule β}
    {result : β}
    (runs : Runs (ask question >>= continuation) state result next) :
    Runs (continuation (question state)) state result next :=
  ⟨runs.run, runs.whole⟩

theorem runs_advance_bind
    {continuation : Token → Rule β}
    {result : β}
    (runs : Runs (advance >>= continuation) state result next) :
    Runs (continuation state.current) state.advance result next :=
  ⟨runs.run, runs.whole⟩

theorem runs_recovered_bind
    {continuation : Unit → Rule β}
    {result : β}
    (runs : Runs (recovered >>= continuation) state result next) :
    Runs (continuation ()) { state with recovering := false } result next :=
  ⟨runs.run, runs.whole⟩

/-- A token that may be absent is taken, or it is absent and nothing happens. -/
theorem runs_eat
    {kind : TokenKind}
    {eaten : Bool}
    (runs : Runs (eat kind) state eaten next) :
    state.kind = kind ∧ eaten = true ∧ next = state.advance ∨
      state.kind ≠ kind ∧ eaten = false ∧ next = state := by
  have run :
      (if state.kind = kind then (true, state.advance) else (false, state)) =
        (eaten, next) := runs.run
  split at run
  · next same =>
      obtain ⟨rfl, rfl⟩ := Prod.mk.inj run
      exact Or.inl ⟨same, rfl, rfl⟩
  · next other =>
      obtain ⟨rfl, rfl⟩ := Prod.mk.inj run
      exact Or.inr ⟨other, rfl, rfl⟩

/--
A choice by the token ahead takes the token where
it is of the kind, and leaves it elsewhere.
-/
theorem runs_eat_ite
    {kind : TokenKind}
    {present absent : Rule β}
    {result : β}
    (runs :
      Runs (eat kind >>= fun eaten => if eaten = true then present else absent)
        state result next) :
    state.kind = kind ∧ Runs present state.advance result next ∨
      state.kind ≠ kind ∧ Runs absent state result next := by
  obtain ⟨eaten, middle, ate, continued⟩ := runs_bind runs
  obtain ⟨same, rfl, rfl⟩ | ⟨other, rfl, rfl⟩ := runs_eat ate
  · exact Or.inl ⟨same, continued⟩
  · exact Or.inr ⟨other, continued⟩

end Rule

/-- A reading whose reports are shallow was not cut short. -/
theorem Reading.Shallow.whole
    {α : Type}
    {rule : Rule α}
    {tokens : List Token}
    (shallow : (rule.readTokens tokens).Shallow) :
    (rule.run (State.ofTokens tokens)).2.cutShort = false := by
  refine Bool.eq_false_iff.mpr fun cut => ?_
  have start : State.cutShortReported.holds (State.ofTokens tokens) := nofun
  obtain ⟨report, member, deep⟩ := State.cutShortReported.after rule start cut
  have heard : report ∈ (rule.readTokens tokens).reports :=
    List.mem_reverse.mpr member
  rw [shallow report heard] at deep
  cases deep

end Clipper.Grammar
