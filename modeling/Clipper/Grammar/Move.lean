import Clipper.Grammar.State
/-!
# Moves of a reading

Everything that a rule does to the state of a reading is a sequence of six
moves.  What every move keeps, every reading keeps: an invariant of the state is
proved for the six moves once, and never again for the single rules.

The six moves are to take a token, to add a report at any span, to add one at
the token ahead, to fail, to cut the reading short, and to report again after
a recovery.  `Reaches` is the relation of any number of moves.  It is part of
the type of rules, so a rule that does anything else to its state cannot be
written.
-/

namespace Clipper.Grammar.State

/-- One thing that a reading does to its state. -/
inductive Move : State → State → Prop where
  /-- The token ahead is taken. -/
  | advance (state : State) : Move state state.advance
  /-- A report is added at any span. -/
  | report (state : State) (report : Report) : Move state (state.add report)
  /-- A report is added at the token ahead. -/
  | reportHere (state : State) (cause : Cause) :
      Move state (state.addHere cause)
  /-- An error is reported, and tokens are skipped up to a boundary. -/
  | fail (state : State) (cause : Cause) : Move state (state.fail cause)
  /-- The tokens ahead are dropped. -/
  | cutOff (state : State) : Move state state.cutOff
  /-- Errors are reported again. -/
  | recovered (state : State) : Move state { state with recovering := false }

/-- The states to which moves lead from a state. -/
inductive Reaches : State → State → Prop where
  | refl (state : State) : Reaches state state
  | step
      {first second third : State}
      (earlier : Reaches first second)
      (last : Move second third) :
      Reaches first third

theorem Move.reaches
    {before after : State}
    (move : Move before after) :
    Reaches before after :=
  .step (.refl before) move

theorem Reaches.trans
    {first second third : State}
    (earlier : Reaches first second)
    (later : Reaches second third) :
    Reaches first third := by
  induction later with
  | refl => exact earlier
  | step _ last hypothesis => exact .step hypothesis last

/-- What every move keeps, a sequence of moves keeps. -/
theorem Reaches.keeps
    {invariant : State → Prop}
    (kept : ∀ before after, Move before after → invariant before →
      invariant after)
    {before after : State}
    (reaches : Reaches before after)
    (holds : invariant before) :
    invariant after := by
  induction reaches with
  | refl => exact holds
  | step _ last hypothesis => exact kept _ _ last hypothesis

/-! ## The tokens ahead -/

theorem advance_suffix (state : State) : state.advance.rest <:+ state.rest := by
  unfold advance
  split
  · exact List.suffix_refl _
  · next token rest shape =>
      rw [shape]
      exact List.suffix_cons token rest

theorem skipToBoundary_suffix
    (reached : Nat)
    (tokens : List Token) :
    (skipToBoundary reached tokens).2 <:+ tokens := by
  induction tokens generalizing reached with
  | nil => exact List.suffix_refl _
  | cons token rest hypothesis =>
      unfold skipToBoundary
      split
      · exact List.suffix_refl _
      · exact (hypothesis _).trans (List.suffix_cons token rest)

theorem recover_suffix (state : State) : state.recover.rest <:+ state.rest := by
  unfold recover
  dsimp only
  split
  · exact (advance_suffix _).trans (skipToBoundary_suffix _ _)
  · exact skipToBoundary_suffix _ _

theorem fail_suffix
    (state : State)
    (cause : Cause) :
    (state.fail cause).rest <:+ state.rest := by
  unfold fail
  split
  · exact List.suffix_refl _
  · exact recover_suffix (state.addHere cause)

theorem Move.suffix
    {before after : State}
    (move : Move before after) :
    after.rest <:+ before.rest := by
  cases move with
  | advance => exact advance_suffix before
  | report => exact List.suffix_refl _
  | reportHere => exact List.suffix_refl _
  | fail cause => exact fail_suffix before cause
  | cutOff => exact List.nil_suffix
  | recovered => exact List.suffix_refl _

/--
The tokens ahead after some moves are a suffix of the tokens ahead before them.
-/
theorem Reaches.suffix
    {before after : State}
    (reaches : Reaches before after) :
    after.rest <:+ before.rest := by
  induction reaches with
  | refl => exact List.suffix_refl _
  | step _ last hypothesis => exact last.suffix.trans hypothesis

end Clipper.Grammar.State
