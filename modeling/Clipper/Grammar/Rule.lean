import Clipper.Grammar.Move
import Clipper.Syntax.Expression
/-!
# Rules

A rule reads a part of a program: it turns the state of a reading into a value
and a new state.  The new state is reached from the old one by moves, and the
rule carries the proof; therefore the tokens ahead only become fewer, and the
two loops, `many` and `sequence`, end.

A rule gives a value in every state.  Where something is missing it reports
this and gives a placeholder, and there is no failure that a caller would have
to handle.  `many` runs while the token ahead opens another round and stops in
a recovery; `sequence` runs until its list is closed, and where a round has
taken no token it steps forward by force.
-/

namespace Clipper.Grammar

/-- A way to read a part of a program. -/
structure Rule (α : Type) where
  run : State → α × State
  reaches : ∀ state : State, state.Reaches (run state).2

theorem Rule.suffix
    {α : Type}
    (rule : Rule α)
    (state : State) :
    (rule.run state).2.rest <:+ state.rest :=
  (rule.reaches state).suffix

namespace State

/--
Takes the token ahead when a round of a loop has taken none.  The comparison
stops at the first token that differs.
-/
def forward (before after : State) : State :=
  if after.rest == before.rest then after.advance else after

theorem forward_reaches
    (before after : State) :
    after.Reaches (forward before after) := by
  unfold forward
  split
  · exact (Move.advance after).reaches
  · exact .refl after

theorem forward_shorter
    {before after : State}
    (ahead : before.rest ≠ [])
    (suffix : after.rest <:+ before.rest) :
    (forward before after).rest.length < before.rest.length := by
  unfold forward
  split
  · next same =>
      cases shape : before.rest with
      | nil => exact absurd shape ahead
      | cons token rest => simp [advance, eq_of_beq same, shape]
  · next moved =>
      exact Nat.lt_of_le_of_ne suffix.length_le
        (fun same => moved (beq_iff_eq.mpr (suffix.eq_of_length same)))

end State

namespace Rule

variable {α β : Type}

/-- Reads nothing. -/
protected def pure (value : α) : Rule α where
  run state := (value, state)
  reaches state := .refl state

/-- Reads a part, and then what its value asks for. -/
protected def bind
    (rule : Rule α)
    (next : α → Rule β) :
    Rule β where
  run state := (next (rule.run state).1).run (rule.run state).2
  reaches state := (rule.reaches state).trans ((next _).reaches _)

instance : Monad Rule where
  pure := Rule.pure
  bind := Rule.bind

@[simp]
theorem run_pure
    (value : α)
    (state : State) :
    (pure value : Rule α).run state = (value, state) :=
  rfl

@[simp]
theorem run_bind
    (rule : Rule α)
    (next : α → Rule β)
    (state : State) :
    (rule >>= next).run state =
      (next (rule.run state).1).run (rule.run state).2 :=
  rfl

/-- A value that the state gives. -/
def ask (question : State → α) : Rule α where
  run state := (question state, state)
  reaches state := .refl state

/-- Takes the token ahead and returns it. -/
def advance : Rule Token where
  run state := (state.current, state.advance)
  reaches state := (State.Move.advance state).reaches

/-- Takes the token ahead if it has this kind, and tells whether it had. -/
def eat (kind : TokenKind) : Rule Bool where
  run state :=
    if state.kind = kind then (true, state.advance) else (false, state)
  reaches state := by
    split
    · exact (State.Move.advance state).reaches
    · exact .refl state

/-- Adds a report. -/
def report
    (cause : Cause)
    (span : Span) :
    Rule Unit where
  run state := ((), state.add ⟨cause, span⟩)
  reaches state := (State.Move.report state ⟨cause, span⟩).reaches

/-- Adds a report at the token ahead. -/
def reportHere (cause : Cause) : Rule Unit where
  run state := ((), state.addHere cause)
  reaches state := (State.Move.reportHere state cause).reaches

/--
Reports an error at the token ahead and
recovers, unless the reading is recovering.
-/
def fail (cause : Cause) : Rule Unit where
  run state := ((), state.fail cause)
  reaches state := (State.Move.fail state cause).reaches

/-- Drops the tokens ahead because the program is nested too deeply. -/
def cutOff : Rule Unit where
  run state := ((), state.cutOff)
  reaches state := (State.Move.cutOff state).reaches

/-- From here on errors are reported again. -/
def recovered : Rule Unit where
  run state := ((), { state with recovering := false })
  reaches state := (State.Move.recovered state).reaches

/-- The span from an offset to the end of the last token taken. -/
def spanFrom (start : Nat) : Rule Span :=
  ask (fun state => ⟨start, max state.reached start⟩)

/--
Takes a token of this kind, or reports that
it had to follow a part of the program.
-/
def expect
    (kind : TokenKind)
    (part : Part) :
    Rule Unit := do
  if ← eat kind then pure () else fail (.expectedToken kind part)

/-- Takes a name, or reports that it is missing and returns a placeholder. -/
def expectName (place : NamePlace) : Rule Identifier := do
  let token ← ask State.current
  if token.kind = .identifier then
    let _ ← advance
    pure ⟨token.lexeme, token.span⟩
  else
    fail (.expectedName place)
    pure (.placeholder token.span.start)

/-- Reads a part if a token of this kind stands before it, which is taken. -/
def optionalAfter
    (kind : TokenKind)
    (rule : Rule α) :
    Rule (Option α) := do
  if ← eat kind then some <$> rule else pure none

/-! ## Loops -/

/-- Runs `many` on a state. -/
def runMany
    (open? : Token → Option (Rule α))
    (state : State) :
    List α × State :=
  match ahead : state.rest with
  | [] => ([], state)
  | token :: rest =>
      if state.recovering then ([], state)
      else
        match open? token with
        | none => ([], state)
        | some rule =>
            let first := rule.run state.advance
            have : first.2.rest.length < state.rest.length := by
              have shorter := (rule.suffix state.advance).length_le
              simp only [State.advance, ahead] at shorter
              simp only [first, State.advance, ahead, List.length_cons]
              omega
            let others := runMany open? first.2
            (first.1 :: others.1, others.2)
termination_by state.rest.length

theorem runMany_reaches
    (open? : Token → Option (Rule α))
    (state : State) :
    state.Reaches (runMany open? state).2 := by
  fun_induction runMany open? state with
  | case1 => exact .refl _
  | case2 => exact .refl _
  | case3 => exact .refl _
  | case4 state token rest ahead calm rule opened first shorter others
      hypothesis =>
      exact ((State.Move.advance state).reaches.trans (rule.reaches _)).trans
        hypothesis

/--
Reads parts for as long as the token ahead opens one.  The opening token is
taken before its rule is run.  An error ends the loop.
-/
def many (open? : Token → Option (Rule α)) : Rule (List α) where
  run := runMany open?
  reaches := runMany_reaches open?

/-- Runs `sequence` on a state. -/
def runSequence
    (closes : State → Bool)
    (item : Rule (Option α))
    (state : State) :
    List α × State :=
  if ended : state.rest = [] then ([], state)
  else if closes state then ([], state)
  else
    let first := item.run state
    have : (state.forward first.2).rest.length < state.rest.length :=
      State.forward_shorter ended (item.suffix state)
    let others := runSequence closes item (state.forward first.2)
    (first.1.toList ++ others.1, others.2)
termination_by state.rest.length

theorem runSequence_reaches
    (closes : State → Bool)
    (item : Rule (Option α))
    (state : State) :
    state.Reaches (runSequence closes item state).2 := by
  fun_induction runSequence closes item state with
  | case1 => exact .refl _
  | case2 => exact .refl _
  | case3 state ended opened first shorter others hypothesis =>
      exact ((item.reaches state).trans (State.forward_reaches _ _)).trans
        hypothesis

/--
Reads items until the state closes the sequence or the file ends.  A round that
takes no token drops one.
-/
def sequence
    (closes : State → Bool)
    (item : Rule (Option α)) :
    Rule (List α) where
  run := runSequence closes item
  reaches := runSequence_reaches closes item

/-- A comma opens a further item. -/
def afterComma?
    (item : Rule α)
    (token : Token) :
    Option (Rule α) :=
  if token.kind = .comma then some item else none

/-- Reads one item, and a further one after each comma. -/
def separated (item : Rule α) : Rule (List α) := do
  let first ← item
  let others ← many (afterComma? item)
  pure (first :: others)

/--
Reads the items before a closing token; there are none when it stands ahead.
-/
def separatedUnless
    (item : Rule α)
    (closer : TokenKind) :
    Rule (List α) := do
  if (← ask State.kind) = closer then pure [] else separated item

/-- Reads the items up to a closing token, which is taken. -/
def enclosed
    (item : Rule α)
    (closer : TokenKind)
    (part : Part) :
    Rule (List α) := do
  let items ← separatedUnless item closer
  expect closer part
  pure items

end Rule

end Clipper.Grammar
