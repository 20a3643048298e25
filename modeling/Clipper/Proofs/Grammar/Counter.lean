import Clipper.Grammar.Statement

/-!
# Rules with a counter of the nesting

A rule of the grammar is given the number of levels that are left to it.  A
counted rule has a counter instead: it counts one up where a level begins and
one down where the level ends, and it compares the counter with the limit.  The
counter is an integer and keeps its earlier values, so that nothing but the
rules holds it within its bounds.

A counted rule follows a rule between two values of the counter when it takes
the counter from the one to the other, within the bounds all the time, and does
to the state what the rule does.  There is one lemma for each way in which rules
are made.
-/

namespace Clipper.Grammar

/--
How deep a reading stands, and how deep it stood before, the latest first.
-/
structure Counter where
  depth : Int
  past : List Int

namespace Counter

/-- The counter before a reading. -/
def start : Counter :=
  ⟨0, []⟩

/-- The counter at a new value. -/
def moveTo
    (counter : Counter)
    (depth : Int) :
    Counter :=
  ⟨depth, counter.depth :: counter.past⟩

/-- The counter has never left its bounds. -/
def Bounded (counter : Counter) : Prop :=
  ∀ depth ∈ counter.depth :: counter.past, 0 ≤ depth ∧ depth ≤ nestingLimit

theorem bounded_start : start.Bounded := by
  simp [Bounded, start]

theorem Bounded.depth
    {counter : Counter}
    (bounded : counter.Bounded) :
    0 ≤ counter.depth ∧ counter.depth ≤ nestingLimit :=
  bounded counter.depth List.mem_cons_self

theorem Bounded.moveTo
    {counter : Counter}
    (bounded : counter.Bounded)
    {depth : Int}
    (low : 0 ≤ depth)
    (high : depth ≤ nestingLimit) :
    (counter.moveTo depth).Bounded :=
  List.forall_mem_cons.mpr ⟨⟨low, high⟩, bounded⟩

end Counter

/-- A rule with a counter of the nesting. -/
abbrev Counted (α : Type) :=
  StateT Counter Rule α

namespace Counted

variable {α β : Type}

/--
A level begins, unless the limit is reached: then the reading is cut short.
-/
def enter : Counted Bool := fun counter =>
  if counter.depth < nestingLimit then
    pure (true, counter.moveTo (counter.depth + 1))
  else do
    Rule.cutOff
    pure (false, counter)

/-- A level ends. -/
def leave : Counted Unit := fun counter =>
  pure ((), counter.moveTo (counter.depth - 1))

/-! ## Loops -/

/-- Runs `many` on a state and a counter. -/
def runMany
    (open? : Token → Option (Counted α))
    (counter : Counter)
    (state : State) :
    (List α × Counter) × State :=
  match ahead : state.rest with
  | [] => (([], counter), state)
  | token :: rest =>
      if state.recovering then (([], counter), state)
      else
        match open? token with
        | none => (([], counter), state)
        | some rule =>
            let first := (rule counter).run state.advance
            have : first.2.rest.length < state.rest.length := by
              have shorter := ((rule counter).suffix state.advance).length_le
              simp only [State.advance, ahead] at shorter
              simp only [first, State.advance, ahead, List.length_cons]
              omega
            let others := runMany open? first.1.2 first.2
            ((first.1.1 :: others.1.1, others.1.2), others.2)
termination_by state.rest.length

/-- The counted loop makes the moves of a reading and no others. -/
theorem runMany_reaches
    (open? : Token → Option (Counted α))
    (counter : Counter)
    (state : State) :
    state.Reaches (runMany open? counter state).2 := by
  fun_induction runMany open? counter state with
  | case1 | case2 | case3 => exact .refl _
  | case4 counter state token rest ahead calm rule opened first shorter others
      hypothesis =>
      exact ((State.Move.advance state).reaches.trans
        ((rule counter).reaches _)).trans hypothesis

/--
Reads parts for as long as the token ahead opens one, which is taken before.
-/
def many (open? : Token → Option (Counted α)) : Counted (List α) :=
  fun counter =>
    ⟨runMany open? counter, runMany_reaches open? counter⟩

/-- Runs `sequence` on a state and a counter. -/
def runSequence
    (closes : State → Bool)
    (item : Counted (Option α))
    (counter : Counter)
    (state : State) :
    (List α × Counter) × State :=
  if ended : state.rest = [] then (([], counter), state)
  else if closes state then (([], counter), state)
  else
    let first := (item counter).run state
    have : (state.forward first.2).rest.length < state.rest.length :=
      State.forward_shorter ended ((item counter).suffix state)
    let others := runSequence closes item first.1.2 (state.forward first.2)
    ((first.1.1.toList ++ others.1.1, others.1.2), others.2)
termination_by state.rest.length

/--
The counted loop over statements makes the moves of a reading and no others.
-/
theorem runSequence_reaches
    (closes : State → Bool)
    (item : Counted (Option α))
    (counter : Counter)
    (state : State) :
    state.Reaches (runSequence closes item counter state).2 := by
  fun_induction runSequence closes item counter state with
  | case1 | case2 => exact .refl _
  | case3 counter state ended opened first shorter others hypothesis =>
      exact (((item counter).reaches state).trans
        (State.forward_reaches _ _)).trans hypothesis

/-- Reads items until the state closes the sequence or the file ends. -/
def sequence
    (closes : State → Bool)
    (item : Counted (Option α)) :
    Counted (List α) := fun counter =>
  ⟨runSequence closes item counter, runSequence_reaches closes item counter⟩

/-- A comma opens a further item. -/
def afterComma?
    (item : Counted α)
    (token : Token) :
    Option (Counted α) :=
  if token.kind = .comma then some item else none

/-- Reads one item, and a further one after each comma. -/
def separated (item : Counted α) : Counted (List α) := do
  let first ← item
  let others ← many (afterComma? item)
  pure (first :: others)

/--
Reads the items before a closing token; there are none when it stands ahead.
-/
def separatedUnless
    (item : Counted α)
    (closer : TokenKind) :
    Counted (List α) := do
  if (← Rule.ask State.kind) = closer then pure [] else separated item

/-- Reads the items up to a closing token, which is taken. -/
def enclosed
    (item : Counted α)
    (closer : TokenKind)
    (part : Part) :
    Counted (List α) := do
  let items ← separatedUnless item closer
  Rule.expect closer part
  pure items

/-- Reads a part if a token of this kind stands before it, which is taken. -/
def optionalAfter
    (kind : TokenKind)
    (rule : Counted α) :
    Counted (Option α) := do
  if ← Rule.eat kind then
    let value ← rule
    pure (some value)
  else pure none

/-! ## Following a rule -/

/--
The counted rule takes the counter from one value to another, and does to the
state what the rule does.
-/
def Follows
    (counted : Counted α)
    (rule : Rule α)
    (before after : Int) :
    Prop :=
  ∀ counter : Counter, counter.Bounded → counter.depth = before →
    ∀ state : State,
    ∃ last : Counter, last.Bounded ∧ last.depth = after ∧
      (counted counter).run state =
        (((rule.run state).1, last), (rule.run state).2)

variable {before middle after : Int}

theorem follows_pure (value : α) :
    Follows (pure value) (pure value) before before :=
  fun counter bounded same _ => ⟨counter, bounded, same, rfl⟩

/-- A rule that counts nothing. -/
theorem follows_lift (rule : Rule α) :
    Follows (liftM rule) rule before before :=
  fun counter bounded same _ => ⟨counter, bounded, same, rfl⟩

/--
What follows two rules in turn follows both of them together, and the counter
goes from the first value over the middle one to the last.
-/
theorem Follows.bind
    {counted : Counted α}
    {rule : Rule α}
    {countedNext : α → Counted β}
    {next : α → Rule β}
    (first : Follows counted rule before middle)
    (second : ∀ value, Follows (countedNext value) (next value) middle after) :
    Follows (counted >>= countedNext) (rule >>= next) before after := by
  intro counter bounded same state
  obtain ⟨between, betweenBounded, atMiddle, run⟩ :=
    first counter bounded same state
  obtain ⟨last, lastBounded, atEnd, further⟩ :=
    second (rule.run state).1 between betweenBounded atMiddle (rule.run state).2
  refine ⟨last, lastBounded, atEnd, ?_⟩
  change ((countedNext ((counted counter).run state).1.1)
    ((counted counter).run state).1.2).run
    ((counted counter).run state).2 = _
  rw [run]
  exact further

/-- A rule that counts nothing comes first. -/
theorem follows_lift_bind
    (rule : Rule α)
    {countedNext : α → Counted β}
    {next : α → Rule β}
    (second : ∀ value, Follows (countedNext value) (next value) before after) :
    Follows (liftM rule >>= countedNext) (rule >>= next) before after :=
  (follows_lift rule).bind second

/-- A choice by a test of the state follows the same choice between rules. -/
theorem follows_ite
    {condition : Prop}
    [Decidable condition]
    {countedYes countedNo : Counted α}
    {yes no : Rule α}
    (positive : condition → Follows countedYes yes before after)
    (negative : ¬ condition → Follows countedNo no before after) :
    Follows (if condition then countedYes else countedNo)
      (if condition then yes else no) before after := by
  split
  · next holds => exact positive holds
  · next fails => exact negative fails

/-- Below the limit a level begins. -/
theorem follows_enter
    {counted other : Counted α}
    {rule : Rule α}
    (below : before < nestingLimit)
    (second : Follows counted rule (before + 1) after) :
    Follows (enter >>= fun entered => if entered then counted else other) rule
      before after := by
  intro counter bounded same state
  obtain ⟨last, lastBounded, atEnd, run⟩ :=
    second (counter.moveTo (before + 1))
      (bounded.moveTo (by have := bounded.depth; omega) (by omega)) rfl state
  refine ⟨last, lastBounded, atEnd, ?_⟩
  have entered : enter counter = pure (true, counter.moveTo (before + 1)) := by
    rw [enter, if_pos (same ▸ below), same]
  change (enter counter >>= fun made =>
    (if made.1 then counted else other) made.2).run state = _
  rw [entered]
  exact run

/-- At the limit the reading is cut short. -/
theorem follows_enter_limit
    {counted other : Counted α}
    {rule : Rule α}
    (second : Follows other rule nestingLimit after) :
    Follows (enter >>= fun entered => if entered then counted else other)
      (Rule.cutOff >>= fun _ => rule) nestingLimit after := by
  intro counter bounded same state
  obtain ⟨last, lastBounded, atEnd, run⟩ :=
    second counter bounded same state.cutOff
  refine ⟨last, lastBounded, atEnd, ?_⟩
  have refused : enter counter = Rule.cutOff >>= fun _ =>
      pure (false, counter) := by
        rw [enter, if_neg (by omega)]
  change (enter counter >>= fun made =>
    (if made.1 then counted else other) made.2).run state = _
  rw [refused]
  exact run

/-- To leave a level counts one down, and does nothing to the state. -/
theorem follows_leave_bind
    {countedNext : Unit → Counted α}
    {rule : Rule α}
    (low : 0 ≤ before)
    (second : Follows (countedNext ()) rule before after) :
    Follows (leave >>= countedNext) rule (before + 1) after := by
  intro counter bounded same state
  have left : counter.depth - 1 = before := by omega
  have high := bounded.depth
  obtain ⟨last, lastBounded, atEnd, run⟩ :=
    second (counter.moveTo (counter.depth - 1))
      (bounded.moveTo (by omega) (by omega)) left state
  exact ⟨last, lastBounded, atEnd, run⟩

/-- A level ends after a rule. -/
theorem Follows.leave
    {counted : Counted α}
    {rule : Rule α}
    (follows : Follows counted rule before (after + 1))
    (low : 0 ≤ after) :
    Follows (counted >>= fun value => leave >>= fun _ => pure value) rule
      before after :=
  have both : Follows
      (counted >>= fun value => Counted.leave >>= fun _ => pure value)
      (rule >>= pure) before after :=
    follows.bind fun value => follows_leave_bind low (follows_pure value)
  both

/--
The loop ends while the reading recovers,
and where the token ahead opens nothing.
-/
theorem runMany_nothing
    {open? : Token → Option (Counted α)}
    (counter : Counter)
    {state : State}
    (closed :
      state.recovering = true ∨ ∀ token rest, state.rest = token :: rest →
      open? token = none) :
    runMany open? counter state = (([], counter), state) := by
  unfold runMany
  split
  · rfl
  · next token rest ahead =>
      split
      · rfl
      · next calm =>
          rw [closed.resolve_left calm token rest ahead]

/-- One round of the loop. -/
theorem runMany_round
    {open? : Token → Option (Counted α)}
    (counter : Counter)
    {state : State}
    {token : Token}
    {rest : List Token}
    {rule : Counted α}
    (ahead : state.rest = token :: rest)
    (calm : ¬ state.recovering = true)
    (opened : open? token = some rule) :
    runMany open? counter state =
      let first := (rule counter).run state.advance
      let others := runMany open? first.1.2 first.2
      ((first.1.1 :: others.1.1, others.1.2), others.2) := by
  rw [runMany]
  split
  · next none => rw [ahead] at none; cases none
  · next other others same =>
      rw [ahead] at same
      cases same
      rw [if_neg calm, opened]

theorem exists_of_rel_some
    {counted? : Option (Counted α)}
    {rule : Rule α}
    {related : Counted α → Rule α → Prop}
    (same : Option.Rel related counted? (some rule)) :
    ∃ counted, counted? = some counted ∧ related counted rule := by
  cases same with
  | some holds => exact ⟨_, rfl, holds⟩

/-- What the tokens ahead open is followed, so the loop over it is. -/
theorem follows_many
    {countedOpen? : Token → Option (Counted α)}
    {open? : Token → Option (Rule α)}
    (opened :
      ∀ token,
        Option.Rel (fun counted rule => Follows counted rule before before)
        (countedOpen? token) (open? token)) :
    Follows (many countedOpen?) (Rule.many open?) before before := by
  intro counter bounded same state
  change ∃ last : Counter, _ ∧ _ ∧ runMany countedOpen? counter state =
    (((Rule.runMany open? state).1, last), (Rule.runMany open? state).2)
  fun_induction Rule.runMany open? state generalizing counter with
  | case1 state ahead =>
      refine ⟨counter, bounded, same,
        runMany_nothing counter (.inr fun token rest other => ?_)⟩
      rw [ahead] at other
      cases other
  | case2 state token rest ahead recovering =>
      exact ⟨counter, bounded, same, runMany_nothing counter (.inl recovering)⟩
  | case3 state token rest ahead calm closed =>
      refine ⟨counter, bounded, same,
        runMany_nothing counter (.inr fun token rest other => ?_)⟩
      rw [ahead] at other
      cases other
      have notOpened := opened token
      rw [closed] at notOpened
      cases isCounted : countedOpen? token with
      | none => rfl
      | some counted =>
          rw [isCounted] at notOpened
          cases notOpened
  | case4 state token rest ahead calm rule isOpened first shorter others
      hypothesis =>
      have openedHere := opened token
      rw [isOpened] at openedHere
      obtain ⟨counted, isCounted, follows⟩ := exists_of_rel_some openedHere
      obtain ⟨between, betweenBounded, atMiddle, run⟩ :=
        follows counter bounded same state.advance
      obtain ⟨last, lastBounded, atEnd, further⟩ :=
        hypothesis between betweenBounded atMiddle
      refine ⟨last, lastBounded, atEnd, ?_⟩
      rw [runMany_round counter ahead calm isCounted, run]
      simp only [further, first, others]

/--
A counted loop over statements follows the loop of the grammar, if a counted
statement brings the counter back.
-/
theorem follows_sequence
    {counted : Counted (Option α)}
    {item : Rule (Option α)}
    (follows : Follows counted item before before)
    (closes : State → Bool) :
    Follows (sequence closes counted) (Rule.sequence closes item) before
      before := by
  intro counter bounded same state
  change ∃ last : Counter, _ ∧ _ ∧ runSequence closes counted counter state =
    (((Rule.runSequence closes item state).1, last),
      (Rule.runSequence closes item state).2)
  fun_induction Rule.runSequence closes item state generalizing counter with
  | case1 state ended =>
      refine ⟨counter, bounded, same, ?_⟩
      rw [runSequence, dif_pos ended]
  | case2 state ended closed =>
      refine ⟨counter, bounded, same, ?_⟩
      rw [runSequence, dif_neg ended, if_pos closed]
  | case3 state ended opened first shorter others hypothesis =>
      obtain ⟨between, betweenBounded, atMiddle, run⟩ :=
        follows counter bounded same state
      obtain ⟨last, lastBounded, atEnd, further⟩ :=
        hypothesis between betweenBounded atMiddle
      refine ⟨last, lastBounded, atEnd, ?_⟩
      rw [runSequence, dif_neg ended, if_neg opened]
      simp only [run]
      rw [further]

section

variable {counted : Counted α} {rule : Rule α}
    (follows : Follows counted rule before before)

include follows

theorem follows_separated :
    Follows (separated counted) (Rule.separated rule) before before := by
  refine follows.bind fun first =>
    (follows_many fun token => ?_).bind fun others => follows_pure _
  unfold afterComma? Rule.afterComma?
  split
  · exact .some follows
  · exact .none

/-- A counted part between two tokens follows the part of the grammar. -/
theorem follows_enclosed
    (closer : TokenKind)
    (part : Part) :
    Follows (enclosed counted closer part) (Rule.enclosed rule closer part)
      before before := by
  have items :
      Follows (separatedUnless counted closer)
        (Rule.separatedUnless rule closer) before before :=
    follows_lift_bind _ fun kind =>
      follows_ite (fun _ => follows_pure _) (fun _ => follows_separated follows)
  exact items.bind fun values => follows_lift_bind _ fun _ => follows_pure _

theorem follows_optionalAfter (kind : TokenKind) :
    Follows (optionalAfter kind counted) (Rule.optionalAfter kind rule)
      before before :=
  follows_lift_bind _ fun _ =>
    follows_ite (fun _ => follows.bind fun _ => follows_pure _)
      (fun _ => follows_pure _)

end

end Counted

end Clipper.Grammar
