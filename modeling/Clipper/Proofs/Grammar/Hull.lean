import Mathlib.Data.List.Basic
import Clipper.Proofs.Grammar.Reads
import Clipper.Proofs.Source.Containment

/-!
# The hull of tokens

The hull of some tokens goes from the beginning of the first to the end of the
last. Where the tokens stand in the order of their text, the hull holds the
hulls of all runs of tokens among them, so merging these into it changes
nothing.

A reading without a report reaches the end of the last token that it takes.

The order of the tokens is all that is used of their text: each ends at or
before the beginning of the next.  The reader merges the spans of parts and
takes the offset that it has reached for the end of a node; the lemmas here
say that the outcome is the hull of the tokens that were taken, if nothing is
a placeholder.  That is why they are about readings without a report.
-/

namespace Clipper

namespace Span

/-- A span that holds another one does not grow when that one is merged in. -/
theorem merge_of_contains
    {outer inner : Span}
    (holds : outer.contains inner = true) :
    outer.merge inner = outer := by
  rw [contains_iff] at holds
  rw [merge, Nat.min_eq_left holds.1, Nat.max_eq_left holds.2]

/-- To merge spans into one that holds them all changes nothing. -/
theorem mergeAll_of_contains
    {outer : Span}
    {others : List Span}
    (holds : ∀ other ∈ others, outer.contains other = true) :
    outer.mergeAll others = outer := by
  induction others with
  | nil => rfl
  | cons other rest hypothesis =>
      rw [List.forall_mem_cons] at holds
      change (outer.merge other).mergeAll rest = outer
      rw [merge_of_contains holds.1, hypothesis holds.2]

/-- A span that holds several spans holds their merge. -/
theorem contains_mergeAll
    {outer base : Span}
    {others : List Span}
    (holdsBase : outer.contains base = true)
    (holds : ∀ other ∈ others, outer.contains other = true) :
    outer.contains (base.mergeAll others) = true := by
  induction others generalizing base with
  | nil => exact holdsBase
  | cons other rest hypothesis =>
      rw [List.forall_mem_cons] at holds
      apply hypothesis _ holds.2
      rw [contains_iff] at holdsBase ⊢
      have holdsOther := (contains_iff _ _).mp holds.1
      exact ⟨Nat.le_min.mpr ⟨holdsBase.1, holdsOther.1⟩,
        Nat.max_le.mpr ⟨holdsBase.2, holdsOther.2⟩⟩

end Span

namespace Grammar

/--
The span from the beginning of the first token to the end of the last one.
-/
def hull (tokens : List Token) : Span :=
  ⟨tokens.head?.elim 0 (fun token => token.span.start),
    tokens.getLast?.elim 0 (fun token => token.span.stop)⟩

/-- Tokens in the order of their text. -/
structure Ordered (tokens : List Token) : Prop where
  apart : tokens.Pairwise
    (fun earlier later => earlier.span.stop ≤ later.span.start)
  proper : ∀ token ∈ tokens, token.span.start ≤ token.span.stop

@[simp]
theorem hull_singleton (token : Token) : hull [token] = token.span :=
  rfl

theorem start_hull_append
    {before : List Token}
    (nonempty : before ≠ [])
    (after : List Token) :
    (hull (before ++ after)).start = (hull before).start := by
  cases before with
  | nil => exact absurd rfl nonempty
  | cons token rest => rfl

theorem stop_hull_append
    {after : List Token}
    (nonempty : after ≠ [])
    (before : List Token) :
    (hull (before ++ after)).stop = (hull after).stop := by
  rw [hull, List.getLast?_append_of_ne_nil before nonempty]
  rfl

namespace Ordered

variable {tokens part : List Token}

theorem of_infix
    (ordered : Ordered tokens)
    (inside : part <:+: tokens) :
    Ordered part :=
  ⟨ordered.apart.sublist inside.sublist,
    fun token member => ordered.proper token (inside.subset member)⟩

/-- The hull begins at or before each of its tokens. -/
theorem start_le
    (ordered : Ordered tokens)
    {token : Token}
    (member : token ∈ tokens) :
    (hull tokens).start ≤ token.span.start := by
  cases tokens with
  | nil => cases member
  | cons first rest =>
      change first.span.start ≤ token.span.start
      rcases List.mem_cons.mp member with rfl | later
      · exact Nat.le_refl _
      · exact Nat.le_trans (ordered.proper first List.mem_cons_self)
          (List.rel_of_pairwise_cons ordered.apart later)

/-- The hull ends at or behind each of its tokens. -/
theorem le_stop
    (ordered : Ordered tokens)
    {token : Token}
    (member : token ∈ tokens) :
    token.span.stop ≤ (hull tokens).stop := by
  obtain ⟨before, last, rfl⟩ :=
    (List.eq_nil_or_concat' tokens).resolve_left (List.ne_nil_of_mem member)
  rw [stop_hull_append (List.cons_ne_nil _ _), hull_singleton]
  rcases List.mem_append.mp member with earlier | isLast
  · have apart := (List.pairwise_append.mp ordered.apart).2.2 token earlier
        last (by simp)
    exact Nat.le_trans apart (ordered.proper last (by simp))
  · exact Nat.le_of_eq
      (congrArg (fun token => token.span.stop) (List.mem_singleton.mp isLast))

theorem proper_hull
    (ordered : Ordered tokens) :
    (hull tokens).start ≤ (hull tokens).stop := by
  cases tokens with
  | nil => exact Nat.le_refl _
  | cons first rest =>
      exact Nat.le_trans (ordered.proper first List.mem_cons_self)
        (ordered.le_stop List.mem_cons_self)

/-- The hull of tokens holds the hull of every run of them. -/
theorem contains_hull
    (ordered : Ordered tokens)
    (inside : part <:+: tokens)
    (nonempty : part ≠ []) :
    (hull tokens).contains (hull part) = true := by
  rw [Span.contains_iff]
  constructor
  · cases part with
    | nil => exact absurd rfl nonempty
    | cons first rest =>
        exact ordered.start_le (inside.subset List.mem_cons_self)
  · obtain ⟨before, last, rfl⟩ :=
      (List.eq_nil_or_concat' part).resolve_left nonempty
    rw [stop_hull_append (List.cons_ne_nil _ _), hull_singleton]
    exact ordered.le_stop (inside.subset (by simp))

/--
The hulls of the first and of the last of some tokens make the hull of all.
-/
theorem merge_hull
    {before between after : List Token}
    (ordered : Ordered (before ++ (between ++ after)))
    (nonempty : before ≠ [])
    (nonemptyAfter : after ≠ []) :
    (hull before).merge (hull after) = hull (before ++ (between ++ after)) := by
  have first := ordered.contains_hull (List.prefix_append _ _).isInfix nonempty
  have last :=
    ordered.contains_hull ((List.suffix_append between after).trans
      (List.suffix_append before _)).isInfix nonemptyAfter
  rw [Span.contains_iff] at first last
  have start := start_hull_append nonempty (between ++ after)
  have stop : (hull (before ++ (between ++ after))).stop =
      (hull after).stop := by
    rw [← List.append_assoc, stop_hull_append nonemptyAfter]
  rw [start] at last
  rw [stop] at first
  rw [Span.merge, Nat.min_eq_left last.1, Nat.max_eq_right first.2,
    ← start, ← stop]

end Ordered

/-! ## The tokens that a reading takes -/

namespace State

/-- What is reached after some tokens were taken. -/
def reachedAfter
    (reached : Nat)
    (tokens : List Token) :
    Nat :=
  tokens.getLast?.elim reached (fun token => token.span.stop)

/--
The offset reached after two runs of tokens is the one after the second, from
the one after the first.
-/
theorem reachedAfter_append
    (reached : Nat)
    (first second : List Token) :
    reachedAfter reached (first ++ second) =
      reachedAfter (reachedAfter reached first) second := by
  rcases List.eq_nil_or_concat' second with rfl | ⟨others, last, rfl⟩
  · rw [List.append_nil]
    rfl
  · rw [← List.append_assoc, reachedAfter, reachedAfter, List.getLast?_concat,
      List.getLast?_concat]
    rfl

/-- From one state to another just these tokens were taken. -/
structure TakesOnly
    (before : State)
    (tokens : List Token)
    (after : State) :
    Prop where
  ahead : before.rest = tokens ++ after.rest
  reached : after.reached = reachedAfter before.reached tokens
  stop : after.stop = before.stop

theorem takesOnly_refl (state : State) : state.TakesOnly [] state :=
  ⟨rfl, rfl, rfl⟩

theorem TakesOnly.trans
    {before middle after : State}
    {first second : List Token}
    (earlier : before.TakesOnly first middle)
    (later : middle.TakesOnly second after) :
    before.TakesOnly (first ++ second) after := by
  refine ⟨?_, ?_, later.stop.trans earlier.stop⟩
  · rw [earlier.ahead, later.ahead, List.append_assoc]
  · rw [later.reached, earlier.reached, reachedAfter_append]

/--
Where only these tokens were taken, the offset reached is
the end of their hull.
-/
theorem TakesOnly.reached_eq_hull
    {before after : State}
    {tokens : List Token}
    (taken : before.TakesOnly tokens after)
    (nonempty : tokens ≠ []) :
    after.reached = (hull tokens).stop := by
  rw [taken.reached, reachedAfter, hull]
  cases last : tokens.getLast? with
  | none => exact absurd (List.getLast?_eq_none_iff.mp last) nonempty
  | some token => rfl

/-- To take a token takes only that token. -/
theorem takesOnly_advance (state : State) :
    state.TakesOnly (state.rest.take 1) state.advance := by
  rw [advance]
  split
  · next ended =>
      rw [ended]
      exact takesOnly_refl state
  · next token rest ahead =>
      rw [ahead]
      exact ⟨ahead, rfl, rfl⟩

/-- A move without a report only takes tokens. -/
theorem Move.exists_takesOnly
    {before after : State}
    (move : Move before after)
    (quiet : after.reports = before.reports)
    (calm : before.Calm) :
    ∃ tokens, before.TakesOnly tokens after := by
  cases move with
  | advance => exact ⟨_, takesOnly_advance before⟩
  | report report => exact absurd quiet (List.cons_ne_self _ _)
  | reportHere cause => exact absurd quiet (List.cons_ne_self _ _)
  | fail cause =>
      rw [calm.reports_fail] at quiet
      exact absurd quiet (List.cons_ne_self _ _)
  | cutOff =>
      rw [calm.reports_cutOff] at quiet
      exact absurd quiet (List.cons_ne_self _ _)
  | recovered => exact ⟨[], rfl, rfl, rfl⟩

/-- Moves without a report only take tokens. -/
theorem Reaches.exists_takesOnly
    {before after : State}
    (reaches : Reaches before after)
    (quiet : after.reports = before.reports)
    (calm : before.Calm) :
    ∃ tokens, before.TakesOnly tokens after := by
  induction reaches with
  | refl => exact ⟨[], takesOnly_refl before⟩
  | @step middle last earlier move hypothesis =>
      have middleQuiet := earlier.quiet_between move.reaches quiet
      obtain ⟨first, firstTaken⟩ := hypothesis middleQuiet
      obtain ⟨second, secondTaken⟩ :=
        move.exists_takesOnly (quiet.trans middleQuiet.symm)
          (earlier.calm middleQuiet calm)
      exact ⟨first ++ second, firstTaken.trans secondTaken⟩

end State

namespace Rule

variable {α : Type} {rule : Rule α} {state next : State} {value : α}
    {tokens : List Token}

/--
A reading without a report only takes the tokens that are missing at its end.
-/
theorem Reads.takesOnly
    (reads : Reads rule state value next)
    (shape : state.rest = tokens ++ next.rest) :
    state.TakesOnly tokens next := by
  have reaches := rule.reaches state
  rw [reads.run] at reaches
  obtain ⟨others, taken⟩ := reaches.exists_takesOnly reads.quiet reads.calm
  have same := taken.ahead
  rw [shape] at same
  rwa [List.append_cancel_right same]

/--
Behind a token taken, a reading reaches to
the end of the last token that it takes.
-/
theorem Reads.reached_after
    {token : Token}
    {rest : List Token}
    (reads : Reads rule state.advance value next)
    (ahead : state.rest = token :: rest)
    (shape : state.advance.rest = tokens ++ next.rest) :
    next.reached = (hull (token :: tokens)).stop := by
  have first := State.takesOnly_advance state
  rw [ahead, List.take_succ_cons, List.take_zero] at first
  exact (first.trans (reads.takesOnly shape)).reached_eq_hull
    (List.cons_ne_nil _ _)

/--
A reading reaches from the beginning to the end of the tokens that it takes.
-/
theorem Reads.extent
    (reads : Reads rule state value next)
    (shape : state.rest = tokens ++ next.rest)
    (nonempty : tokens ≠ [])
    (ordered : Ordered tokens) :
    (⟨state.start, max next.reached state.start⟩ : Span) = hull tokens := by
  have reached := (reads.takesOnly shape).reached_eq_hull nonempty
  have start : state.start = (hull tokens).start := by
    cases tokens with
    | nil => exact absurd rfl nonempty
    | cons token rest => rw [State.start, State.current_of_rest shape]; rfl
  rw [reached, start, Nat.max_eq_left ordered.proper_hull]

end Rule

/-! ## States in order -/

/--
The tokens ahead are in order, behind what
was reached and before the end of the file.
-/
structure State.InOrder (state : State) : Prop where
  ahead : Ordered state.rest
  behind : ∀ token ∈ state.rest, state.reached ≤ token.span.start
  before : ∀ token ∈ state.rest, token.span.stop ≤ state.stop.start
  reached : state.reached ≤ state.stop.start

/--
The tokens that are left are in order, and stand behind the offset reached.
-/
theorem State.InOrder.of_takesOnly
    {before after : State}
    {tokens : List Token}
    (order : before.InOrder)
    (taken : before.TakesOnly tokens after) :
    after.InOrder := by
  have ordered := order.ahead
  have bounded := order.before
  rw [taken.ahead] at ordered bounded
  have ends : ∀ token ∈ tokens ++ after.rest,
      token.span.stop ≤ after.stop.start := by
    rw [taken.stop]
    exact bounded
  refine ⟨ordered.of_infix (List.suffix_append _ _).isInfix, ?_,
    fun token member => ends token (List.mem_append_right _ member), ?_⟩
  · intro token member
    rw [taken.reached]
    rcases List.eq_nil_or_concat' tokens with rfl | ⟨others, last, rfl⟩
    · exact order.behind token (by rwa [taken.ahead])
    · rw [State.reachedAfter, List.getLast?_concat]
      exact (List.pairwise_append.mp ordered.apart).2.2 last
        (by simp) token member
  · rw [taken.reached]
    rcases List.eq_nil_or_concat' tokens with rfl | ⟨others, last, rfl⟩
    · rw [taken.stop]
      exact order.reached
    · rw [State.reachedAfter, List.getLast?_concat]
      exact ends last (by simp)

theorem State.InOrder.reached_le_start
    {state : State}
    (order : state.InOrder) :
    state.reached ≤ state.start := by
  rw [State.start, State.current]
  cases shape : state.rest with
  | nil => exact order.reached
  | cons token rest =>
      exact order.behind token (by rw [shape]; exact List.mem_cons_self)

/-- A reading without a report keeps the tokens ahead in order. -/
theorem Rule.Reads.inOrder
    {α : Type}
    {rule : Rule α}
    {state next : State}
    {value : α}
    (reads : Reads rule state value next)
    (order : state.InOrder) :
    next.InOrder := by
  have reaches := rule.reaches state
  rw [reads.run] at reaches
  obtain ⟨tokens, taken⟩ := reaches.exists_takesOnly reads.quiet reads.calm
  exact order.of_takesOnly taken

theorem State.start_of_takesOnly_nil
    {before after : State}
    (taken : before.TakesOnly [] after) :
    after.start = before.start := by
  have ahead : after.rest = before.rest := taken.ahead.symm
  rw [State.start, State.start, State.current, State.current, ahead, taken.stop]

theorem State.InOrder.advance
    {state : State}
    (order : state.InOrder) :
    state.advance.InOrder :=
  order.of_takesOnly state.takesOnly_advance

end Grammar

end Clipper
