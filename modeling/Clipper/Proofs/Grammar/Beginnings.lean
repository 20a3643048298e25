import Clipper.Proofs.Grammar.ExpressionSpans
import Clipper.Proofs.Grammar.Reads

/-!
# Where an expression begins

A reading goes along offsets: the beginnings of the tokens ahead and of the ends
of the token list.  The list of these offsets only becomes shorter.  So where
the tokens stand in order, an expression does not begin before the token that is
ahead when its reading starts, nor behind the one that is ahead when its reading
ends.

The two bounds are proved as two judgements.  `YieldsBehind` follows a lower
bound on the offsets ahead through the rules, and says that all spans which
are made begin behind it; `Begun` says that a span begins at or before the
token ahead at the end.  The reports of bad targets are placed by the
beginning of an expression, so it is these bounds that decide how far back
such a report can stand.
-/

namespace Clipper

namespace Span

/-- The merge of spans that all begin behind a bound begins behind it. -/
theorem le_start_mergeAll
    {low : Nat}
    {span : Span}
    {others : List Span}
    (first : low ≤ span.start)
    (rest : ∀ other ∈ others, low ≤ other.start) :
    low ≤ (span.mergeAll others).start := by
  induction others generalizing span with
  | nil => exact first
  | cons other others hypothesis =>
      rw [List.forall_mem_cons] at rest
      exact hypothesis (Nat.le_min.mpr ⟨first, rest.1⟩) rest.2

theorem start_mergeAll_le
    (span : Span)
    (others : List Span) :
    (span.mergeAll others).start ≤ span.start :=
  ((contains_iff _ _).mp (contains_mergeAll_self span others)).1

end Span

namespace Grammar

open Rule

/-! ## The offsets ahead -/

namespace State

/--
The offsets at which tokens ahead begin,
and those of the ends of the token list.
-/
def offsetsAhead (state : State) : List Nat :=
  state.rest.map (·.span.start) ++ [state.stop.start, state.final.start]

/-- The offsets ahead do not decrease. -/
def Sorted (state : State) : Prop :=
  state.offsetsAhead.Pairwise (· ≤ ·)

theorem offsetsAhead_eq_cons (state : State) :
    ∃ later, state.offsetsAhead = state.start :: later := by
  rw [offsetsAhead, start, current]
  cases state.rest with
  | nil => exact ⟨_, rfl⟩
  | cons token rest => exact ⟨_, rfl⟩

theorem start_mem_offsetsAhead (state : State) :
    state.start ∈ state.offsetsAhead := by
  obtain ⟨later, shape⟩ := state.offsetsAhead_eq_cons
  rw [shape]
  exact List.mem_cons_self

theorem Sorted.start_le
    {state : State}
    (sorted : state.Sorted) :
    ∀ offset ∈ state.offsetsAhead, state.start ≤ offset := by
  obtain ⟨later, shape⟩ := state.offsetsAhead_eq_cons
  rw [Sorted, shape, List.pairwise_cons] at sorted
  rw [shape]
  exact List.forall_mem_cons.mpr ⟨Nat.le_refl _, sorted.1⟩

theorem offsetsAhead_sublist
    {before after : State}
    (suffix : after.rest <:+ before.rest)
    (stop : after.stop = before.stop)
    (final : after.final = before.final) :
    after.offsetsAhead.Sublist before.offsetsAhead := by
  rw [offsetsAhead, offsetsAhead, stop, final]
  exact (suffix.sublist.map _).append_right _

@[simp]
theorem stop_advance (state : State) : state.advance.stop = state.stop := by
  unfold advance
  split <;> rfl

@[simp]
theorem final_advance (state : State) : state.advance.final = state.final := by
  unfold advance
  split <;> rfl

@[simp]
theorem stop_recover (state : State) : state.recover.stop = state.stop := by
  unfold recover
  dsimp only
  split
  · exact stop_advance _
  · rfl

@[simp]
theorem final_recover (state : State) : state.recover.final = state.final := by
  unfold recover
  dsimp only
  split
  · exact final_advance _
  · rfl

/--
A move drops some of the offsets ahead; the last of them may also stand for all.
-/
theorem Move.offsetsAhead
    {before after : State}
    (move : Move before after) :
    after.offsetsAhead.Sublist before.offsetsAhead ∨
      after.offsetsAhead = [before.final.start, before.final.start] := by
  cases move with
  | advance =>
      exact .inl (offsetsAhead_sublist (advance_suffix before) (stop_advance _)
        (final_advance _))
  | report | reportHere | recovered => exact .inl (.refl _)
  | fail cause =>
      left
      rw [State.fail]
      split
      · exact .refl _
      · exact offsetsAhead_sublist (recover_suffix (before.addHere cause))
          (stop_recover _) (final_recover _)
  | cutOff =>
      right
      rw [State.cutOff]
      split <;> rfl

theorem Move.offsetsAhead_subset
    {before after : State}
    (move : Move before after) :
    after.offsetsAhead ⊆ before.offsetsAhead := by
  rcases move.offsetsAhead with fewer | last
  · exact fewer.subset
  · rw [last]
    simp [State.offsetsAhead]

/-- The offsets ahead stay in order. -/
def sorted : Invariant where
  holds := Sorted
  kept before after move inOrder := by
    rcases move.offsetsAhead with fewer | last
    · exact inOrder.sublist fewer
    · rw [Sorted, last]
      simp

/-- The offsets ahead stay behind an offset. -/
def behind (low : Nat) : Invariant where
  holds state := ∀ offset ∈ state.offsetsAhead, low ≤ offset
  kept _ _ move behind offset member :=
    behind offset (move.offsetsAhead_subset member)

theorem Sorted.behind_start
    {state : State}
    (inOrder : state.Sorted) :
    (behind state.start).holds state :=
  inOrder.start_le

end State

/--
In a list in order, a rule ends at the offset where it starts or behind it.
-/
theorem Rule.start_le_start
    {α : Type}
    (rule : Rule α)
    {state : State}
    (inOrder : state.Sorted) :
    state.start ≤ (rule.run state).2.start :=
  (State.behind state.start).after rule inOrder.behind_start _
    (State.start_mem_offsetsAhead _)

/-! ## No earlier than the reading -/

variable {low : Nat}

/--
From offsets behind another one, a rule
yields an expression that begins behind it.
-/
abbrev YieldsBehind
    (low : Nat)
    (rule : Rule Expr) :
    Prop :=
  rule.Yields (State.behind low) (low ≤ ·.span.start)

theorem State.behind_start
    {state : State}
    (holds : (behind low).holds state) :
    low ≤ state.start :=
  holds _ state.start_mem_offsetsAhead

open Rule.Yields

namespace Rule.Yields

theorem behind_current :
    (Rule.ask State.current).Yields (State.behind low) (low ≤ ·.span.start) :=
  fun _ holds => State.behind_start holds

theorem behind_advance :
    Rule.advance.Yields (State.behind low) (low ≤ ·.span.start) :=
  fun _ holds => State.behind_start holds

theorem behind_spanFrom
    {offset : Nat}
    (order : low ≤ offset) :
    (Rule.spanFrom offset).Yields (State.behind low) (low ≤ ·.start) :=
  fun _ _ => order

theorem behind_expectName (place : NamePlace) :
    (Rule.expectName place).Yields (State.behind low) (low ≤ ·.span.start) := by
  refine bind behind_current fun token order => ?_
  refine ite (fun _ => ?_) (fun _ => ?_)
  · exact bind (any _) fun _ _ => pure order
  · exact bind (any _) fun _ _ => pure order

end Rule.Yields

theorem behind_placeholderHere : YieldsBehind low placeholderHere :=
  fun _ holds => State.behind_start holds

theorem behind_tooDeep : YieldsBehind low tooDeep :=
  bind (any _) fun _ _ => behind_placeholderHere

theorem behind_unlessRecovering
    {rule : Rule Expr}
    (ruleBehind : YieldsBehind low rule) :
    YieldsBehind low (unlessRecovering rule) :=
  bind (any _) fun _ _ =>
    ite (fun _ => behind_placeholderHere) (fun _ => ruleBehind)

section

variable {nested : Rule Expr} (nestedBehind : YieldsBehind low nested)

include nestedBehind

/-- A message makes nodes that begin behind the bound. -/
theorem behind_message :
    (message nested).Yields (State.behind low)
      (fun form => ∀ node ∈ form.nodes, low ≤ node.span.start) := by
  refine bind (behind_expectName .colon) fun name nameBehind => ?_
  have alone : ∀ node ∈ (SuffixForm.property name).nodes,
      low ≤ node.span.start := by
    simpa [SuffixForm.nodes, Node.span] using nameBehind
  refine bind (any _) fun _ _ => ite (fun _ => pure alone) fun _ => ?_
  refine bind (any _) fun _ _ => ite (fun _ => ?_) (fun _ => pure alone)
  refine bind (enclosed nestedBehind .rightParenthesis .arguments)
    fun arguments hold => ?_
  refine pure (List.forall_mem_cons.mpr ⟨nameBehind, ?_⟩)
  simpa [Node.span] using hold

/--
A suffix makes nodes that begin behind the bound, whichever
of the signs opens it.
-/
theorem behind_suffixForm?
    {kind : TokenKind}
    {rule : Rule SuffixForm}
    (opened : suffixForm? nested kind = some rule) :
    rule.Yields (State.behind low)
      (fun form => ∀ node ∈ form.nodes, low ≤ node.span.start) := by
  unfold suffixForm? at opened
  split at opened
  · cases opened
    refine bind (enclosed nestedBehind .rightParenthesis .arguments)
      fun arguments hold => ?_
    exact pure (by simpa [SuffixForm.nodes, Node.span] using hold)
  · cases opened
    refine bind nestedBehind fun position order => bind (any _) fun _ _ => ?_
    exact pure (by simpa [SuffixForm.nodes, Node.span] using order)
  · cases opened
    exact behind_message nestedBehind
  · cases opened
    refine bind (behind_expectName .arrow) fun column order => ?_
    exact pure (by simpa [SuffixForm.nodes, Node.span] using order)
  · cases opened

/-- All suffixes of an operand make nodes that begin behind the bound. -/
theorem behind_suffixes :
    (Rule.many (suffix? nested)).Yields (State.behind low)
      (fun suffixes =>
        ∀ suffix ∈ suffixes, ∀ node ∈ suffix.form.nodes,
          low ≤ node.span.start) := by
  refine Rule.Yields.many fun _ token _ rule _ _ opened => ?_
  obtain ⟨form, formOpened, rfl⟩ := Option.map_eq_some_iff.mp opened
  refine bind (behind_suffixForm? nestedBehind formOpened)
    fun form partsBehind => ?_
  exact bind (any _) fun _ _ => pure partsBehind

theorem behind_parenthesized : YieldsBehind low (parenthesized nested) := by
  refine bind behind_advance fun opening order =>
    bind nestedBehind fun inner innerOrder => ?_
  refine bind (any _) fun _ _ =>
    bind (behind_spanFrom order) fun span spanOrder => ?_
  refine pure ?_
  rw [Expr.span_withSpan]
  exact Nat.le_min.mpr ⟨spanOrder, innerOrder⟩

theorem behind_arrayLiteral : YieldsBehind low (arrayLiteral nested) := by
  refine bind behind_advance fun opening order => ?_
  refine bind (enclosed nestedBehind .rightBrace .arrayElements)
    fun elements hold => ?_
  refine bind (behind_spanFrom order) fun span spanOrder => pure ?_
  exact Span.le_start_mergeAll spanOrder (List.forall_mem_map.mpr hold)

theorem behind_codeBlock : YieldsBehind low (codeBlock nested) := by
  refine bind behind_advance fun opening order => bind (any _) fun _ _ => ?_
  refine bind (enclosed (behind_expectName .bar) .bar .codeBlockParameters)
    fun parameters holdNames => ?_
  refine bind (enclosed nestedBehind .rightBrace .codeBlock) fun body hold => ?_
  refine bind (behind_spanFrom order) fun span spanOrder => pure ?_
  refine Span.le_start_mergeAll spanOrder (List.forall_mem_append.mpr ⟨?_, ?_⟩)
  · exact List.forall_mem_map.mpr holdNames
  · exact List.forall_mem_map.mpr hold

/-- A primary begins behind the bound, and so do its parts. -/
theorem behind_primary : YieldsBehind low (primary nested) := by
  refine bind behind_current fun token order => ?_
  split
  · exact bind (any _) fun _ _ => pure order
  · split
    · exact bind (any _) fun _ _ => pure order
    · exact behind_parenthesized nestedBehind
    · refine bind (any _) fun _ _ => ite (fun _ => ?_) (fun _ => ?_)
      · exact behind_codeBlock nestedBehind
      · exact behind_arrayLiteral nestedBehind
    · refine bind behind_current fun found foundOrder => ?_
      exact bind (any _) fun _ _ => bind (any _) fun _ _ => pure foundOrder
    · refine bind behind_current fun found foundOrder => ?_
      exact bind (any _) fun _ _ => pure foundOrder

/--
Suffixes whose parts begin behind an offset
leave the beginning of an expression behind it.
-/
theorem behind_suffixed : YieldsBehind low (suffixed nested) := by
  refine bind (behind_primary nestedBehind) fun target targetOrder => ?_
  refine bind (behind_suffixes nestedBehind) fun suffixes hold => pure ?_
  induction suffixes generalizing target with
  | nil => exact targetOrder
  | cons suffix rest hypothesis =>
      rw [List.forall_mem_cons] at hold
      refine hypothesis _ ?_ hold.2
      rw [Suffix.span_apply]
      refine Span.le_start_mergeAll targetOrder
        (List.forall_mem_cons.mpr ⟨targetOrder, ?_⟩)
      exact List.forall_mem_map.mpr hold.1

theorem behind_prefixed (operator : UnaryOperator) :
    YieldsBehind low (prefixed nested operator) := by
  refine bind behind_advance fun token order =>
    bind nestedBehind fun inner innerOrder => ?_
  refine bind (behind_spanFrom order) fun span spanOrder => pure ?_
  exact Nat.le_min.mpr ⟨spanOrder, innerOrder⟩

/-- A chain of one level begins behind the bound, if its operands do. -/
theorem behind_chain (level : Nat) : YieldsBehind low (chain level nested) := by
  have othersYield :
      (Rule.many (rightOperand? level nested)).Yields (State.behind low)
        (fun others => ∀ other ∈ others, low ≤ other.2.span.start) := by
    refine Rule.Yields.many fun _ token _ rule _ _ opened => ?_
    unfold rightOperand? at opened
    split at opened
    · split at opened
      · cases opened
        exact bind nestedBehind fun _ order => pure order
      · cases opened
    · cases opened
  refine bind nestedBehind fun first firstOrder =>
    bind othersYield fun others hold => pure ?_
  induction others generalizing first with
  | nil => exact firstOrder
  | cons other rest hypothesis =>
      rw [List.forall_mem_cons] at hold
      exact hypothesis _ (Nat.le_min.mpr ⟨firstOrder, hold.1⟩) hold.2

theorem behind_binary : YieldsBehind low (binary nested) := by
  unfold binary
  iterate 6 apply behind_chain
  exact nestedBehind

end

/-- An operand begins behind the bound, with any number of levels left. -/
theorem behind_operand (levels : Nat) : YieldsBehind low (operand levels) := by
  induction levels with
  | zero =>
      refine bind (any _) fun _ _ => ?_
      split
      · exact behind_tooDeep
      · exact behind_suffixed (behind_unlessRecovering behind_tooDeep)
  | succ levels hypothesis =>
      refine bind (any _) fun _ _ => ?_
      split
      · exact behind_prefixed hypothesis _
      · exact behind_suffixed
          (behind_unlessRecovering (behind_binary hypothesis))

/--
An expression does not begin before the offsets that are ahead of its reading.
-/
theorem behind_expression (levels : Nat) :
    YieldsBehind low (expression levels) := by
  cases levels with
  | zero => exact behind_unlessRecovering behind_tooDeep
  | succ levels =>
      exact behind_unlessRecovering (behind_binary (behind_operand levels))

/-! ## No later than what is ahead -/

/--
From offsets in order, a rule leads to an offset where its expression has begun.
-/
def Begun (rule : Rule Expr) : Prop :=
  ∀ state : State, state.Sorted →
    (rule.run state).1.span.start ≤ (rule.run state).2.start

/-- A rule whose expression begins with the token ahead, or before it. -/
theorem Begun.of_start
    {rule : Rule Expr}
    (begins : ∀ state : State, (rule.run state).1.span.start ≤ state.start) :
    Begun rule :=
  fun state inOrder => Nat.le_trans (begins state) (rule.start_le_start inOrder)

/-- A question and what its answer asks for. -/
theorem Begun.ask
    {α : Type}
    {question : State → α}
    {next : α → Rule Expr}
    (begun : ∀ value, Begun (next value)) :
    Begun (Rule.ask question >>= next) :=
  fun state => begun _ state

/-- A choice between two rules begins where either of them does. -/
theorem Begun.ite
    {condition : Prop}
    [Decidable condition]
    {first second : Rule Expr}
    (yes : Begun first)
    (no : Begun second) :
    Begun (if condition then first else second) := by
  split
  · exact yes
  · exact no

/-- What comes after an expression may only move its beginning forward. -/
theorem Begun.bind
    {α : Type}
    {rule : Rule Expr}
    {rest : Rule α}
    {change : Expr → α → Expr}
    (begun : Begun rule)
    (wider : ∀ first others, (change first others).span.start ≤
      first.span.start) :
    Begun (do
      let first ← rule
      let others ← rest
      Pure.pure (change first others)) := by
  intro state inOrder
  have middle : (rule.run state).2.Sorted := State.sorted.after rule inOrder
  exact Nat.le_trans (wider _ _)
    (Nat.le_trans (begun state inOrder) (rest.start_le_start middle))

theorem begun_placeholderHere : Begun placeholderHere :=
  .of_start fun _ => Nat.le_refl _

theorem begun_tooDeep : Begun tooDeep :=
  fun _ _ => Nat.le_refl _

theorem Begun.unlessRecovering
    {rule : Rule Expr}
    (begun : Begun rule) :
    Begun (unlessRecovering rule) :=
  .ask fun _ => .ite begun_placeholderHere begun

variable {nested : Rule Expr}

/-- A primary does not begin behind the token that is ahead when it ends. -/
theorem begun_primary : Begun (primary nested) := by
  refine .of_start fun state => ?_
  unfold primary
  rw [run_bind]
  dsimp only [Rule.ask]
  split
  · exact Nat.le_refl _
  · split
    · exact Nat.le_refl _
    · change (Expr.span (Expr.withSpan _ _)).start ≤ _
      rw [Expr.span_withSpan]
      exact Nat.min_le_left _ _
    · rw [run_bind]
      split
      · exact Span.start_mergeAll_le _ _
      · exact Span.start_mergeAll_le _ _
    · exact Nat.le_refl _
    · exact Nat.le_refl _

/--
Suffixes never move the beginning of an expression behind that of its target.
-/
theorem start_foldl_apply_le
    (suffixes : List Suffix)
    (target : Expr) :
    (suffixes.foldl Suffix.apply target).span.start ≤ target.span.start := by
  induction suffixes generalizing target with
  | nil => exact Nat.le_refl _
  | cons suffix rest hypothesis =>
      refine Nat.le_trans (hypothesis _) ?_
      rw [Suffix.span_apply]
      exact Span.start_mergeAll_le _ _

theorem start_foldl_joinRight_le
    (others : List (BinaryOperator × Expr))
    (first : Expr) :
    (others.foldl joinRight first).span.start ≤ first.span.start := by
  induction others generalizing first with
  | nil => exact Nat.le_refl _
  | cons other rest hypothesis =>
      exact Nat.le_trans (hypothesis _) (Nat.min_le_left _ _)

theorem begun_suffixed : Begun (suffixed nested) :=
  begun_primary.bind fun target suffixes => start_foldl_apply_le suffixes target

theorem begun_prefixed (operator : UnaryOperator) :
    Begun (prefixed nested operator) :=
  .of_start fun _ => Nat.min_le_left _ _

theorem Begun.chain
    (begun : Begun nested)
    (level : Nat) :
    Begun (chain level nested) :=
  begun.bind fun first others => start_foldl_joinRight_le others first

theorem Begun.binary (begun : Begun nested) : Begun (binary nested) :=
  (((((begun.chain 6).chain 5).chain 4).chain 3).chain 2).chain 1

/--
An operand does not begin behind the token that is ahead when it ends, with
any number of levels left.
-/
theorem begun_operand (levels : Nat) : Begun (operand levels) := by
  cases levels with
  | zero =>
      refine .ask fun kind => ?_
      split
      · exact begun_tooDeep
      · exact begun_suffixed
  | succ levels =>
      refine .ask fun kind => ?_
      split
      · exact begun_prefixed _
      · exact begun_suffixed

/-- An expression begins no later than the token that is ahead behind it. -/
theorem begun_expression (levels : Nat) : Begun (expression levels) := by
  cases levels with
  | zero => exact begun_tooDeep.unlessRecovering
  | succ levels => exact (begun_operand levels).binary.unlessRecovering

end Grammar

end Clipper
