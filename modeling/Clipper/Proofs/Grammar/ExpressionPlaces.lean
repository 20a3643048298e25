import Clipper.Proofs.Grammar.ExpressionSound
import Clipper.Proofs.Grammar.ExpressionSpans
import Clipper.Proofs.Grammar.Places

/-!
# The tokens under an expression

Where tokens in the order of their text are read as an expression without a
report, every expression in the tree stands on some of them: these tokens alone
spell it, and its span is their hull.  Every rule shows two things, that the
span of the tree is the hull of the tokens taken and that each child stands on
some of these.  The loops over suffixes and operators keep both, for the trees
they make on the way are in the tree.

`Exactly` is the judgement about a whole expression, and `Laid` the one about
a primary; both hold the phrase that the tokens spell, since the children of
an expression must be spelled as well as placed.  Parentheses set the span of
an expression anew, without making a node, so the same tree may stand on more
tokens than it had before.
-/

namespace Clipper.Grammar

open Rule Node

/--
The span of the expression is the hull of
the tokens, and its parts are held by them.
-/
def Laid
    (tokens : List Token)
    (tree : Expr) :
    Prop :=
  Ordered tokens →
    tree.span = hull tokens ∧ ∀ child ∈ children (.expression tree),
    Held tokens child

/-- A phrase of expressions together with the places of all parts. -/
def Exactly (phrase : Phrase Expr) : Phrase Expr :=
  fun tokens tree => phrase tokens tree ∧ Laid tokens tree

/--
A node whose tokens spell it exactly is held by these tokens: it stands on
them, and so do its parts.
-/
theorem held_of_exactly
    {phrase : Phrase Expr}
    (embeds : phrase.Implies (ExpressionPhrase nestingLimit))
    {tokens part : List Token}
    {value : Expr}
    (exact : Exactly phrase part value)
    (ordered : Ordered tokens)
    (inside : part <:+: tokens) :
    Held tokens (.expression value) := by
  obtain ⟨span, below⟩ := exact.2 (ordered.of_infix inside)
  have stands : StandsOn value part := ⟨embeds exact.1, span⟩
  have placed : Placed part (.expression value) := by
    apply Everywhere.of_children
    · exact ⟨part, List.infix_refl part, stands⟩
    · exact fun child member => (below child member).placed
  refine ⟨placed.mono inside, ?_⟩
  change (hull tokens).contains value.span = true
  rw [span]
  exact ordered.contains_hull inside (begins_expression _ _ _ stands.spelled).1

/-! ## Lists -/

section

variable {α : Type} {item : Phrase α} {tokens : List Token} {values : List α}

/-- Each item of a list stands on a run of the tokens of the list. -/
theorem SeparatedPhrase.exists_part
    (phrased : SeparatedPhrase item tokens values)
    {value : α}
    (member : value ∈ values) :
    ∃ part, part <:+: tokens ∧ item part value := by
  induction phrased with
  | single only =>
      rw [List.mem_singleton.mp member]
      exact ⟨_, List.infix_refl _, only⟩
  | further first separator rest hypothesis =>
      rcases List.mem_cons.mp member with rfl | later
      · exact ⟨_, (List.prefix_append _ _).isInfix, first⟩
      · obtain ⟨part, inside, phrased⟩ := hypothesis later
        refine ⟨part, inside.trans ?_, phrased⟩
        exact ((List.suffix_cons _ _).trans (List.suffix_append _ _)).isInfix

theorem ListPhrase.exists_part
    (phrased : ListPhrase item tokens values)
    {value : α}
    (member : value ∈ values) :
    ∃ part, part <:+: tokens ∧ item part value := by
  cases phrased with
  | none => cases member
  | some items => exact items.exists_part member

end

/-- A name with its own span. -/
def NameOn (tokens : List Token) (name : Identifier) : Prop :=
  tokens ≠ [] ∧ name.span = hull tokens

theorem nameOn_expectName (place : NamePlace) :
    Sound (expectName place) NameOn := by
  intro state name next reads
  obtain ⟨-, kind, rfl, rfl⟩ := reads_expectName.mp reads
  exact ⟨[state.current], State.rest_of_kind kind (by decide),
    List.cons_ne_nil _ _, rfl⟩

/-- A rule that is sound for two relations is sound for both together. -/
theorem Rule.Sound.and
    {α : Type}
    {rule : Rule α}
    {phrase other : Phrase α}
    (sound : Sound rule phrase)
    (soundOther : Sound rule other) :
    Sound rule (fun tokens value =>
      phrase tokens value ∧ other tokens value) := by
  intro state value next reads
  obtain ⟨tokens, taken, phrased⟩ := sound _ _ _ reads
  obtain ⟨others, takenOther, phrasedOther⟩ := soundOther _ _ _ reads
  rw [taken] at takenOther
  rw [← List.append_cancel_right takenOther] at phrasedOther
  exact ⟨tokens, taken, phrased, phrasedOther⟩

/-- A rule that is sound for a relation is sound for a weaker one. -/
theorem Rule.Sound.mono
    {α : Type}
    {rule : Rule α}
    {phrase other : Phrase α}
    (sound : Sound rule phrase)
    (implies : phrase.Implies other) :
    Sound rule other := by
  intro state value next reads
  obtain ⟨tokens, taken, phrased⟩ := sound _ _ _ reads
  exact ⟨tokens, taken, implies phrased⟩

section

variable
  {phrase : Phrase Expr}
  (embeds : phrase.Implies (ExpressionPhrase nestingLimit))
  {tokens between : List Token}
  (ordered : Ordered tokens)
  (inside : between <:+: tokens)

include ordered inside

include embeds in
theorem held_values
    {values : List Expr}
    (phrased : ListPhrase (Exactly phrase) between values) :
    ∀ node ∈ values.map Node.expression, Held tokens node := by
  intro node member
  obtain ⟨value, isValue, rfl⟩ := List.mem_map.mp member
  obtain ⟨part, partInside, exact⟩ := phrased.exists_part isValue
  exact held_of_exactly embeds exact ordered (partInside.trans inside)

theorem held_names
    {names : List Identifier}
    (phrased : ListPhrase NameOn between names) :
    ∀ node ∈ names.map Node.identifier, Held tokens node := by
  intro node member
  obtain ⟨name, isName, rfl⟩ := List.mem_map.mp member
  obtain ⟨part, partInside, nonempty, span⟩ := phrased.exists_part isName
  exact held_name ordered (partInside.trans inside) nonempty span

end

/-! ## Primaries -/

section

variable
  {nested : Rule Expr}
  {phrase : Phrase Expr}
  (sound : Sound nested (Exactly phrase))
  (embeds : phrase.Implies (ExpressionPhrase nestingLimit))

include sound embeds

/--
An expression between parentheses stands on its tokens, the parentheses among
them: its span is set to their hull.
-/
theorem laid_parenthesized
    {state next : State}
    {tree : Expr}
    (opens : state.kind = .leftParenthesis)
    (reads : Reads (parenthesized nested) state tree next) :
    ∃ tokens, state.rest = tokens ++ next.rest ∧ Laid tokens tree := by
  have whole := reads
  rw [parenthesized, reads_advance_bind] at reads
  obtain ⟨inner, middle, read, continued⟩ := reads_bind.mp reads
  rw [reads_expect_bind, spanFrom, reads_ask_bind, reads_pure] at continued
  obtain ⟨closes, -, rfl, rfl⟩ := continued
  obtain ⟨tokens, taken, exact⟩ := sound _ _ _ read
  have shape :
      state.rest = (state.current :: (tokens ++ [middle.current])) ++
        middle.advance.rest := by
    rw [State.rest_of_kind opens (by decide), taken,
      State.rest_of_kind closes (by decide)]
    simp
  refine ⟨_, shape, fun ordered => ?_⟩
  have inside := List.infix_append' [state.current] tokens [middle.current]
  have held := held_of_exactly embeds exact ordered inside
  have extent := whole.extent shape (List.cons_ne_nil _ _) ordered
  change (⟨state.current.span.start, max _ state.current.span.start⟩ : Span) = _
    at extent
  constructor
  · rw [Expr.span_withSpan, extent]
    exact Span.merge_of_contains held.contained
  · intro child member
    rw [children_withSpan] at member
    obtain ⟨-, below⟩ := exact.2 (ordered.of_infix inside)
    have nonempty := (begins_expression _ _ _ (embeds exact.1)).1
    exact ⟨(below child member).placed.mono inside,
      Span.contains_trans (ordered.contains_hull inside nonempty)
        (below child member).contained⟩

/--
An array stands on the tokens from its brace to the closing one, and so do its
elements among them.
-/
theorem laid_arrayLiteral
    {state next : State}
    {tree : Expr}
    (opens : state.kind = .leftBrace)
    (reads : Reads (arrayLiteral nested) state tree next) :
    ∃ tokens, state.rest = tokens ++ next.rest ∧ Laid tokens tree := by
  have whole := reads
  rw [arrayLiteral, reads_advance_bind] at reads
  obtain ⟨elements, _, read, continued⟩ := reads_bind.mp reads
  rw [spanFrom, reads_ask_bind, reads_pure] at continued
  obtain ⟨-, rfl, rfl⟩ := continued
  obtain ⟨_, taken, tokens, closing, rfl, phrased, closes⟩ :=
    sound.enclosed (by decide) _ _ _ _ read
  have shape : state.rest = (state.current :: (tokens ++ [closing])) ++
      next.rest := by
    rw [State.rest_of_kind opens (by decide), taken, List.cons_append]
  refine ⟨_, shape, fun ordered => ?_⟩
  have held :=
    held_values embeds ordered
      (List.infix_append' [state.current] tokens [closing]) phrased
  have extent := whole.extent shape (List.cons_ne_nil _ _) ordered
  change (⟨state.current.span.start, max _ state.current.span.start⟩ : Span) = _
    at extent
  refine ⟨?_, held⟩
  have merged := mergeAll_held held
  rw [List.map_map] at merged
  change Span.mergeAll _ (elements.map Expr.span) = _
  rw [extent]
  exact merged

/--
A code block stands on the tokens from its brace to the closing one, and so do
its parameters and expressions among them.
-/
theorem laid_codeBlock
    {state next : State}
    {tree : Expr}
    (opens : state.kind = .leftBrace)
    (bars : state.secondKind = .bar)
    (reads : Reads (codeBlock nested) state tree next) :
    ∃ tokens, state.rest = tokens ++ next.rest ∧ Laid tokens tree := by
  have whole := reads
  rw [codeBlock, reads_advance_bind, reads_advance_bind] at reads
  obtain ⟨parameters, middle, named, continued⟩ := reads_bind.mp reads
  obtain ⟨body, _, read, continued⟩ := reads_bind.mp continued
  rw [spanFrom, reads_ask_bind, reads_pure] at continued
  obtain ⟨-, rfl, rfl⟩ := continued
  rw [← State.kind_advance] at bars
  obtain ⟨_, namesTaken, names, secondBar, rfl, namesPhrased, secondBars⟩ :=
    (nameOn_expectName .bar).enclosed (by decide) _ _ _ _ named
  obtain ⟨_, taken, tokens, closing, rfl, phrased, closes⟩ :=
    sound.enclosed (by decide) _ _ _ _ read
  have shape :
      state.rest =
        (state.current :: state.advance.current ::
          (names ++ ([secondBar] ++ (tokens ++ [closing])))) ++ next.rest := by
    rw [State.rest_of_kind opens (by decide),
      State.rest_of_kind bars (by decide), namesTaken, taken]
    simp
  refine ⟨_, shape, fun ordered => ?_⟩
  have heldNames :=
    held_names ordered
      (List.infix_append' [state.current, state.advance.current] names _)
      namesPhrased
  have inside :
      tokens <:+: state.current :: state.advance.current ::
        (names ++ ([secondBar] ++ (tokens ++ [closing]))) := by
    refine ⟨state.current :: state.advance.current :: (names ++ [secondBar]),
      [closing], ?_⟩
    simp
  have heldBody := held_values embeds ordered inside phrased
  have held := List.forall_mem_append.mpr ⟨heldNames, heldBody⟩
  have extent := whole.extent shape (List.cons_ne_nil _ _) ordered
  change (⟨state.current.span.start, max _ state.current.span.start⟩ : Span) = _
    at extent
  refine ⟨?_, held⟩
  have merged := mergeAll_held held
  rw [List.map_append, List.map_map, List.map_map] at merged
  change Span.mergeAll _
    (parameters.map Identifier.span ++ body.map Expr.span) = _
  rw [extent]
  exact merged

omit sound embeds in
/-- A literal or a name stands on the one token ahead. -/
theorem laid_leaf
    {state : State}
    {tree : Expr}
    (span : tree.span = state.current.span)
    (names :
      ∀ child ∈ children (.expression tree), ∃ name,
        child = .identifier name ∧ name.span = state.current.span) :
    Laid [state.current] tree := by
  refine fun ordered => ⟨span, fun child member => ?_⟩
  obtain ⟨name, rfl, nameSpan⟩ := names child member
  exact held_name ordered (List.infix_refl _) (List.cons_ne_nil _ _) nameSpan

/-- A primary stands on the tokens that were taken for it. -/
theorem laid_primary : Sound (primary nested) Laid := by
  intro state tree next reads
  rw [primary, reads_ask_bind] at reads
  split at reads
  · next value isLiteral =>
      rw [reads_advance_bind, reads_pure] at reads
      obtain ⟨-, rfl, rfl⟩ := reads
      have isToken : state.current.kind ≠ .endOfFile := by
        intro ended
        rw [literal?, ended] at isLiteral
        cases isLiteral
      refine ⟨[state.current], State.rest_of_kind rfl isToken, laid_leaf rfl ?_⟩
      exact fun child member => absurd member List.not_mem_nil
  · split at reads
    · next isName =>
        rw [reads_advance_bind, reads_pure] at reads
        obtain ⟨-, rfl, rfl⟩ := reads
        refine ⟨[state.current], State.rest_of_kind isName (by decide),
          laid_leaf rfl ?_⟩
        exact fun child member => ⟨_, List.mem_singleton.mp member, rfl⟩
    · next opens => exact laid_parenthesized sound embeds opens reads
    · next opens =>
        rw [reads_ask_bind] at reads
        split at reads
        · next bars => exact laid_codeBlock sound embeds opens bars reads
        · exact laid_arrayLiteral sound embeds opens reads
    · rw [invalidToken, reads_ask_bind] at reads
      obtain ⟨_, _, reported, -⟩ := reads_bind.mp reads
      exact absurd reported not_reads_reportHere
    · rw [noExpression, reads_ask_bind] at reads
      obtain ⟨_, _, failed, -⟩ := reads_bind.mp reads
      exact absurd failed not_reads_fail

/-! ## Suffixes -/

omit sound embeds in
/--
The parts of a suffix are held by all
tokens among which those of the suffix are.
-/
def HeldForm
    (tokens : List Token)
    (form : SuffixForm) :
    Prop :=
  ∀ ⦃all⦄, Ordered all → tokens <:+: all → ∀ node ∈ form.nodes, Held all node

/--
The name and the arguments of a message stand on tokens that were
taken for the message.
-/
theorem held_message : Sound (message nested) HeldForm := by
  intro state form next reads
  rw [message, reads_expectName_bind, reads_ask_bind] at reads
  obtain ⟨named, reads⟩ := reads
  rw [reads.calm.steady, if_neg Bool.false_ne_true, reads_eat_ite] at reads
  have taken := State.rest_of_kind named (by decide)
  have heldName
      {tokens all : List Token}
      (ordered : Ordered all)
      (inside : state.current :: tokens <:+: all) :
      Held all (.identifier ⟨state.current.lexeme, state.current.span⟩) :=
    held_name ordered ((List.prefix_append [_] tokens).isInfix.trans inside)
      (List.cons_ne_nil _ _) rfl
  rcases reads with ⟨opens, sends⟩ | ⟨-, ended⟩
  · obtain ⟨arguments, _, read, ended⟩ := reads_bind.mp sends
    obtain ⟨-, rfl, rfl⟩ := reads_pure.mp ended
    obtain ⟨_, further, tokens, closing, rfl, between, closes⟩ :=
      sound.enclosed (by decide) _ _ _ _ read
    refine ⟨state.current :: state.advance.current ::
      (tokens ++ [closing]), ?_, ?_⟩
    · rw [taken, State.rest_of_kind opens (by decide), further]
      simp
    · intro all ordered inside
      refine List.forall_mem_cons.mpr ⟨heldName ordered inside, ?_⟩
      have insideTokens :=
        List.infix_append' [state.current, state.advance.current]
          tokens [closing]
      exact held_values embeds ordered (insideTokens.trans inside) between
  · obtain ⟨-, rfl, rfl⟩ := reads_pure.mp ended
    refine ⟨[state.current], taken, fun all ordered inside => ?_⟩
    exact List.forall_mem_cons.mpr
      ⟨heldName ordered inside, List.forall_mem_nil _⟩

/-- The parts of a suffix stand on tokens that were taken for the suffix. -/
theorem held_suffixForm?
    {kind : TokenKind}
    {rule : Rule SuffixForm}
    (opened : suffixForm? nested kind = some rule) :
    Sound rule HeldForm := by
  intro state form next reads
  unfold suffixForm? at opened
  split at opened
  · cases opened
    obtain ⟨arguments, _, read, ended⟩ := reads_bind.mp reads
    obtain ⟨-, rfl, rfl⟩ := reads_pure.mp ended
    obtain ⟨_, taken, tokens, closing, rfl, between, closes⟩ :=
      sound.enclosed (by decide) _ _ _ _ read
    refine ⟨_, taken, fun all ordered inside => ?_⟩
    have insideTokens := (List.prefix_append tokens [closing]).isInfix
    exact held_values embeds ordered (insideTokens.trans inside) between
  · cases opened
    obtain ⟨position, middle, read, continued⟩ := reads_bind.mp reads
    rw [reads_expect_bind, reads_pure] at continued
    obtain ⟨closes, -, rfl, rfl⟩ := continued
    obtain ⟨tokens, taken, exact⟩ := sound _ _ _ read
    refine ⟨tokens ++ [middle.current], ?_, fun all ordered inside => ?_⟩
    · rw [taken, State.rest_of_kind closes (by decide)]
      simp
    · refine List.forall_mem_cons.mpr ⟨?_, List.forall_mem_nil _⟩
      have insideTokens := (List.prefix_append tokens [middle.current]).isInfix
      exact held_of_exactly embeds exact ordered (insideTokens.trans inside)
  · cases opened
    exact held_message sound embeds _ _ _ reads
  · cases opened
    rw [reads_expectName_bind, reads_pure] at reads
    obtain ⟨named, -, rfl, rfl⟩ := reads
    refine ⟨[state.current], State.rest_of_kind named (by decide),
      fun all ordered inside => ?_⟩
    refine List.forall_mem_cons.mpr ⟨?_, List.forall_mem_nil _⟩
    exact held_name ordered inside (List.cons_ne_nil _ _) rfl
  · cases opened

/-- A suffix holds its parts, and its end is the end of the last token taken. -/
theorem held_suffix
    {token : Token}
    {rest : List Token}
    {rule : Rule Suffix}
    {suffix : Suffix}
    {state middle : State}
    (shape : state.rest = token :: rest)
    (opened : suffix? nested token = some rule)
    (reads : Reads rule state.advance suffix middle) :
    ∃ tokens, state.advance.rest = tokens ++ middle.rest ∧
      HeldForm tokens suffix.form ∧
      suffix.stop = (hull (token :: tokens)).stop := by
  have whole := reads
  rw [suffix?, Option.map_eq_some_iff] at opened
  obtain ⟨formRule, opened, rfl⟩ := opened
  obtain ⟨form, _, read, reads⟩ := reads_bind.mp reads
  rw [reads_ask_bind, reads_pure] at reads
  obtain ⟨-, rfl, rfl⟩ := reads
  obtain ⟨tokens, taken, held⟩ :=
    held_suffixForm? sound embeds opened _ _ _ read
  exact ⟨tokens, taken, held, whole.reached_after shape taken⟩

omit sound embeds in
/-- An expression on tokens, prolonged by a suffix on the tokens after them. -/
theorem laid_apply
    (embedsSuffixed : Phrase.Implies (SuffixedPhrase phrase)
      (ExpressionPhrase nestingLimit))
    {before tokens : List Token}
    {token : Token}
    {target : Expr}
    {suffix : Suffix}
    (exact : Exactly (SuffixedPhrase phrase) before target)
    (held : HeldForm tokens suffix.form)
    (stop : suffix.stop = (hull (token :: tokens)).stop) :
    Laid (before ++ token :: tokens) (suffix.apply target) := by
  intro ordered
  have nonempty := (begins_suffixed _ _ _ exact.1).1
  have prefixInfix : before <:+: before ++ token :: tokens :=
    (List.prefix_append _ _).isInfix
  have suffixInfix : tokens <:+: before ++ token :: tokens :=
    ((List.suffix_cons token tokens).trans (List.suffix_append _ _)).isInfix
  have span := (exact.2 (ordered.of_infix prefixInfix)).1
  have base :
      (⟨target.span.start, max suffix.stop target.span.start⟩ : Span) =
        hull (before ++ token :: tokens) := by
    rw [stop, span, ← stop_hull_append (List.cons_ne_nil token tokens) before,
      ← start_hull_append nonempty (token :: tokens),
      Nat.max_eq_left ordered.proper_hull]
  have heldAll :
      ∀ child ∈ children (.expression (suffix.apply target)),
        Held (before ++ token :: tokens) child := by
    rw [Suffix.children_apply]
    exact List.forall_mem_cons.mpr
      ⟨held_of_exactly embedsSuffixed exact ordered prefixInfix,
        held ordered suffixInfix⟩
  refine ⟨?_, heldAll⟩
  rw [Suffix.span_apply, base]
  rw [Suffix.children_apply] at heldAll
  exact mergeAll_held heldAll

/--
An operand with its suffixes stands on exactly the tokens that were taken.
After each suffix the tree so far does, which is the invariant of the loop.
-/
theorem exactly_suffixed
    (embedsSuffixed : Phrase.Implies (SuffixedPhrase phrase)
      (ExpressionPhrase nestingLimit)) :
    Sound (suffixed nested) (Exactly (SuffixedPhrase phrase)) := by
  have spelled : Sound nested phrase := sound.mono fun _ _ exact => exact.1
  have spelledAndLaid := (sound_primary spelled).and (laid_primary sound embeds)
  intro state tree next reads
  rw [suffixed] at reads
  obtain ⟨target, middle, once, reads⟩ := reads_bind.mp reads
  obtain ⟨suffixes, _, again, reads⟩ := reads_bind.mp reads
  obtain ⟨-, rfl, rfl⟩ := reads_pure.mp reads
  obtain ⟨before, taken, phrased, laid⟩ := spelledAndLaid _ _ _ once
  have prolonged : Prolonged phrase before target middle ∧ Laid before target :=
    ⟨⟨.primary phrased, fun ends => absurd ends phrased.not_endsInMessage⟩,
      laid⟩
  obtain ⟨tokens, furtherTaken, all, allLaid⟩ :=
    Reads.many_foldl Suffix.apply
      (fun before target state =>
        Prolonged phrase before target state ∧ Laid before target)
      (fun holds shape opened read => by
        obtain ⟨tokens, taken, after⟩ :=
          prolonged_suffix spelled holds.1 shape opened read
        obtain ⟨others, takenOther, held, stop⟩ :=
          held_suffix sound embeds shape opened read
        rw [taken] at takenOther
        rw [← List.append_cancel_right takenOther] at held stop
        exact ⟨tokens, taken, after,
          laid_apply embedsSuffixed ⟨holds.1.phrased, holds.2⟩ held stop⟩)
      suffixes prolonged again
  refine ⟨before ++ tokens, ?_, all.phrased, allLaid⟩
  rw [taken, furtherTaken, List.append_assoc]

end

/-! ## Operators -/

section

variable {operand : Rule Expr} {phrase : Phrase Expr}
    (sound : Sound operand (Exactly phrase))

include sound

/--
An operand with a prefix operator stands on exactly the
tokens that were taken.
-/
theorem exactly_prefixed
    {nested : Phrase Expr}
    (embeds : phrase.Implies (ExpressionPhrase nestingLimit))
    {operator : UnaryOperator}
    {state next : State}
    {tree : Expr}
    (signs : UnaryOperator.ofKind? state.kind = some operator)
    (reads : Reads (prefixed operand operator) state tree next) :
    ∃ tokens, state.rest = tokens ++ next.rest ∧
      Exactly (PrefixedPhrase phrase nested) tokens tree := by
  have whole := reads
  rw [prefixed, reads_advance_bind] at reads
  obtain ⟨inner, _, read, reads⟩ := reads_bind.mp reads
  rw [spanFrom, reads_ask_bind, reads_pure] at reads
  obtain ⟨-, rfl, rfl⟩ := reads
  obtain ⟨tokens, taken, exact⟩ := sound _ _ _ read
  have isToken : state.kind ≠ .endOfFile := by
    intro ended
    rw [ended] at signs
    cases signs
  have shape : state.rest = (state.current :: tokens) ++ next.rest := by
    rw [State.rest_of_kind rfl isToken, taken, List.cons_append]
  refine ⟨_, shape, .operator signs exact.1 _, fun ordered => ?_⟩
  have held := held_of_exactly embeds exact ordered
      (List.suffix_cons _ tokens).isInfix
  have extent := whole.extent shape (List.cons_ne_nil _ _) ordered
  change (⟨state.current.span.start, max _ state.current.span.start⟩ : Span) = _
    at extent
  refine ⟨?_, List.forall_mem_cons.mpr ⟨held, List.forall_mem_nil _⟩⟩
  change Span.merge _ inner.span = _
  rw [extent]
  exact Span.merge_of_contains held.contained

/-- One more operation to the right of the operands of a level. -/
theorem laid_operation
    {level : Nat}
    (embeds : Phrase.Implies (ChainPhrase level phrase)
      (ExpressionPhrase nestingLimit))
    {before : List Token}
    {left : Expr}
    {state middle : State}
    {sign : Token}
    {rule : Rule (BinaryOperator × Expr)}
    {operation : BinaryOperator × Expr}
    (exact : Exactly (ChainPhrase level phrase) before left)
    (opened : rightOperand? level operand sign = some rule)
    (reads : Reads rule state.advance operation middle) :
    ∃ tokens, state.advance.rest = tokens ++ middle.rest ∧
      Laid (before ++ sign :: tokens) (joinRight left operation) := by
  have embedsOperand : phrase.Implies (ExpressionPhrase nestingLimit) :=
    fun _ _ phrased => embeds (.operand phrased)
  unfold rightOperand? at opened
  split at opened
  · next operator signs =>
      split at opened
      · cases opened
        obtain ⟨right, _, read, reads⟩ := reads_bind.mp reads
        obtain ⟨-, rfl, rfl⟩ := reads_pure.mp reads
        obtain ⟨tokens, taken, exactRight⟩ := sound _ _ _ read
        refine ⟨tokens, taken, fun ordered => ?_⟩
        have prefixInfix : before <:+: before ++ sign :: tokens :=
          (List.prefix_append _ _).isInfix
        have suffixInfix : tokens <:+: before ++ sign :: tokens :=
          ((List.suffix_cons sign tokens).trans
            (List.suffix_append _ _)).isInfix
        have held := held_of_exactly embeds exact ordered prefixInfix
        have heldRight := held_of_exactly embedsOperand exactRight
            ordered suffixInfix
        refine ⟨?_, List.forall_mem_cons.mpr
          ⟨held, List.forall_mem_cons.mpr ⟨heldRight, List.forall_mem_nil _⟩⟩⟩
        have span := (exact.2 (ordered.of_infix prefixInfix)).1
        have spanRight := (exactRight.2 (ordered.of_infix suffixInfix)).1
        change left.span.merge right.span = _
        rw [span, spanRight]
        have nonempty := (begins_expression _ _ _ (embeds exact.1)).1
        have nonemptyRight :=
          (begins_expression _ _ _ (embedsOperand exactRight.1)).1
        have apart : Ordered (before ++ ([sign] ++ tokens)) := ordered
        exact apart.merge_hull nonempty nonemptyRight
      · cases opened
  · cases opened

/--
A chain of one level stands on exactly the tokens that were taken.  After each
operand the tree so far does, which is the invariant of the loop.
-/
theorem exactly_chain
    {level : Nat}
    (embeds : Phrase.Implies (ChainPhrase level phrase)
      (ExpressionPhrase nestingLimit)) :
    Sound (chain level operand) (Exactly (ChainPhrase level phrase)) := by
  have spelled : Sound operand phrase := sound.mono fun _ _ exact => exact.1
  intro state tree next reads
  rw [chain] at reads
  obtain ⟨first, middle, once, reads⟩ := reads_bind.mp reads
  obtain ⟨operations, _, again, reads⟩ := reads_bind.mp reads
  obtain ⟨-, rfl, rfl⟩ := reads_pure.mp reads
  obtain ⟨before, taken, phrased, laid⟩ := sound _ _ _ once
  obtain ⟨tokens, furtherTaken, all⟩ :=
    Reads.many_foldl joinRight
      (fun before left _ => Exactly (ChainPhrase level phrase) before left)
      (fun exact _ opened read => by
        obtain ⟨tokens, taken, after⟩ :=
          chained_operation spelled exact.1 opened read
        obtain ⟨others, takenOther, afterLaid⟩ :=
          laid_operation sound embeds exact opened read
        rw [taken] at takenOther
        rw [← List.append_cancel_right takenOther] at afterLaid
        exact ⟨tokens, taken, after, afterLaid⟩)
      operations ⟨.operand phrased, laid⟩ again
  refine ⟨before ++ tokens, ?_, all⟩
  rw [taken, furtherTaken, List.append_assoc]

/--
An expression of binary operators stands on exactly the
tokens that were taken.
-/
theorem exactly_binary
    (embeds : Phrase.Implies (BinaryPhrase phrase)
      (ExpressionPhrase nestingLimit)) :
    Sound (binary operand) (Exactly (BinaryPhrase phrase)) := by
  -- The operands of each level are what the next lower level makes of one
  -- operand.
  have lower
      {level : Nat}
      {operand : Phrase Expr}
      (embeds : Phrase.Implies (ChainPhrase level operand)
        (ExpressionPhrase nestingLimit)) :
      operand.Implies (ExpressionPhrase nestingLimit) :=
    fun _ _ phrased => embeds (.operand phrased)
  have second := lower embeds
  have third := lower second
  have fourth := lower third
  have fifth := lower fourth
  exact exactly_chain
    (exactly_chain
      (exactly_chain
        (exactly_chain (exactly_chain (exactly_chain sound (lower fifth)) fifth)
          fourth) third)
      second)
    embeds

end

theorem operand_embeds
    {levels : Nat}
    (le : levels + 1 ≤ nestingLimit) :
    (OperandPhrase levels).Implies (ExpressionPhrase nestingLimit) := by
  intro tokens tree phrased
  have expression : ExpressionPhrase (levels + 1) tokens tree :=
    binary_of_operand _ phrased
  exact ExpressionPhrase.mono le expression

theorem exactly_of_never
    {rule : Rule Expr}
    (sound : Sound rule .never)
    (phrase : Phrase Expr) :
    Sound rule (Exactly phrase) :=
  sound.mono fun _ _ impossible => impossible.elim

/--
An operand stands on exactly the tokens that were taken, with any
number of levels left.
-/
theorem exactly_operand
    {levels : Nat}
    (le : levels + 1 ≤ nestingLimit) :
    Sound (operand levels) (Exactly (OperandPhrase levels)) := by
  have embeds := operand_embeds le
  induction levels with
  | zero =>
      intro state tree next reads
      rw [operand, reads_ask_bind] at reads
      split at reads
      · exact exactly_of_never sound_tooDeep _ _ _ _ reads
      · have nested := exactly_of_never sound_tooDeep.unlessRecovering .never
        obtain ⟨tokens, taken, exact⟩ :=
          exactly_suffixed nested (Phrase.never_implies _)
            (fun _ _ phrased => embeds (.suffixed phrased)) _ _ _ reads
        exact ⟨tokens, taken, .suffixed exact.1, exact.2⟩
  | succ levels hypothesis =>
      have leBelow := Nat.le_of_succ_le le
      have embedsDeeper := operand_embeds leBelow
      have deeper := hypothesis leBelow embedsDeeper
      have embedsNested :
          Phrase.Implies (ExpressionPhrase (levels + 1))
            (ExpressionPhrase nestingLimit) :=
        ExpressionPhrase.mono leBelow
      intro state tree next reads
      rw [operand, reads_ask_bind] at reads
      split at reads
      · next operator signs =>
          exact exactly_prefixed deeper embedsDeeper signs reads
      · have nested := (exactly_binary deeper embedsNested).unlessRecovering
        obtain ⟨tokens, taken, exact⟩ :=
          exactly_suffixed nested embedsNested
            (fun _ _ phrased => embeds (.suffixed phrased)) _ _ _ reads
        exact ⟨tokens, taken, .suffixed exact.1, exact.2⟩

/--
Everything in an expression that is read
stands on some of the tokens that were taken.
-/
theorem exactly_expression
    {levels : Nat}
    (le : levels ≤ nestingLimit) :
    Sound (expression levels) (Exactly (ExpressionPhrase levels)) := by
  cases levels with
  | zero => exact exactly_of_never sound_tooDeep.unlessRecovering _
  | succ levels =>
      have embeds :
          Phrase.Implies (ExpressionPhrase (levels + 1))
            (ExpressionPhrase nestingLimit) :=
        ExpressionPhrase.mono le
      exact (exactly_binary (exactly_operand le) embeds).unlessRecovering

end Clipper.Grammar
