import Clipper.Proofs.Grammar.Yields
import Clipper.Proofs.Syntax.Nested

/-!
# Spans of expressions that are read

Whatever tokens are read, the expression that the grammar makes of them is
nested.  The invariant is that the spans of the tokens ahead, of the ends of the
token list and the offset reached are in a family of spans; with the family of
all spans it asks nothing.  A placeholder stands at the token ahead, which may
lie behind the last token taken; therefore every rule merges the spans of all
parts.

The placeholders are the reason for an invariant instead of a statement about
taken tokens.  What a rule makes is then nested by the lemma for its form of
node, and no rule has to know where its parts came from.  With the family of
the spans below a bound the same lemmas show that every span is in order and
inside the text.
-/

namespace Clipper.Grammar

open Node

/-- All spans and offsets that a state can put into a tree are in a family. -/
structure State.Inside
    (family : SpanFamily)
    (state : State) :
    Prop where
  ahead : ∀ token ∈ state.rest, family.span token.span
  stop : family.span state.stop
  final : family.span state.final
  reached : family.offset state.reached

namespace State.Inside

variable {family : SpanFamily} {state : State}

theorem current (inside : state.Inside family) :
    family.span state.current.span := by
  unfold State.current
  split
  · exact inside.stop
  · next token rest shape =>
      exact inside.ahead token (by simp [shape])

theorem start (inside : state.Inside family) : family.offset state.start :=
  family.start inside.current

/--
To take a token adds no span: all that the state can put into a tree stays in
the family.
-/
theorem advance (inside : state.Inside family) :
    state.advance.Inside family := by
  unfold State.advance
  split
  · exact inside
  · next token rest shape =>
      have aheadAll : ∀ other ∈ token :: rest, family.span other.span := by
        simpa [shape] using inside.ahead
      exact
        { ahead := fun other member =>
            aheadAll other (List.mem_cons_of_mem token member)
          stop := inside.stop
          final := inside.final
          reached := family.stop (aheadAll token List.mem_cons_self) }

/-- To skip tokens keeps the offset reached in the family. -/
theorem skipToBoundary
    {reached : Nat}
    {tokens : List Token}
    (reachedInside : family.offset reached)
    (ahead : ∀ token ∈ tokens, family.span token.span) :
    family.offset (Grammar.skipToBoundary reached tokens).1 := by
  induction tokens generalizing reached with
  | nil => exact reachedInside
  | cons token rest hypothesis =>
      unfold Grammar.skipToBoundary
      split
      · exact reachedInside
      · exact hypothesis
          (family.stop (ahead token List.mem_cons_self))
          (fun later member => ahead later (List.mem_cons_of_mem token member))

/-- A recovery keeps the spans in the family. -/
theorem recover (inside : state.Inside family) :
    state.recover.Inside family := by
  have skipped :
      ({ state with
        rest := (Grammar.skipToBoundary state.reached state.rest).2
        reached := (Grammar.skipToBoundary state.reached state.rest).1
        recovering := true } : State).Inside family :=
    { ahead := fun token member =>
        inside.ahead token
          ((skipToBoundary_suffix state.reached state.rest).subset member)
      stop := inside.stop
      final := inside.final
      reached := skipToBoundary inside.reached inside.ahead }
  unfold State.recover
  dsimp only
  split
  · exact skipped.advance
  · exact skipped

/--
Every move keeps the spans in the family, so they are in it
all along a reading.
-/
theorem move
    {before after : State}
    (move : State.Move before after)
    (inside : before.Inside family) :
    after.Inside family := by
  cases move with
  | advance => exact inside.advance
  | report | reportHere | recovered =>
      exact ⟨inside.ahead, inside.stop, inside.final, inside.reached⟩
  | fail cause =>
      unfold State.fail
      split
      · exact inside
      · have reported : (before.addHere cause).Inside family :=
          ⟨inside.ahead, inside.stop, inside.final, inside.reached⟩
        exact reported.recover
  | cutOff =>
      unfold State.cutOff
      dsimp only
      split
      · exact ⟨(fun _ member => by cases member), inside.final, inside.final,
          inside.reached⟩
      · exact ⟨(fun _ member => by cases member), inside.final, inside.final,
          inside.reached⟩

end State.Inside

/-- The spans of a state stay in a family. -/
def State.inside (family : SpanFamily) : State.Invariant where
  holds := State.Inside family
  kept _ _ := State.Inside.move

variable {family : SpanFamily}

/-- From a state inside a family, a rule yields a nested expression. -/
abbrev YieldsNested
    (family : SpanFamily)
    (rule : Rule Expr) :
    Prop :=
  rule.Yields (State.inside family)
    (fun value => Nested family (.expression value))

namespace Rule.Yields

theorem advance :
    Rule.advance.Yields (State.inside family)
      (fun token => family.span token.span) :=
  fun _ inside => inside.current

theorem current :
    (Rule.ask State.current).Yields (State.inside family)
      (fun token => family.span token.span) :=
  fun _ inside => inside.current

theorem start : (Rule.ask State.start).Yields (State.inside family)
    family.offset :=
  fun _ inside => inside.start

theorem reached : (Rule.ask State.reached).Yields (State.inside family)
    family.offset :=
  fun _ inside => inside.reached

theorem spanFrom
    {position : Nat}
    (inside : family.offset position) :
    (Rule.spanFrom position).Yields (State.inside family) family.span :=
  fun _ stateInside => family.upTo inside stateInside.reached

theorem expectName (place : NamePlace) :
    (Rule.expectName place).Yields (State.inside family)
      (fun name => family.span name.span) := by
  refine bind current fun token tokenInside => ?_
  refine ite (fun _ => ?_) (fun _ => ?_)
  · exact bind (any _) fun _ _ => pure tokenInside
  · exact bind (any _) fun _ _ => pure (family.empty (family.start tokenInside))

end Rule.Yields

open Rule.Yields

theorem nested_placeholderHere : YieldsNested family placeholderHere :=
  fun _ inside => nested_placeholder inside.start

theorem nested_tooDeep : YieldsNested family tooDeep :=
  bind (any _) fun _ _ => nested_placeholderHere

theorem nested_unlessRecovering
    {rule : Rule Expr}
    (ruleNested : YieldsNested family rule) :
    YieldsNested family (unlessRecovering rule) :=
  bind (any _) fun _ _ =>
    ite (fun _ => nested_placeholderHere) (fun _ => ruleNested)

/-! ## Suffixes -/

/-- The parts of a suffix. -/
def SuffixForm.nodes : SuffixForm → List Node
  | call arguments => arguments.map .expression
  | index position => [.expression position]
  | property message => [.identifier message]
  | send message arguments => .identifier message :: arguments.map .expression
  | field column => [.identifier column]

/-- A suffix whose parts are nested and whose end is in the family. -/
structure Suffix.Nested
    (family : SpanFamily)
    (suffix : Suffix) :
    Prop where
  parts : ∀ node ∈ suffix.form.nodes, Node.Nested family node
  stop : family.offset suffix.stop

theorem Suffix.children_apply
    (target : Expr)
    (suffix : Suffix) :
    children (.expression (suffix.apply target)) =
      .expression target :: suffix.form.nodes := by
  cases suffix with
  | mk form stop => cases form <;> rfl

/--
The span of an operand with a suffix is the merge of all parts and of the
offset at which the suffix ends.
-/
theorem Suffix.span_apply
    (target : Expr)
    (suffix : Suffix) :
    (suffix.apply target).span =
      Span.mergeAll ⟨target.span.start, max suffix.stop target.span.start⟩
        (target.span :: suffix.form.nodes.map Node.span) := by
  cases suffix with
  | mk form stop =>
      cases form with
      | call | send =>
          simp only [SuffixForm.nodes, List.map_cons, List.map_map]
          rfl
      | index | property | field => rfl

/--
An operand with a suffix is nested if the operand and the
parts of the suffix are.
-/
theorem Suffix.Nested.apply
    {target : Expr}
    {suffix : Suffix}
    (targetNested : Node.Nested family (.expression target))
    (suffixNested : suffix.Nested family) :
    Node.Nested family (.expression (suffix.apply target)) := by
  refine nested_of_mergeAll _ _ (suffix.span_apply target) ?_ ?_ ?_
  · exact family.upTo (family.start targetNested.span) suffixNested.stop
  · simp [Suffix.children_apply, Node.span]
  · rw [Suffix.children_apply]
    exact List.forall_mem_cons.mpr ⟨targetNested, suffixNested.parts⟩

/-- Suffixes keep an expression nested, however many there are. -/
theorem nested_foldl_apply
    {suffixes : List Suffix}
    (suffixesNested : ∀ suffix ∈ suffixes, suffix.Nested family)
    {target : Expr}
    (targetNested : Node.Nested family (.expression target)) :
    Node.Nested family (.expression (suffixes.foldl Suffix.apply target)) := by
  induction suffixes generalizing target with
  | nil => exact targetNested
  | cons suffix rest hypothesis =>
      rw [List.forall_mem_cons] at suffixesNested
      exact hypothesis suffixesNested.2 (suffixesNested.1.apply targetNested)

section Rules

variable {nested : Rule Expr} (nestedRule : YieldsNested family nested)

include nestedRule

/-- The parts of a message are nested. -/
theorem nested_message :
    (message nested).Yields (State.inside family)
      (fun form => ∀ node ∈ form.nodes, Node.Nested family node) := by
  refine bind (expectName .colon) fun name nameInside => ?_
  have nameNested : Node.Nested family (.identifier name) :=
    nested_leaf nameInside rfl
  have alone : ∀ node ∈ (SuffixForm.property name).nodes,
      Node.Nested family node := by
    simpa [SuffixForm.nodes] using nameNested
  refine bind (any _) fun _ _ => ite (fun _ => pure alone) fun _ => ?_
  refine bind (any _) fun _ _ => ite (fun _ => ?_) (fun _ => pure alone)
  refine bind (enclosed nestedRule .rightParenthesis .arguments)
    fun arguments hold => ?_
  exact pure (by simpa [SuffixForm.nodes, nameNested] using hold)

/-- The parts of a suffix are nested, whichever sign opens it. -/
theorem nested_suffixForm?
    {kind : TokenKind}
    {rule : Rule SuffixForm}
    (opened : suffixForm? nested kind = some rule) :
    rule.Yields (State.inside family)
      (fun form => ∀ node ∈ form.nodes, Node.Nested family node) := by
  unfold suffixForm? at opened
  split at opened
  · cases opened
    refine bind (enclosed nestedRule .rightParenthesis .arguments)
      fun arguments hold => ?_
    exact pure (by simpa [SuffixForm.nodes] using hold)
  · cases opened
    refine bind nestedRule fun position positionNested => ?_
    exact bind (any _) fun _ _ =>
      pure (by simpa [SuffixForm.nodes] using positionNested)
  · cases opened
    exact nested_message nestedRule
  · cases opened
    refine bind (expectName .arrow) fun column columnInside => ?_
    have columnNested : Node.Nested family (.identifier column) :=
      nested_leaf columnInside rfl
    exact pure (by simpa [SuffixForm.nodes] using columnNested)
  · cases opened

theorem nested_suffixes :
    (Rule.many (suffix? nested)).Yields (State.inside family)
      (fun suffixes => ∀ suffix ∈ suffixes, suffix.Nested family) := by
  refine Rule.Yields.many fun _ token _ rule _ _ opened => ?_
  rcases Option.map_eq_some_iff.mp opened with ⟨form, formOpened, rfl⟩
  refine bind (nested_suffixForm? nestedRule formOpened) fun form partsNested =>
    ?_
  exact bind reached fun stop stopInside => pure ⟨partsNested, stopInside⟩

/-! ## Primaries -/

theorem nested_parenthesized : YieldsNested family (parenthesized nested) := by
  refine bind advance fun opening openingInside => ?_
  refine bind nestedRule fun inner innerNested => ?_
  refine bind (any _) fun _ _ => ?_
  refine bind (spanFrom (family.start openingInside)) fun span spanInside => ?_
  exact pure (innerNested.widened (Expr.span_withSpan _ _) spanInside
    (children_withSpan _ _))

theorem nested_arrayLiteral : YieldsNested family (arrayLiteral nested) := by
  refine bind advance fun opening openingInside => ?_
  refine bind (enclosed nestedRule .rightBrace .arrayElements)
    fun elements elementsNested => ?_
  refine bind (spanFrom (family.start openingInside)) fun span spanInside => ?_
  refine pure (nested_of_mergeAll span (elements.map Expr.span)
    rfl spanInside ?_ ?_)
  · simp [children, ofExpr, Node.span]
  · simpa [children, ofExpr] using elementsNested

/-- A code block is nested. -/
theorem nested_codeBlock : YieldsNested family (codeBlock nested) := by
  refine bind advance fun opening openingInside => ?_
  refine bind (any _) fun _ _ => ?_
  refine bind (enclosed (expectName .bar) .bar .codeBlockParameters)
    fun parameters parametersInside => ?_
  refine bind (enclosed nestedRule .rightBrace .codeBlock)
    fun body bodyNested => ?_
  refine bind (spanFrom (family.start openingInside)) fun span spanInside => ?_
  refine pure (nested_of_mergeAll span
    (parameters.map Identifier.span ++ body.map Expr.span) rfl spanInside ?_ ?_)
  · simp [children, ofExpr, Node.span]
  · intro child member
    simp only [children, ofExpr, List.mem_append, List.mem_map] at member
    rcases member with ⟨parameter, isParameter, rfl⟩ | ⟨value, isValue, rfl⟩
    · exact nested_leaf (parametersInside parameter isParameter) rfl
    · exact bodyNested value isValue

omit nestedRule in
theorem nested_invalidToken : YieldsNested family invalidToken := by
  refine bind current fun token tokenInside => ?_
  refine bind (any _) fun _ _ => bind (any _) fun _ _ => ?_
  exact pure (nested_placeholder (family.start tokenInside))

omit nestedRule in
theorem nested_noExpression : YieldsNested family noExpression := by
  refine bind current fun token tokenInside => ?_
  exact bind (any _) fun _ _ =>
    pure (nested_placeholder (family.start tokenInside))

/-- A primary is nested, and so is the placeholder that stands for one. -/
theorem nested_primary : YieldsNested family (primary nested) := by
  refine bind current fun token tokenInside => ?_
  split
  · next value _ =>
      have literalNested :
          Node.Nested family (.expression (.literal value token.span)) :=
        nested_leaf tokenInside rfl
      exact bind (any _) fun _ _ => pure literalNested
  · split
    · exact bind (any _) fun _ _ => pure (nested_name tokenInside)
    · exact nested_parenthesized nestedRule
    · refine bind (any _) fun _ _ => ite (fun _ => ?_) (fun _ => ?_)
      · exact nested_codeBlock nestedRule
      · exact nested_arrayLiteral nestedRule
    · exact nested_invalidToken
    · exact nested_noExpression

theorem nested_suffixed : YieldsNested family (suffixed nested) := by
  refine bind (nested_primary nestedRule) fun target targetNested => ?_
  refine bind (nested_suffixes nestedRule) fun suffixes suffixesNested => ?_
  exact pure (nested_foldl_apply suffixesNested targetNested)

end Rules

/-! ## Operators -/

/-- An operand behind a prefix operator is nested with the operator. -/
theorem nested_prefixed
    {operand : Rule Expr}
    (operandNested : YieldsNested family operand)
    (operator : UnaryOperator) :
    YieldsNested family (prefixed operand operator) := by
  refine bind advance fun token tokenInside => ?_
  refine bind operandNested fun inner innerNested => ?_
  refine bind (spanFrom (family.start tokenInside)) fun span spanInside => ?_
  refine pure (nested_of_mergeAll span [inner.span] rfl spanInside ?_ ?_)
  · simp [children, ofExpr, Node.span]
  · simpa [children, ofExpr] using innerNested

/-- A binary operation is nested if both of its operands are. -/
theorem nested_joinRight
    {left : Expr}
    {right : BinaryOperator × Expr}
    (leftNested : Node.Nested family (.expression left))
    (rightNested : Node.Nested family (.expression right.2)) :
    Node.Nested family (.expression (joinRight left right)) := by
  have ends : (joinRight left right).span =
      left.span.mergeAll [left.span, right.2.span] := by
    simp only [Span.mergeAll, List.foldl, Span.merge_self]
    rfl
  refine nested_of_mergeAll left.span _ ends leftNested.span ?_ ?_
  · simp [joinRight, children, ofExpr, Node.span]
  · simp [joinRight, children, ofExpr, leftNested, rightNested]

/--
Operations to the right keep an expression nested, however many there are.
-/
theorem nested_foldl_joinRight
    {others : List (BinaryOperator × Expr)}
    (othersNested : ∀ other ∈ others, Node.Nested family (.expression other.2))
    {left : Expr}
    (leftNested : Node.Nested family (.expression left)) :
    Node.Nested family (.expression (others.foldl joinRight left)) := by
  induction others generalizing left with
  | nil => exact leftNested
  | cons other rest hypothesis =>
      rw [List.forall_mem_cons] at othersNested
      exact hypothesis othersNested.2
        (nested_joinRight leftNested othersNested.1)

/-- A chain of one level is nested, if its operands are. -/
theorem nested_chain
    (level : Nat)
    {operand : Rule Expr}
    (operandNested : YieldsNested family operand) :
    YieldsNested family (chain level operand) := by
  have othersYield :
      (Rule.many (rightOperand? level operand)).Yields (State.inside family)
        (fun others => ∀ other ∈ others,
          Node.Nested family (.expression other.2)) := by
    refine Rule.Yields.many fun _ token _ rule _ _ opened => ?_
    unfold rightOperand? at opened
    split at opened
    · split at opened
      · cases opened
        exact bind operandNested fun _ rightNested => pure rightNested
      · cases opened
    · cases opened
  refine bind operandNested fun first firstNested => ?_
  refine bind othersYield fun others othersNested => ?_
  exact pure (nested_foldl_joinRight othersNested firstNested)

theorem nested_binary
    {operand : Rule Expr}
    (operandNested : YieldsNested family operand) :
    YieldsNested family (binary operand) := by
  unfold binary
  iterate 6 apply nested_chain
  exact operandNested

/-- An operand is nested, with any number of levels left. -/
theorem nested_operand (levels : Nat) :
    YieldsNested family (operand levels) := by
  induction levels with
  | zero =>
      refine bind (any _) fun _ _ => ?_
      split
      · exact nested_tooDeep
      · exact nested_suffixed (nested_unlessRecovering nested_tooDeep)
  | succ levels hypothesis =>
      refine bind (any _) fun _ _ => ?_
      split
      · exact nested_prefixed hypothesis _
      · exact nested_suffixed
          (nested_unlessRecovering (nested_binary hypothesis))

/-- From any tokens, an expression is nested. -/
theorem nested_expression (levels : Nat) :
    YieldsNested family (expression levels) := by
  cases levels with
  | zero => exact nested_unlessRecovering nested_tooDeep
  | succ levels =>
      exact nested_unlessRecovering (nested_binary (nested_operand levels))

end Clipper.Grammar
