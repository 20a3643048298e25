import Clipper.Proofs.Grammar.ExpressionSpans

/-!
# Spans of statements that are read

Whatever tokens are read, every statement and every block that the grammar makes
of them is nested.  The rules for statements are looked at with any rules for
the expressions and blocks inside them that yield nested trees; the induction is
on the number of levels that are left.

The span of a compound statement begins at its word and ends at the offset
that was reached, but its last block may end later, as an empty block stands
at the token ahead.  So the spans of all parts are merged into the span of the
statement here too.  The conditionals that arms make share their end, which is
why the offset reached is a parameter of the lemmas on arms.
-/

namespace Clipper.Grammar

open Node
open Rule.Yields

variable {family : SpanFamily}

/-- From a state inside a family, a rule yields a nested statement. -/
abbrev YieldsNestedStmt
    (family : SpanFamily)
    (rule : Rule Stmt) :
    Prop :=
  rule.Yields (State.inside family)
    (fun statement => Nested family (.statement statement))

/-- From a state inside a family, a rule yields a nested block. -/
abbrev YieldsNestedBlock
    (family : SpanFamily)
    (rule : Rule Block) :
    Prop :=
  rule.Yields (State.inside family) (fun block => Nested family (.block block))

/-- From a state inside a family, a rule yields a nested statement or none. -/
abbrev YieldsNestedItem
    (family : SpanFamily)
    (rule : Rule (Option Stmt)) :
    Prop :=
  rule.Yields (State.inside family)
    (fun statement? =>
      ∀ statement ∈ statement?, Nested family (.statement statement))

/-! ## Simple statements -/

theorem nested_loopControl : YieldsNestedStmt family loopControl := by
  refine bind advance fun word wordInside => ?_
  refine pure ?_
  split
  · exact nested_leaf wordInside rfl
  · exact nested_leaf wordInside rfl

theorem nested_standalone
    {start : Nat}
    (startInside : family.offset start)
    {value : Expr}
    (valueNested : Nested family (.expression value)) :
    YieldsNestedStmt family (standalone start value) := by
  refine bind (spanFrom startInside) fun span spanInside => ?_
  refine pure (nested_of_mergeAll span [value.span] rfl spanInside ?_ ?_)
  · simp [children, ofStmt, Node.span]
  · simpa [children, ofStmt] using valueNested

/-- An assignment is nested, whatever its form. -/
theorem nested_assignmentForm
    (form : AssignmentForm)
    {target value : Expr}
    (targetNested : Nested family (.expression target))
    (valueNested : Nested family (.expression value))
    {span : Span}
    (spanInside : family.span span) :
    Nested family
      (.statement (form.statement target value
        ((span.merge target.span).merge value.span))) := by
  have childrenOf :
      ∀ outer, children (.statement (form.statement target value outer)) =
        [.expression target, .expression value] := by
    intro outer
    cases form <;> rfl
  refine nested_of_mergeAll span [target.span, value.span] ?_ spanInside ?_ ?_
  · cases form <;> rfl
  · simp [childrenOf, Node.span]
  · simp [childrenOf, targetNested, valueNested]

section Simple

variable {expression : Rule Expr}
    (expressionNested : YieldsNested family expression)

include expressionNested

/-- A declared name with its first value is nested. -/
theorem nested_binding (place : NamePlace) :
    (binding expression place).Yields (State.inside family)
      (fun bound => Nested family (.binding bound)) := by
  refine bind (expectName place) fun name nameInside => ?_
  have nameNested : Nested family (.identifier name) :=
    nested_leaf nameInside rfl
  refine bind (any _) fun _ _ => ite (fun _ => ?_) (fun _ => ?_)
  · refine bind expressionNested fun value valueNested => ?_
    refine pure (nested_of_mergeAll name.span [name.span, value.span] ?_
      nameInside ?_ ?_)
    · simp [Node.span, Span.mergeAll]
    · simp [children, Node.span]
    · simp [children, nameNested, valueNested]
  · refine pure (nested_of_mergeAll name.span [name.span] ?_ nameInside ?_ ?_)
    · simp [Node.span, Span.mergeAll]
    · simp [children, Node.span]
    · simpa [children] using nameNested

/-- A declaration is nested. -/
theorem nested_declaration :
    YieldsNestedStmt family (declaration expression) := by
  refine bind advance fun word wordInside => ?_
  refine bind (separated (nested_binding expressionNested _))
    fun bindings bindingsNested => ?_
  refine bind (spanFrom (family.start wordInside)) fun span spanInside => ?_
  refine pure (nested_of_mergeAll span (bindings.map Binding.span)
    rfl spanInside ?_ ?_)
  · simp [children, ofStmt, Node.span]
  · simpa [children, ofStmt] using bindingsNested

/-- A statement that returns is nested. -/
theorem nested_resultStatement :
    YieldsNestedStmt family (resultStatement expression) := by
  refine bind advance fun word wordInside => ?_
  refine bind (any _) fun _ _ => ite (fun _ => ?_) (fun _ => ?_)
  · refine bind expressionNested fun value valueNested => ?_
    refine bind (spanFrom (family.start wordInside)) fun span spanInside => ?_
    refine pure (nested_of_mergeAll span [value.span] rfl spanInside ?_ ?_)
    · simp [children, ofStmt, Node.span]
    · simpa [children, ofStmt] using valueNested
  · refine bind (spanFrom (family.start wordInside)) fun span spanInside => ?_
    exact pure (nested_leaf spanInside rfl)

/-- A statement that prints is nested. -/
theorem nested_printStatement :
    YieldsNestedStmt family (printStatement expression) := by
  have valuesYield :
      (printedValues expression).Yields (State.inside family)
        (fun values => ∀ value ∈ values,
          Nested family (.expression value)) := by
    refine bind (any _) fun _ _ =>
      ite (fun _ => separated expressionNested) (fun _ => ?_)
    exact pure (fun _ member => by cases member)
  refine bind advance fun word wordInside => ?_
  refine bind valuesYield fun values valuesNested => ?_
  refine bind (spanFrom (family.start wordInside)) fun span spanInside => ?_
  refine pure (nested_of_mergeAll span (values.map Expr.span)
    rfl spanInside ?_ ?_)
  · simp [children, ofStmt, Node.span]
  · simpa [children, ofStmt] using valuesNested

theorem nested_assignment
    {start : Nat}
    (startInside : family.offset start)
    {target : Expr}
    (targetNested : Nested family (.expression target))
    (form : AssignmentForm) :
    YieldsNestedStmt family (assignment expression start target form) := by
  refine bind (any _) fun _ _ => bind (any _) fun _ _ => ?_
  refine bind expressionNested fun value valueNested => ?_
  refine bind (spanFrom startInside) fun span spanInside => ?_
  exact pure (nested_assignmentForm form targetNested valueNested spanInside)

/-- A statement that begins as an expression is nested. -/
theorem nested_expressionStatement :
    YieldsNestedStmt family (expressionStatement expression) := by
  refine bind start fun start startInside => ?_
  refine bind expressionNested fun target targetNested => ?_
  refine bind (any _) fun _ _ => ite (fun _ => ?_) (fun _ => ?_)
  · exact nested_standalone startInside targetNested
  · refine bind (any _) fun _ _ => ?_
    split
    · exact nested_standalone startInside targetNested
    · exact nested_assignment expressionNested startInside targetNested _

end Simple

theorem nested_terminated
    {rule : Rule Stmt}
    (ruleNested : YieldsNestedStmt family rule) :
    YieldsNestedItem family (terminated rule) := by
  refine bind ruleNested fun statement statementNested => ?_
  refine bind (any _) fun _ _ => pure fun other member => ?_
  cases member
  exact statementNested

/-! ## Compound statements -/

/-- The parts of an arm are nested, and it begins at an offset of the family. -/
structure Arm.Nested
    (family : SpanFamily)
    (arm : Arm) :
    Prop where
  start : family.offset arm.start
  condition : Node.Nested family (.expression arm.condition)
  block : Node.Nested family (.block arm.block)

/--
The conditional that an arm makes is nested, if what comes after the arm is.
-/
theorem Arm.Nested.conditional
    {arm : Arm}
    (armNested : arm.Nested family)
    {reached : Nat}
    (reachedInside : family.offset reached)
    {negative? : Option Block}
    (negativeNested : ∀ negative ∈ negative?,
      Node.Nested family (.block negative)) :
    Node.Nested family (.statement (arm.conditional reached negative?)) := by
  have baseInside := family.upTo armNested.start reachedInside
  refine nested_of_mergeAll _
    (arm.condition.span :: arm.block.span :: negative?.toList.map Block.span)
    ?_ baseInside ?_ ?_
  · cases negative? <;> rfl
  · simp [Arm.conditional, children, ofStmt, Node.span]
  · intro child member
    simp only [Arm.conditional, children, ofStmt, List.mem_cons, List.mem_map,
      Option.mem_toList] at member
    rcases member with rfl | rfl | ⟨negative, isNegative, rfl⟩
    · exact armNested.condition
    · exact armNested.block
    · exact negativeNested negative isNegative

/-- The block that an arm makes of its conditional is nested. -/
theorem Arm.Nested.nest
    {arm : Arm}
    (armNested : arm.Nested family)
    {reached : Nat}
    (reachedInside : family.offset reached)
    {negative? : Option Block}
    (negativeNested : ∀ negative ∈ negative?,
      Node.Nested family (.block negative)) :
    ∀ block ∈ arm.nest reached negative?,
      Node.Nested family (.block block) := by
  intro block member
  have nested := armNested.conditional reachedInside negativeNested
  cases member
  refine nested_of_mergeAll _ [(arm.conditional reached negative?).span] ?_
    nested.span ?_ ?_
  · exact (Span.merge_self _).symm
  · simp [children, Block.statements, Node.span]
  · simpa [children, Block.statements] using nested

/-- The arms after the first nest into one block, which is nested. -/
theorem nested_foldr_nest
    {reached : Nat}
    (reachedInside : family.offset reached)
    {arms : List Arm}
    (armsNested : ∀ arm ∈ arms, arm.Nested family)
    {last? : Option Block}
    (lastNested : ∀ last ∈ last?, Node.Nested family (.block last)) :
    ∀ block ∈ arms.foldr (Arm.nest reached) last?,
      Node.Nested family (.block block) := by
  induction arms with
  | nil => exact lastNested
  | cons arm rest hypothesis =>
      rw [List.forall_mem_cons] at armsNested
      exact armsNested.1.nest reachedInside (hypothesis armsNested.2)

section Compound

variable {expression : Rule Expr} {block : List TokenKind → Rule Block}
variable (expressionNested : YieldsNested family expression)
variable (blockNested : ∀ closers, YieldsNestedBlock family (block closers))

include expressionNested blockNested

theorem nested_arm
    {start : Nat}
    (startInside : family.offset start) :
    (arm expression block start).Yields (State.inside family)
      (Arm.Nested family) := by
  refine bind expressionNested fun condition conditionNested => ?_
  refine bind (any _) fun _ _ => ?_
  exact bind (blockNested _) fun body bodyNested =>
    pure ⟨startInside, conditionNested, bodyNested⟩

/-- A conditional is nested, and so are those that its further arms make. -/
theorem nested_conditional :
    YieldsNestedStmt family (conditional expression block) := by
  have othersYield :
      (Rule.many (furtherArm? expression block)).Yields (State.inside family)
        (fun arms => ∀ arm ∈ arms, arm.Nested family) := by
    refine Rule.Yields.many fun _ token _ rule inside ahead opened => ?_
    unfold furtherArm? at opened
    split at opened
    · cases opened
      exact nested_arm expressionNested blockNested
        (family.start (inside.ahead token (by simp [ahead])))
    · cases opened
  refine bind advance fun word wordInside => ?_
  have startInside := family.start wordInside
  refine bind (nested_arm expressionNested blockNested startInside)
    fun first firstNested => ?_
  refine bind othersYield fun others othersNested => ?_
  refine bind (optionalAfter (blockNested _) .elseWord) fun last? lastNested =>
    ?_
  refine bind reached fun reached reachedInside => ?_
  refine bind (any _) fun _ _ => ?_
  refine bind (spanFrom startInside) fun span spanInside => ?_
  have inner :=
    firstNested.conditional reachedInside
      (nested_foldr_nest reachedInside othersNested lastNested)
  exact pure (inner.widened rfl spanInside rfl)

/-- A loop with a condition is nested. -/
theorem nested_whileLoop :
    YieldsNestedStmt family (whileLoop expression block) := by
  refine bind start fun start startInside => ?_
  refine bind (any _) fun _ _ => bind (any _) fun _ _ => ?_
  refine bind expressionNested fun condition conditionNested => ?_
  refine bind (any _) fun _ _ => ?_
  refine bind (blockNested _) fun body bodyNested => ?_
  refine bind (any _) fun _ _ => ?_
  refine bind (spanFrom startInside) fun span spanInside => ?_
  refine pure (nested_of_mergeAll span [body.span, condition.span]
    rfl spanInside ?_ ?_)
  · simp [children, ofStmt, Node.span, or_comm]
  · simp [children, ofStmt, conditionNested, bodyNested]

/-- A counting loop is nested. -/
theorem nested_forLoop :
    YieldsNestedStmt family (forLoop expression block) := by
  refine bind advance fun word wordInside => ?_
  refine bind (expectName .forWord) fun counter counterInside => ?_
  have counterNested : Nested family (.identifier counter) :=
    nested_leaf counterInside rfl
  refine bind (any _) fun _ _ => ?_
  refine bind expressionNested fun first firstNested => ?_
  refine bind (any _) fun _ _ => ?_
  refine bind expressionNested fun last lastNested => ?_
  refine bind (optionalAfter expressionNested .step) fun step? stepNested => ?_
  refine bind (blockNested _) fun body bodyNested => ?_
  refine bind (any _) fun _ _ => ?_
  refine bind (spanFrom (family.start wordInside)) fun span spanInside => ?_
  refine pure (nested_of_mergeAll span
    (counter.span :: first.span :: last.span ::
      (step?.toList.map Expr.span ++ [body.span]))
    ?_ spanInside ?_ ?_)
  · cases step? <;> rfl
  · simp [children, ofStmt, Node.span]
  · intro child member
    simp only [children, ofStmt, List.mem_cons, List.mem_append, List.mem_map,
      Option.mem_toList, List.not_mem_nil, or_false] at member
    rcases member with rfl | rfl | rfl | ⟨step, isStep, rfl⟩ | rfl
    · exact counterNested
    · exact firstNested
    · exact lastNested
    · exact stepNested step isStep
    · exact bodyNested

omit expressionNested in
/-- A routine is nested. -/
theorem nested_routine : YieldsNestedStmt family (routine block) := by
  have parametersYield :
      parameters.Yields (State.inside family)
        (fun names => ∀ name ∈ names, family.span name.span) := by
    refine bind (any _) fun _ _ => ite (fun _ => ?_) (fun _ => ?_)
    · exact enclosed (expectName .openingParenthesis)
        .rightParenthesis .parameters
    · exact pure (fun _ member => by cases member)
  refine bind start fun start startInside => ?_
  refine bind (any _) fun isStatic _ => ?_
  refine bind (any _) fun word _ => ?_
  refine bind (expectName _) fun name nameInside => ?_
  refine bind parametersYield fun parameters parametersInside => ?_
  refine bind (blockNested _) fun body bodyNested => ?_
  refine bind (any _) fun _ _ => ?_
  refine bind (spanFrom startInside) fun span spanInside => ?_
  refine pure (nested_of_mergeAll span
    (name.span :: (parameters.map Identifier.span ++ [body.span])) ?_
      spanInside ?_ ?_)
  · simp only [Node.span, Stmt.span, Span.mergeAll, List.foldl_cons,
      List.foldl_append, List.foldl_nil]
  · simp [children, ofStmt, Node.span]
  · intro child member
    simp only [children, ofStmt, List.mem_cons, List.mem_append, List.mem_map,
      List.not_mem_nil, or_false] at member
    rcases member with rfl | ⟨parameter, isParameter, rfl⟩ | rfl
    · exact nested_leaf nameInside rfl
    · exact nested_leaf (parametersInside parameter isParameter) rfl
    · exact bodyNested

/-! ## Blocks and statements -/

/--
A statement is nested, given that expressions and blocks are.  The
cases are the forms.
-/
theorem nested_statementOf :
    YieldsNestedItem family (statementOf expression block) := by
  have compound :
      ∀ {rule : Rule Stmt}, YieldsNestedStmt family rule →
        YieldsNestedItem family (some <$> rule) := by
    intro rule ruleNested
    refine map (mono ruleNested fun statement statementNested other member =>
      ?_)
    cases member
    exact statementNested
  have nothing : YieldsNestedItem family (Pure.pure none) :=
    pure (fun _ member => by cases member)
  refine bind (any _) fun _ _ => bind (any _) fun form _ => ?_
  cases form with
  | empty => exact bind (any _) fun _ _ => nothing
  | strayCloser =>
      exact bind (any _) fun _ _ => bind (any _) fun _ _ =>
        bind (any _) fun _ _ => nothing
  | conditional =>
      exact compound (nested_conditional expressionNested blockNested)
  | whileLoop => exact compound (nested_whileLoop expressionNested blockNested)
  | forLoop => exact compound (nested_forLoop expressionNested blockNested)
  | routine => exact compound (nested_routine blockNested)
  | declaration => exact nested_terminated (nested_declaration expressionNested)
  | result => exact nested_terminated (nested_resultStatement expressionNested)
  | control => exact nested_terminated nested_loopControl
  | print => exact nested_terminated (nested_printStatement expressionNested)
  | expression =>
      exact nested_terminated (nested_expressionStatement expressionNested)

end Compound

theorem nested_blockTooDeep : YieldsNestedBlock family blockTooDeep := by
  refine bind start fun start startInside => ?_
  exact bind (any _) fun _ _ =>
    pure (nested_leaf (family.empty startInside) rfl)

/-- A block is nested, given that its statements are. -/
theorem nested_blockOf
    {statement : Rule (Option Stmt)}
    (statementNested : YieldsNestedItem family statement)
    (closers : List TokenKind) :
    YieldsNestedBlock family (blockOf statement closers) := by
  refine bind start fun start startInside => ?_
  refine bind (sequence statementNested) fun statements statementsNested => ?_
  refine bind (any _) fun _ _ => ?_
  refine bind (spanFrom startInside) fun span spanInside => ?_
  refine pure (nested_of_mergeAll span (statements.map Stmt.span)
    rfl spanInside ?_ ?_)
  · simp [children, Block.statements, Node.span]
  · simpa [children, Block.statements] using statementsNested

/-- From any tokens, a statement is nested. -/
theorem nested_statement (levels : Nat) :
    YieldsNestedItem family (statement levels) := by
  induction levels with
  | zero =>
      exact nested_statementOf (nested_expression 0)
        (fun _ => nested_blockTooDeep)
  | succ levels hypothesis =>
      exact nested_statementOf (nested_expression (levels + 1))
        (nested_blockOf hypothesis)

end Clipper.Grammar
