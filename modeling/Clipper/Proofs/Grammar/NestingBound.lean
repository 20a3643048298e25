import Clipper.Proofs.Grammar.RoutinePlacement
import Clipper.Proofs.Syntax.Nesting

/-!
# The nesting of trees that are read

Whatever tokens are read, with some levels left an expression, a statement and a
block of no more than these levels are made.  Chains of binary operations,
suffixes and `ELSEIF` arms are read by loops; they may have any length and take
no level.

The nesting counts what the limit counts: a level for each expression that is
read by the rule for expressions, for each prefix operator and for each block.
The rules are given the levels as a number, and where none is left they make a
placeholder, which nests nowhere.  So the bound holds of every tree, also of
one that was cut short; and it is proved for every rule by the judgement on
what rules yield.
-/

namespace Clipper.Grammar

open Rule.Yields

/--
From any state, a rule yields an expression
that has its place within some levels.
-/
abbrev YieldsFitting
    (levels : Nat)
    (rule : Rule Expr) :
    Prop :=
  rule.Yields State.anyState (Expr.FitsIn levels)

/--
From any state, a rule yields an expression
with no more than some levels below it.
-/
abbrev YieldsWithin
    (levels : Nat)
    (rule : Rule Expr) :
    Prop :=
  rule.Yields State.anyState (fun value => value.nesting ≤ levels)

variable {levels : Nat}

theorem fitting_placeholderHere : YieldsFitting levels placeholderHere :=
  fun _ _ => Expr.fitsIn_placeholder _ _

theorem fitting_tooDeep : YieldsFitting levels tooDeep :=
  bind (any _) fun _ _ => fitting_placeholderHere

theorem fitting_unlessRecovering
    {rule : Rule Expr}
    (fitting : YieldsFitting levels rule) :
    YieldsFitting levels (unlessRecovering rule) :=
  bind (any _) fun _ _ =>
    ite (fun _ => fitting_placeholderHere) (fun _ => fitting)

/-! ## Suffixes and primaries -/

/-- The expressions in a suffix. -/
def SuffixForm.expressions : SuffixForm → List Expr
  | call arguments | send _ arguments => arguments
  | index position => [position]
  | property _ | field _ => []

/-- A suffix adds the expressions in it, and the target stays on its level. -/
theorem Suffix.nesting_apply
    (target : Expr)
    (suffix : Suffix) :
    (suffix.apply target).nesting =
      max target.nesting (Expr.nestingAmong suffix.form.expressions) := by
  obtain ⟨form, stop⟩ := suffix
  cases form with
  | call | send => rfl
  | index position =>
      rw [SuffixForm.expressions, Expr.nestingAmong, Expr.nestingAmong,
        Nat.max_zero]
      rfl
  | property | field => exact (Nat.max_zero _).symm

/--
Suffixes do not nest their target any deeper: their parts fit in the levels
that the target has.
-/
theorem nesting_foldl_apply
    {suffixes : List Suffix}
    (fitting : ∀ suffix ∈ suffixes, ∀ value ∈ suffix.form.expressions,
      value.FitsIn levels)
    {target : Expr}
    (within : target.nesting ≤ levels) :
    (suffixes.foldl Suffix.apply target).nesting ≤ levels := by
  induction suffixes generalizing target with
  | nil => exact within
  | cons suffix rest hypothesis =>
      rw [List.forall_mem_cons] at fitting
      refine hypothesis fitting.2 ?_
      rw [Suffix.nesting_apply, Nat.max_le]
      exact ⟨within, Expr.nestingAmong_le_iff.mpr fitting.1⟩

section

variable {nested : Rule Expr} (fitting : YieldsFitting levels nested)

include fitting

/-- The arguments of a message fit in the levels that are left. -/
theorem fitting_message :
    (message nested).Yields State.anyState
      (fun form => ∀ value ∈ form.expressions, value.FitsIn levels) := by
  have alone (name : Identifier) :
      ∀ value ∈ (SuffixForm.property name).expressions, value.FitsIn levels :=
    List.forall_mem_nil _
  refine bind (any _) fun name _ => bind (any _) fun _ _ =>
    ite (fun _ => pure (alone name)) ?_
  refine fun _ => bind (any _) fun _ _ =>
    ite (fun _ => ?_) (fun _ => pure (alone name))
  exact bind (enclosed fitting .rightParenthesis .arguments)
    fun arguments fit => pure fit

/-- The expressions in a suffix fit in the levels that are left. -/
theorem fitting_suffixForm?
    {kind : TokenKind}
    {rule : Rule SuffixForm}
    (opened : suffixForm? nested kind = some rule) :
    rule.Yields State.anyState
      (fun form => ∀ value ∈ form.expressions, value.FitsIn levels) := by
  unfold suffixForm? at opened
  split at opened
  · cases opened
    exact bind (enclosed fitting .rightParenthesis .arguments)
      fun arguments fit => pure fit
  · cases opened
    refine bind fitting fun position fits => bind (any _) fun _ _ => pure ?_
    exact List.forall_mem_singleton.mpr fits
  · cases opened
    exact fitting_message fitting
  · cases opened
    exact bind (any _) fun _ _ => pure (List.forall_mem_nil _)
  · cases opened

theorem within_parenthesized : YieldsWithin levels (parenthesized nested) := by
  refine bind (any _) fun _ _ => bind fitting fun inner fits => ?_
  refine bind (any _) fun _ _ => bind (any _) fun _ _ => pure ?_
  rw [Expr.nesting_withSpan]
  exact fits.nesting_le

theorem within_arrayLiteral : YieldsWithin levels (arrayLiteral nested) := by
  refine bind (any _) fun _ _ =>
    bind (enclosed fitting _ _) fun elements fit => ?_
  exact bind (any _) fun _ _ => pure (Expr.nestingAmong_le_iff.mpr fit)

theorem within_codeBlock : YieldsWithin levels (codeBlock nested) := by
  refine bind (any _) fun _ _ => bind (any _) fun _ _ =>
    bind (any _) fun _ _ => ?_
  refine bind (enclosed fitting _ _) fun body fit => ?_
  exact bind (any _) fun _ _ => pure (Expr.nestingAmong_le_iff.mpr fit)

/-- A primary nests no more deeply than the levels that are left. -/
theorem within_primary : YieldsWithin levels (primary nested) := by
  -- Whatever is not made of nested expressions is a leaf.
  have leaf {α β : Type} (first : Rule α) (second : Rule β) (value : Expr)
      (isLeaf : value.nesting = 0) :
      YieldsWithin levels
        (first >>= fun _ => second >>= fun _ => Pure.pure value) :=
    bind (any _) fun _ _ => bind (any _) fun _ _ =>
      pure (isLeaf.trans_le (Nat.zero_le _))
  refine bind (any _) fun token _ => ?_
  split
  · exact bind (any _) fun _ _ => pure (Nat.zero_le _)
  · split
    · exact bind (any _) fun _ _ => pure (Nat.zero_le _)
    · exact within_parenthesized fitting
    · refine bind (any _) fun _ _ => ite (fun _ => ?_) (fun _ => ?_)
      · exact within_codeBlock fitting
      · exact within_arrayLiteral fitting
    · exact bind (any _) fun _ _ => leaf _ _ _ rfl
    · exact bind (any _) fun _ _ => bind (any _) fun _ _ => pure (Nat.zero_le _)

/--
An operand with suffixes nests no more deeply than the levels that are left.
-/
theorem within_suffixed : YieldsWithin levels (suffixed nested) := by
  have suffixesYield :
      (Rule.many (suffix? nested)).Yields State.anyState
        (fun suffixes =>
          ∀ suffix ∈ suffixes, ∀ value ∈ suffix.form.expressions,
            value.FitsIn levels) := by
    refine Rule.Yields.many fun _ token _ rule _ _ opened => ?_
    obtain ⟨form, formOpened, rfl⟩ := Option.map_eq_some_iff.mp opened
    refine bind (fitting_suffixForm? fitting formOpened) fun form fit => ?_
    exact bind (any _) fun _ _ => pure fit
  refine bind (within_primary fitting) fun target within => ?_
  exact bind suffixesYield fun suffixes fit =>
    pure (nesting_foldl_apply fit within)

end

/-! ## Operators -/

/-- Operators do not nest their operands any deeper. -/
theorem nesting_foldl_joinRight
    {others : List (BinaryOperator × Expr)}
    (othersWithin : ∀ other ∈ others, other.2.nesting ≤ levels)
    {left : Expr}
    (within : left.nesting ≤ levels) :
    (others.foldl joinRight left).nesting ≤ levels := by
  induction others generalizing left with
  | nil => exact within
  | cons other rest hypothesis =>
      rw [List.forall_mem_cons] at othersWithin
      exact hypothesis othersWithin.2 (Nat.max_le.mpr ⟨within, othersWithin.1⟩)

/-- A chain of one level nests no more deeply than its operands. -/
theorem within_chain
    (level : Nat)
    {operand : Rule Expr}
    (within : YieldsWithin levels operand) :
    YieldsWithin levels (chain level operand) := by
  have othersYield :
      (Rule.many (rightOperand? level operand)).Yields State.anyState
        (fun others => ∀ other ∈ others, other.2.nesting ≤ levels) := by
    refine Rule.Yields.many fun _ token _ rule _ _ opened => ?_
    unfold rightOperand? at opened
    split at opened
    · split at opened
      · cases opened
        exact bind within fun _ rightWithin => pure rightWithin
      · cases opened
    · cases opened
  refine bind within fun first firstWithin =>
    bind othersYield fun others othersWithin => ?_
  exact pure (nesting_foldl_joinRight othersWithin firstWithin)

theorem within_binary
    {operand : Rule Expr}
    (within : YieldsWithin levels operand) :
    YieldsWithin levels (binary operand) := by
  unfold binary
  iterate 6 apply within_chain
  exact within

/-- With some levels left, an operand has no more than these below it. -/
theorem within_operand (levels : Nat) :
    YieldsWithin levels (operand levels) := by
  induction levels with
  | zero =>
      refine bind (any _) fun _ _ => ?_
      split
      · exact mono fitting_tooDeep fun _ fits => fits.nesting_le
      · exact within_suffixed (fitting_unlessRecovering fitting_tooDeep)
  | succ levels hypothesis =>
      refine bind (any _) fun _ _ => ?_
      split
      · refine bind (any _) fun _ _ => bind hypothesis fun inner within => ?_
        exact bind (any _) fun _ _ => pure (Nat.succ_le_succ within)
      · refine within_suffixed (fitting_unlessRecovering ?_)
        exact mono (within_binary hypothesis) fun _ => Expr.fitsIn_succ

/-- With some levels left, an expression has its place within them. -/
theorem fitting_expression (levels : Nat) :
    YieldsFitting levels (expression levels) := by
  cases levels with
  | zero => exact fitting_unlessRecovering fitting_tooDeep
  | succ levels =>
      exact fitting_unlessRecovering
        (mono (within_binary (within_operand levels)) fun _ => Expr.fitsIn_succ)

/-! ## Simple statements -/

/-- From any state, a rule yields a statement with no more than some levels. -/
abbrev YieldsWithinStmt
    (levels : Nat)
    (rule : Rule Stmt) :
    Prop :=
  rule.Yields State.anyState (fun statement => statement.nesting ≤ levels)

/--
From any state, a rule yields a statement
with no more than some levels, or none.
-/
abbrev YieldsWithinItem
    (levels : Nat)
    (rule : Rule (Option Stmt)) :
    Prop :=
  rule.Yields State.anyState
    (fun statement? => ∀ statement ∈ statement?, statement.nesting ≤ levels)

/-- From any state, a rule yields a block with no more than some levels. -/
abbrev YieldsWithinBlock
    (levels : Nat)
    (rule : Rule Block) :
    Prop :=
  rule.Yields State.anyState (fun block => block.nesting ≤ levels)

section Simple

variable {expression : Rule Expr} (fitting : YieldsFitting levels expression)

include fitting

/-- A declaration nests no more deeply than its values. -/
theorem within_declaration :
    YieldsWithinStmt levels (declaration expression) := by
  have bindingYields (place : NamePlace) :
      (binding expression place).Yields State.anyState
        (fun bound => ∀ value ∈ bound.value?, value.FitsIn levels) := by
    refine bind (any _) fun name _ => bind (any _) fun _ _ =>
      ite (fun _ => ?_) (fun _ => ?_)
    · refine bind fitting fun value fits => pure fun other isValue => ?_
      cases isValue
      exact fits
    · exact pure (fun _ member => by cases member)
  refine bind (any _) fun word _ =>
    bind (separated (bindingYields _)) fun bindings fit => ?_
  refine bind (any _) fun span _ =>
    pure (Expr.nestingAmong_le_iff.mpr fun value isValue => ?_)
  obtain ⟨bound, among, isValue⟩ := List.mem_filterMap.mp isValue
  exact fit bound among value isValue

theorem within_resultStatement :
    YieldsWithinStmt levels (resultStatement expression) := by
  refine bind (any _) fun word _ => bind (any _) fun _ _ =>
    ite (fun _ => ?_) (fun _ => ?_)
  · refine bind fitting fun value fits => bind (any _) fun _ _ => pure ?_
    exact Expr.nestingAmong_le_iff.mpr (List.forall_mem_singleton.mpr fits)
  · exact bind (any _) fun _ _ => pure (Nat.zero_le _)

theorem within_printStatement :
    YieldsWithinStmt levels (printStatement expression) := by
  have valuesYield :
      (printedValues expression).Yields State.anyState
        (fun values => ∀ value ∈ values, value.FitsIn levels) :=
    bind (any _) fun _ _ => ite (fun _ => separated fitting)
      (fun _ => pure (List.forall_mem_nil _))
  refine bind (any _) fun word _ => bind valuesYield fun values fit => ?_
  exact bind (any _) fun _ _ => pure (Expr.nestingAmong_le_iff.mpr fit)

/--
A statement that begins as an expression nests no more deeply than its
target and its value.
-/
theorem within_expressionStatement :
    YieldsWithinStmt levels (expressionStatement expression) := by
  have alone {start : Nat} {value : Expr} (fits : value.FitsIn levels) :
      YieldsWithinStmt levels (standalone start value) :=
    bind (any _) fun _ _ =>
      pure (Expr.nestingAmong_le_iff.mpr (List.forall_mem_singleton.mpr fits))
  refine bind (any _) fun start _ => bind fitting fun target targetFits => ?_
  refine bind (any _) fun _ _ => ite (fun _ => alone targetFits) fun _ => ?_
  refine bind (any _) fun _ _ => ?_
  split
  · exact alone targetFits
  · next form _ =>
      refine bind (any _) fun _ _ => bind (any _) fun _ _ => ?_
      refine bind fitting fun value valueFits => bind (any _) fun _ _ => pure ?_
      have both : Expr.nestingAmong [target, value] ≤ levels := by
        rw [Expr.nestingAmong_le_iff, List.forall_mem_cons,
          List.forall_mem_singleton]
        exact ⟨targetFits, valueFits⟩
      cases form <;> exact both

end Simple

/-! ## Compound statements -/

/-- The parts of an arm have no more than some levels. -/
structure Arm.Within
    (levels : Nat)
    (arm : Arm) :
    Prop where
  condition : arm.condition.FitsIn levels
  block : arm.block.nesting ≤ levels

/--
A conditional that is made of an arm nests no more deeply than the arm and
what comes after it.
-/
theorem Arm.Within.conditional
    {arm : Arm}
    (within : arm.Within levels)
    {negative? : Option Block}
    (otherwise : negative?.elim 0 Block.nestingAfterElse ≤ levels)
    (span : Span) :
    (Stmt.conditional arm.condition arm.block negative? span).nesting ≤
      levels := by
  rw [Stmt.nesting_conditional, Nat.max_le, Nat.max_le,
    Expr.nestingAmong_le_iff, List.forall_mem_singleton]
  exact ⟨within.condition, within.block, otherwise⟩

/-- However many arms follow, the other block has no more levels than they. -/
theorem nesting_foldr_nest
    {arms : List Arm}
    (armsWithin : ∀ arm ∈ arms, arm.Within levels)
    {last? : Option Block}
    (lastWithin : last?.elim 0 Block.nestingAfterElse ≤ levels)
    (reached : Nat) :
    (arms.foldr (Arm.nest reached) last?).elim 0 Block.nestingAfterElse ≤
      levels := by
  induction arms with
  | nil => exact lastWithin
  | cons arm rest hypothesis =>
      rw [List.forall_mem_cons] at armsWithin
      exact armsWithin.1.conditional (hypothesis armsWithin.2) _

section Compound

variable {expression : Rule Expr} {block : List TokenKind → Rule Block}
variable (fitting : YieldsFitting levels expression)
variable (blockWithin : ∀ closers, YieldsWithinBlock levels (block closers))

include fitting blockWithin

theorem within_arm (start : Nat) :
    (arm expression block start).Yields State.anyState (Arm.Within levels) := by
  refine bind fitting fun condition fits => bind (any _) fun _ _ => ?_
  exact bind (blockWithin _) fun body within => pure ⟨fits, within⟩

/--
A conditional nests no more deeply than the levels of its blocks.  Its arms
are at one level, however many they are.
-/
theorem within_conditional :
    YieldsWithinStmt levels (conditional expression block) := by
  have othersYield :
      (Rule.many (furtherArm? expression block)).Yields State.anyState
        (fun arms => ∀ arm ∈ arms, arm.Within levels) := by
    refine Rule.Yields.many fun _ token _ rule _ _ opened => ?_
    unfold furtherArm? at opened
    split at opened
    · cases opened
      exact within_arm fitting blockWithin _
    · cases opened
  refine bind (any _) fun word _ =>
    bind (within_arm fitting blockWithin _) fun first within => ?_
  refine bind othersYield fun others othersWithin => ?_
  refine bind (optionalAfter (blockWithin _) .elseWord) fun last? lastWithin =>
    ?_
  refine bind (any _) fun reached _ => bind (any _) fun _ _ =>
    bind (any _) fun _ _ => pure ?_
  refine within.conditional (nesting_foldr_nest othersWithin ?_ reached) _
  cases last? with
  | none => exact Nat.zero_le _
  | some last => exact last.nestingAfterElse_le.trans (lastWithin last rfl)

theorem within_whileLoop :
    YieldsWithinStmt levels (whileLoop expression block) := by
  refine bind (any _) fun _ _ => bind (any _) fun _ _ =>
    bind (any _) fun _ _ => ?_
  refine bind fitting fun condition fits => bind (any _) fun _ _ => ?_
  refine bind (blockWithin _) fun body within => bind (any _) fun _ _ =>
    bind (any _) fun _ _ => ?_
  exact pure (Nat.max_le.mpr
    ⟨Expr.nestingAmong_le_iff.mpr (List.forall_mem_singleton.mpr fits), within⟩)

/-- A counting loop nests no more deeply than the levels that are left. -/
theorem within_forLoop :
    YieldsWithinStmt levels (forLoop expression block) := by
  refine bind (any _) fun _ _ => bind (any _) fun counter _ =>
    bind (any _) fun _ _ => ?_
  refine bind fitting fun first firstFits => bind (any _) fun _ _ => ?_
  refine bind fitting fun last lastFits => ?_
  refine bind (optionalAfter fitting .step) fun step? stepFits => ?_
  refine bind (blockWithin _) fun body within => bind (any _) fun _ _ =>
    bind (any _) fun _ _ => ?_
  refine pure (Nat.max_le.mpr ⟨?_, within⟩)
  rw [Expr.nestingAmong_le_iff, List.forall_mem_cons, List.forall_mem_cons]
  exact ⟨firstFits, lastFits, fun step isStep =>
    stepFits step (Option.mem_toList.mp isStep)⟩

omit fitting in
theorem within_routine : YieldsWithinStmt levels (routine block) := by
  refine bind (any _) fun _ _ => bind (any _) fun _ _ =>
    bind (any _) fun _ _ => ?_
  refine bind (any _) fun _ _ => bind (any _) fun _ _ => ?_
  refine bind (blockWithin _) fun body within => ?_
  exact bind (any _) fun _ _ => bind (any _) fun _ _ => pure within

/--
A statement nests no more deeply than its expressions and its blocks.  The
cases are the forms.
-/
theorem within_statementOf :
    YieldsWithinItem levels (statementOf expression block) := by
  have one {statement : Stmt} (within : statement.nesting ≤ levels) :
      ∀ other ∈ some statement, other.nesting ≤ levels := by
    intro other same
    cases same
    exact within
  have compound {rule : Rule Stmt} (within : YieldsWithinStmt levels rule) :
      YieldsWithinItem levels (some <$> rule) :=
    map (mono within fun _ => one)
  have ended {rule : Rule Stmt} (within : YieldsWithinStmt levels rule) :
      YieldsWithinItem levels (terminated rule) :=
    bind within fun _ isWithin => bind (any _) fun _ _ => pure (one isWithin)
  have nothing : YieldsWithinItem levels (Pure.pure none) :=
    pure (fun _ member => by cases member)
  refine bind (any _) fun _ _ => bind (any _) fun form _ => ?_
  cases form with
  | empty => exact bind (any _) fun _ _ => nothing
  | strayCloser =>
      exact bind (any _) fun _ _ => bind (any _) fun _ _ =>
        bind (any _) fun _ _ => nothing
  | conditional => exact compound (within_conditional fitting blockWithin)
  | whileLoop => exact compound (within_whileLoop fitting blockWithin)
  | forLoop => exact compound (within_forLoop fitting blockWithin)
  | routine => exact compound (within_routine blockWithin)
  | declaration => exact ended (within_declaration fitting)
  | result => exact ended (within_resultStatement fitting)
  | control =>
      refine ended (bind (any _) fun word _ => pure ?_)
      split <;> exact Nat.zero_le _
  | print => exact ended (within_printStatement fitting)
  | expression => exact ended (within_expressionStatement fitting)

end Compound

/-- With some levels left, a statement has no more than these. -/
theorem within_statement (levels : Nat) :
    YieldsWithinItem levels (statement levels) := by
  induction levels with
  | zero =>
      refine within_statementOf (fitting_expression 0) fun _ => ?_
      exact bind (any _) fun _ _ => bind (any _) fun _ _ => pure (Nat.zero_le _)
  | succ levels hypothesis =>
      refine within_statementOf (fitting_expression (levels + 1))
        fun closers => ?_
      refine bind (any _) fun _ _ =>
        bind (sequence hypothesis) fun statements within => ?_
      exact bind (any _) fun _ _ => bind (any _) fun _ _ =>
        pure (Block.nesting_le_succ within _)

/--
A program is nested no deeper than the limit, whatever tokens it was read from.
-/
theorem nesting_readProgram (tokens : List Token) :
    (readProgram tokens).value.nesting ≤ nestingLimit := by
  have yields :
      program.Yields State.anyState
        (fun program => program.nesting ≤ nestingLimit) := by
    refine bind (sequence (within_statement nestingLimit))
      fun statements within => ?_
    exact bind (any _) fun _ _ => pure (Stmt.nestingAmong_le_iff.mpr within)
  exact yields _ trivial

end Clipper.Grammar
