import Clipper.Proofs.Grammar.Takes
import Clipper.Proofs.Listing.Printable

/-!
# The tokens of an expression spell the expression

A binary operation stands between parentheses, so the tokens of every expression
are those of an operand.  Where an expression is printable, its tokens are a
phrase of the grammar that stands for this expression, with as many levels as
the expression nests.

The lemmas go up the grammar: an operand, the suffixes behind it, the prefix
operators in front of it, and the levels of binary operators, all but the
lowest of which are passed without an operator.  Where a list of values
stands, between parentheses or braces, its commas are those of the grammar.
The levels of a printable tree bound how deep the phrase nests.
-/

namespace Clipper

open Grammar

namespace Grammar

variable {α : Type}

/--
Phrases that are joined by commas are a list of the grammar, if
there is at least one.
-/
theorem separatedPhrase_of_forall
    {item : Phrase α}
    {group : α → List Token}
    {values : List α}
    (nonempty : values ≠ [])
    (each : ∀ value ∈ values, item (group value) value) :
    SeparatedPhrase item (commaTokens (values.map group)) values := by
  induction values with
  | nil => exact absurd rfl nonempty
  | cons first rest hypothesis =>
      rw [List.forall_mem_cons] at each
      cases rest with
      | nil =>
          rw [List.map_singleton, commaTokens_single]
          exact .single each.1
      | cons second others =>
          rw [List.map_cons, List.map_cons, commaTokens_cons_cons]
          exact .further each.1 rfl (hypothesis (List.cons_ne_nil _ _) each.2)

/-- Phrases that are joined by commas are a list that may be empty. -/
theorem listPhrase_of_forall
    {item : Phrase α}
    {group : α → List Token}
    (values : List α)
    (each : ∀ value ∈ values, item (group value) value) :
    ListPhrase item (commaTokens (values.map group)) values := by
  cases values with
  | nil => exact .none
  | cons first rest =>
      exact .some (separatedPhrase_of_forall (List.cons_ne_nil _ _) each)

theorem namePhrase_token (identifier : Identifier) :
    NamePhrase [identifier.token] identifier :=
  .name rfl identifier.span

/-- An operator of any level between two operands. -/
theorem binaryPhrase_of_operands
    {operand : Phrase Expr}
    {before after : List Token}
    {left right : Expr}
    {operator : BinaryOperator}
    {sign : Token}
    (first : operand before left)
    (signs : sign.kind = operator.kind)
    (second : operand after right)
    (span : Span) :
    BinaryPhrase operand (before ++ sign :: after)
      (.binary operator left right span) := by
  have isOperator : BinaryOperator.ofKind? sign.kind = some operator := by
    rw [signs, BinaryOperator.ofKind?_kind]
  -- The operands are lifted to the levels above, and the operation to those
  -- below its own.
  cases operator with
  | or =>
      exact .join (.operand
        (.operand (.operand (.operand (.operand (.operand first))))))
        isOperator rfl (.operand
          (.operand (.operand (.operand (.operand second))))) span
  | and =>
      exact .operand
        (.join (.operand (.operand (.operand (.operand (.operand first)))))
          isOperator rfl
          (.operand (.operand (.operand (.operand second)))) span)
  | equal | exactlyEqual | notEqual =>
      exact .operand
        (.operand (.join (.operand (.operand (.operand (.operand first))))
          isOperator rfl (.operand (.operand (.operand second))) span))
  | less | lessEqual | greater | greaterEqual | contains =>
      exact .operand
        (.operand (.operand (.join (.operand (.operand (.operand first)))
          isOperator rfl (.operand (.operand second)) span)))
  | add | subtract =>
      exact .operand
        (.operand (.operand (.operand (.join (.operand (.operand first))
          isOperator rfl (.operand second) span))))
  | multiply | divide | modulo =>
      exact .operand
        (.operand (.operand (.operand (.operand (.join (.operand first)
          isOperator rfl second span)))))

/-- An operand without a prefix operator is a primary with suffixes. -/
theorem suffixedPhrase_of_operand
    {levels : Nat}
    {tokens : List Token}
    {tree : Expr}
    (phrased : OperandPhrase levels tokens tree)
    (notUnary : tree.isUnary = false) :
    SuffixedPhrase (ExpressionPhrase levels) tokens tree := by
  cases levels with
  | zero =>
      cases phrased with
      | operator => cases notUnary
      | suffixed suffixed => exact suffixed
  | succ levels =>
      cases phrased with
      | operator => cases notUnary
      | suffixed suffixed => exact suffixed

theorem operandPhrase_of_suffixed
    {levels : Nat}
    {tokens : List Token}
    {tree : Expr}
    (suffixed : SuffixedPhrase (ExpressionPhrase levels) tokens tree) :
    OperandPhrase levels tokens tree := by
  cases levels with
  | zero => exact .suffixed suffixed
  | succ levels => exact .suffixed suffixed

/-- An operand is an expression with one level more. -/
theorem expressionPhrase_of_operand
    {levels : Nat}
    {tokens : List Token}
    {tree : Expr}
    (phrased : OperandPhrase levels tokens tree) :
    ExpressionPhrase (levels + 1) tokens tree :=
  .operand (.operand (.operand (.operand (.operand (.operand phrased)))))

end Grammar

/-! ## Expressions -/

/-- The token of a printable literal is read as this literal. -/
theorem Literal.literal?_token
    {literal : Literal}
    (printable : literal.isPrintable = true) :
    literal? literal.token = some literal := by
  obtain ⟨kind, text⟩ := literal
  cases kind with
  | number | string => rfl
  | nil =>
      obtain rfl := beq_iff_eq.mp printable
      rfl
  | logical =>
      rw [isPrintable, Bool.or_eq_true, beq_iff_eq, beq_iff_eq] at printable
      obtain yes | no := printable
      · obtain rfl : text = ".T." := yes
        rfl
      · obtain rfl : text = ".F." := no
        rfl

namespace Expr

/--
Of the expressions that take a suffix, only
a message without arguments ends in one.
-/
theorem not_endsInMessage
    (value : Expr)
    (notUnary : value.isUnary = false)
    (notProperty : value.isProperty = false) :
    ¬ EndsInMessage value.tokens := by
  intro ends
  -- The others are one token, end in a column or end in a delimiter.
  cases value with
  | unary => cases notUnary
  | property => cases notProperty
  | literal | name =>
      obtain ⟨before, colon, name, same, -⟩ := ends
      simpa [tokens] using congrArg List.length same
  | field area column =>
      rw [tokens, endsInMessage_append_pair] at ends
      cases ends.1
  | binary | call | index | array | send | codeBlock =>
      simpa [tokens, List.getLast?_cons] using ends.kind_getLast?

mutual

/--
The tokens of a printable expression are
a phrase that stands for the expression.
-/
theorem operandPhrase
    (value : Expr)
    (printable : value.isPrintable = true)
    {levels : Nat}
    (shallow : value.levels ≤ levels) :
    OperandPhrase levels value.tokens value := by
  cases value with
  | literal value =>
      exact operandPhrase_of_suffixed
        (.primary (.literal (Literal.literal?_token printable) _))
  | name identifier =>
      exact operandPhrase_of_suffixed
        (.primary (.name (namePhrase_token identifier) _))
  | unary operator operand =>
      obtain ⟨levels, rfl⟩ :=
        Nat.exists_eq_succ_of_ne_zero (Nat.ne_zero_of_lt shallow)
      exact .operator (UnaryOperator.ofKind?_kind operator)
        (operandPhrase operand printable (Nat.le_of_succ_le_succ shallow)) _
  | binary operator left right span =>
      obtain ⟨levels, rfl⟩ :=
        Nat.exists_eq_succ_of_ne_zero (Nat.ne_zero_of_lt shallow)
      simp only [isPrintable, Bool.and_eq_true] at printable
      rw [Expr.levels, Nat.succ_le_succ_iff, Nat.max_le] at shallow
      have inner := binaryPhrase_of_operands
        (operandPhrase left printable.1 shallow.1)
        (Token.kind_unplaced operator.kind operator.spelling)
        (operandPhrase right printable.2 shallow.2) span
      have between : PrimaryPhrase (ExpressionPhrase (levels + 1))
          (.unplaced .leftParenthesis "(" ::
            ((left.tokens ++ .unplaced operator.kind operator.spelling ::
              right.tokens) ++
              [.unplaced .rightParenthesis ")"]))
          (.binary operator left right span) :=
        .parenthesized rfl inner rfl span
      rw [List.append_assoc] at between
      exact .suffixed (.primary between)
  | call callee arguments span =>
      simp only [isPrintable, Bool.and_eq_true, Bool.not_eq_true'] at printable
      obtain ⟨⟨⟨isCallee, notUnary⟩, notProperty⟩, areArguments⟩ := printable
      rw [Expr.levels, Nat.max_le] at shallow
      have first := operandPhrase callee isCallee shallow.1
      exact operandPhrase_of_suffixed
        (.call (suffixedPhrase_of_operand first notUnary)
          (callee.not_endsInMessage notUnary notProperty) rfl
          (expressionList arguments areArguments shallow.2) rfl span)
  | index target position span =>
      simp only [isPrintable, Bool.and_eq_true, Bool.not_eq_true'] at printable
      obtain ⟨⟨isTarget, notUnary⟩, isPosition⟩ := printable
      rw [Expr.levels, Nat.max_le] at shallow
      obtain ⟨levels, rfl⟩ :=
        Nat.exists_eq_succ_of_ne_zero (Nat.ne_zero_of_lt shallow.2)
      have first := operandPhrase target isTarget shallow.1
      have between := expressionPhrase_of_operand
        (operandPhrase position isPosition (Nat.le_of_succ_le_succ shallow.2))
      exact operandPhrase_of_suffixed
        (.index (suffixedPhrase_of_operand first notUnary) rfl between rfl span)
  | array elements span =>
      exact operandPhrase_of_suffixed
        (.primary (.array rfl (expressionList elements printable shallow)
          rfl span))
  | property receiver message span =>
      simp only [isPrintable, Bool.and_eq_true, Bool.not_eq_true'] at printable
      have first := operandPhrase receiver printable.1.1 shallow
      exact operandPhrase_of_suffixed
        (.property (suffixedPhrase_of_operand first printable.1.2)
          rfl (namePhrase_token message) span)
  | send receiver message arguments span =>
      simp only [isPrintable, Bool.and_eq_true, Bool.not_eq_true'] at printable
      rw [Expr.levels, Nat.max_le] at shallow
      have first := operandPhrase receiver printable.1.1.1 shallow.1
      exact operandPhrase_of_suffixed
        (.send (suffixedPhrase_of_operand first printable.1.1.2)
          rfl (namePhrase_token message)
          rfl (expressionList arguments printable.2 shallow.2) rfl span)
  | field area column span =>
      simp only [isPrintable, Bool.and_eq_true, Bool.not_eq_true'] at printable
      have first := operandPhrase area printable.1.1 shallow
      exact operandPhrase_of_suffixed
        (.field (suffixedPhrase_of_operand first printable.1.2)
          rfl (namePhrase_token column) span)
  | codeBlock parameters body span =>
      simp only [isPrintable, Bool.and_eq_true] at printable
      have names := listPhrase_of_forall parameters fun parameter _ =>
        namePhrase_token parameter
      exact operandPhrase_of_suffixed
        (.primary (.codeBlock rfl rfl names rfl
          (expressionList body printable.2 shallow) rfl span))

theorem expressionList
    (values : List Expr)
    (printable : arePrintable values = true)
    {levels : Nat}
    (shallow : levelsInside values ≤ levels) :
    ListPhrase (ExpressionPhrase levels) (commaTokens (tokenGroups values))
      values := by
  rw [tokenGroups_eq_map]
  exact listPhrase_of_forall values (expressionPhrases values printable shallow)

/--
Every expression of a list is a phrase of the grammar, with the
levels that the list has.
-/
theorem expressionPhrases
    (values : List Expr)
    (printable : arePrintable values = true)
    {levels : Nat}
    (shallow : levelsInside values ≤ levels)
    (value : Expr)
    (among : value ∈ values) :
    ExpressionPhrase levels value.tokens value := by
  cases values with
  | nil => cases among
  | cons first rest =>
      rw [arePrintable, Bool.and_eq_true] at printable
      rw [levelsInside, Nat.max_le] at shallow
      obtain rfl | among := List.mem_cons.mp among
      · obtain ⟨levels, rfl⟩ :=
          Nat.exists_eq_succ_of_ne_zero (Nat.ne_zero_of_lt shallow.1)
        exact expressionPhrase_of_operand
          (operandPhrase value printable.1 (Nat.le_of_succ_le_succ shallow.1))
      · exact expressionPhrases rest printable.2 shallow.2 value among

end

end Expr

/-! ## Reading expressions -/

open Rule
open Relabelled (relabel)

theorem relabel_blind_identifier (name : Identifier) :
    relabel .blind name = name.bare :=
  rfl

mutual

/-- Without its places, an expression is bare. -/
theorem relabel_blind_expr (value : Expr) :
    relabel .blind value = value.bare := by
  cases value with
  | literal value =>
      obtain ⟨kind, text⟩ := value
      cases kind <;> rfl
  | name => rfl
  | unary _ operand => simp [Expr.bare, relabel_blind_expr operand]
  | binary _ left right =>
      simp [Expr.bare, relabel_blind_expr left, relabel_blind_expr right]
  | call callee arguments =>
      simp [Expr.bare, relabel_blind_expr callee, relabel_blind_exprs arguments]
  | index target position =>
      simp [Expr.bare, relabel_blind_expr target, relabel_blind_expr position]
  | array elements => simp [Expr.bare, relabel_blind_exprs elements]
  | property receiver =>
      simp [Expr.bare, relabel_blind_identifier, relabel_blind_expr receiver]
  | send receiver _ arguments =>
      simp [Expr.bare, relabel_blind_identifier, relabel_blind_expr receiver,
        relabel_blind_exprs arguments]
  | field area =>
      simp [Expr.bare, relabel_blind_identifier, relabel_blind_expr area]
  | codeBlock _ body =>
      simp [Expr.bare, relabel_blind_identifier, relabel_blind_exprs body]

theorem relabel_blind_exprs (values : List Expr) :
    values.map (relabel .blind) = values.map Expr.bare := by
  cases values with
  | nil => rfl
  | cons first rest =>
      rw [List.map_cons, List.map_cons, relabel_blind_expr first,
        relabel_blind_exprs rest]

end

/-- An expression is read up to its places, where nothing prolongs it. -/
theorem complete_expression_blind (levels : Nat) :
    Complete (expression levels) (ExpressionPhrase levels) (Stops 1)
      (relabel .blind) := by
  rw [show relabel Relabelling.blind = Expr.bare from funext relabel_blind_expr]
  exact complete_expression levels

/-- The second value is the first one, up to places. -/
def Alike
    {α : Type}
    [Relabelled α]
    (value result : α) :
    Prop :=
  relabel .blind result = relabel .blind value

theorem Alike.some
    {α : Type}
    [Relabelled α]
    {value result : α}
    (alike : Alike value result) :
    Alike (Option.some value) (Option.some result) :=
  congrArg Option.some alike

section

variable {levels : Nat} {after : List Token}

theorem Expr.phrase_tokens
    {value : Expr}
    (printable : value.isPrintable = true)
    (shallow : value.levels < levels) :
    ExpressionPhrase levels value.tokens value := by
  obtain ⟨levels, rfl⟩ :=
    Nat.exists_eq_succ_of_ne_zero (Nat.ne_zero_of_lt shallow)
  exact expressionPhrase_of_operand
    (value.operandPhrase printable (Nat.le_of_lt_succ shallow))

theorem Expr.takes
    {value : Expr}
    (printable : value.isPrintable = true)
    (shallow : value.levels < levels)
    (stops : Stops 1 (headKind after)) :
    Takes (expression levels) value.tokens after (Alike value) :=
  (complete_expression_blind _).takes
    (value.phrase_tokens printable shallow) stops

/-- The tokens of an expression begin as an expression begins. -/
theorem Expr.opens_tokens
    {value : Expr}
    (printable : value.isPrintable = true) :
    value.tokens ≠ [] ∧ opensExpression (headKind value.tokens) = true :=
  begins_operand _ _ _ (value.operandPhrase printable le_rfl)

end

end Clipper
