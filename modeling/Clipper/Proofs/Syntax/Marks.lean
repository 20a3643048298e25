import Clipper.Grammar.Statement
import Clipper.Proofs.Lexeme.Words

/-!
# What a tree shows of its tokens

Every name, literal and operator of a tree was a token, and a token stood for
every statement that is more than an expression, for every suffix, array and
code block.  These are the marks of the tree, in the order of the source.
Placeholders and blocks have no marks of their own.

The marks connect a tree with the tokens it was made from: what holds of every
token holds of every mark.  For a node with an operator or a delimiter of its
own, the mark comes where that token stood, between the marks of the parts.
That the order is the one of the source is used to show that a reading never
makes more of its tokens than they are, and that it keeps their order.
-/

namespace Clipper

open Grammar

/-- A part of a tree that was made from a token. -/
inductive Mark where
  | name (identifier : Identifier)
  | literal (value : Literal)
  /-- An operator, by the kind of its token. -/
  | operator (kind : TokenKind)
  /-- A statement, a suffix, an array or a code block. -/
  | form
deriving DecidableEq

/--
The marks that a token can leave in a tree:
one for what it says, one for what it opens.
-/
def Token.marks (token : Token) : List Mark :=
  .form ::
    (match literal? token with
      | some value => [.literal value]
      | none =>
          if token.kind = .identifier then [.name ⟨token.lexeme, token.span⟩]
          else [.operator token.kind])

/-- The mark of a name; a placeholder has none. -/
def Identifier.marks (identifier : Identifier) : List Mark :=
  if identifier.isPlaceholder then [] else [.name identifier]

mutual

/-- The marks of an expression. -/
def Expr.marks : Expr → List Mark
  | .literal value _ => [.literal value]
  | .name identifier _ => identifier.marks
  | .unary operator operand _ => .operator operator.kind :: operand.marks
  | .binary operator left right _ =>
      left.marks ++ .operator operator.kind :: right.marks
  | .call callee arguments _ => callee.marks ++ .form :: Expr.allMarks arguments
  | .index target position _ => target.marks ++ .form :: position.marks
  | .array elements _ => .form :: Expr.allMarks elements
  | .property receiver message _ => receiver.marks ++ .form :: message.marks
  | .send receiver message arguments _ =>
      receiver.marks ++ .form :: (message.marks ++ Expr.allMarks arguments)
  | .field area column _ => area.marks ++ .form :: column.marks
  | .codeBlock parameters body _ =>
      .form :: (parameters.flatMap Identifier.marks ++ Expr.allMarks body)

/-- The marks of several expressions. -/
def Expr.allMarks : List Expr → List Mark
  | [] => []
  | first :: rest => first.marks ++ Expr.allMarks rest

end

/-- The marks of a declared name with its first value. -/
def Binding.marks (binding : Binding) : List Mark :=
  binding.name.marks ++ binding.value?.elim [] Expr.marks

mutual

/-- The marks of a statement. -/
def Stmt.marks : Stmt → List Mark
  | .expression value _ => value.marks
  | .assign target value _ => target.marks ++ .form :: value.marks
  | .update target operator value _ =>
      target.marks ++ .operator operator.kind :: value.marks
  | .print _ values _ => .form :: values.flatMap Expr.marks
  | .declare _ bindings _ => .form :: bindings.flatMap Binding.marks
  | .result value? _ => .form :: value?.elim [] Expr.marks
  | .conditional condition positive none _ =>
      .form :: (condition.marks ++ positive.marks)
  | .conditional condition positive (some negative) _ =>
      .form :: (condition.marks ++ positive.marks ++ negative.marks)
  | .whileLoop condition body _ => .form :: (condition.marks ++ body.marks)
  | .forLoop counter first last step? body _ =>
      .form ::
        (counter.marks ++ first.marks ++ last.marks ++
          step?.elim [] Expr.marks ++ body.marks)
  | .routine head body _ =>
      .form :: (head.name.marks ++
        head.parameters.flatMap Identifier.marks ++ body.marks)
  | .exit _ => [.form]
  | .loop _ => [.form]

/-- The marks of a block. -/
def Block.marks : Block → List Mark
  | .of statements _ => Stmt.allMarks statements

/-- The marks of several statements. -/
def Stmt.allMarks : List Stmt → List Mark
  | [] => []
  | first :: rest => first.marks ++ Stmt.allMarks rest

end

@[simp]
theorem Expr.allMarks_eq_flatMap (values : List Expr) :
    allMarks values = values.flatMap marks := by
  induction values with
  | nil => rfl
  | cons first rest hypothesis => rw [allMarks, hypothesis, List.flatMap_cons]

@[simp]
theorem Stmt.allMarks_eq_flatMap (statements : List Stmt) :
    allMarks statements = statements.flatMap marks := by
  induction statements with
  | nil => rfl
  | cons first rest hypothesis => rw [allMarks, hypothesis, List.flatMap_cons]

@[simp]
theorem Expr.marks_withSpan
    (value : Expr)
    (span : Span) :
    (value.withSpan span).marks = value.marks := by
  cases value <;> simp [withSpan, marks]

@[simp]
theorem Identifier.marks_placeholder (offset : Nat) :
    (placeholder offset).marks = [] :=
  rfl

@[simp]
theorem Expr.marks_placeholder (offset : Nat) :
    (placeholder offset).marks = [] := by
  rw [placeholder, ofIdentifier, marks, Identifier.marks_placeholder]

/-! ## Marks of tokens -/

/-- The marks of a tree are marks of some tokens, in order. -/
def Shows
    (marks : List Mark)
    (tokens : List Token) :
    Prop :=
  marks.Sublist (tokens.flatMap Token.marks)

namespace Shows

variable {marks others : List Mark} {tokens later : List Token} {token : Token}

theorem nothing (tokens : List Token) : Shows [] tokens :=
  List.nil_sublist _

theorem append
    (first : Shows marks tokens)
    (second : Shows others later) :
    Shows (marks ++ others) (tokens ++ later) := by
  rw [Shows, List.flatMap_append]
  exact List.Sublist.append first second

/-- More tokens may be passed than are shown. -/
theorem passing
    (first : Shows marks tokens)
    (later : List Token) :
    Shows marks (tokens ++ later) := by
  simpa using first.append (nothing later)

theorem after
    (last : Shows marks tokens)
    (earlier : List Token) :
    Shows marks (earlier ++ tokens) :=
  (nothing earlier).append last

theorem form (token : Token) : Shows [.form] [token] := by
  rw [Shows, List.flatMap_singleton, List.singleton_sublist]
  exact List.mem_cons_self

theorem single
    {mark : Mark}
    (member : mark ∈ token.marks) :
    Shows [mark] [token] := by
  rw [Shows, List.flatMap_singleton, List.singleton_sublist]
  exact member

end Shows

theorem literal_mem_marks
    {token : Token}
    {value : Literal}
    (isLiteral : literal? token = some value) :
    .literal value ∈ token.marks := by
  simp [Token.marks, isLiteral]

theorem literal?_eq_none
    {token : Token}
    (isLiteral : token.kind ∉ [.number, .string, .nil, .yes, .no]) :
    literal? token = none := by
  unfold literal?
  split <;> simp_all

theorem name_mem_marks
    {token : Token}
    (isName : token.kind = .identifier) :
    .name ⟨token.lexeme, token.span⟩ ∈ token.marks := by
  rw [Token.marks, literal?_eq_none (by rw [isName]; decide), if_pos isName]
  simp

theorem operator_mem_marks
    {token : Token}
    (noLiteral : token.kind ∉
      [.number, .string, .nil, .yes, .no, .identifier]) :
    .operator token.kind ∈ token.marks := by
  simp only [List.mem_cons, List.not_mem_nil, or_false, not_or] at noLiteral
  simp [Token.marks, literal?_eq_none, noLiteral]

/-- A name that was read shows its token. -/
theorem Identifier.shows_token
    {token : Token}
    (isName : token.kind = .identifier) :
    Shows (Identifier.mk token.lexeme token.span).marks [token] := by
  rw [Identifier.marks]
  split
  · exact .nothing _
  · exact .single (name_mem_marks isName)

/--
The kind of a token that stands for a binary operator is that of the operator.
-/
theorem BinaryOperator.mark_of_token
    {token : Token}
    {operator : BinaryOperator}
    (isOperator : ofKind? token.kind = some operator) :
    Shows [.operator operator.kind] [token] := by
  have same : token.kind = operator.kind := by
    unfold ofKind? at isOperator
    split at isOperator <;> cases isOperator <;> assumption
  rw [← same]
  refine .single (operator_mem_marks ?_)
  rw [same]
  cases operator <;> decide

/-- The token of a prefix operator shows the mark of this operator. -/
theorem UnaryOperator.mark_of_token
    {token : Token}
    {operator : UnaryOperator}
    (isOperator : ofKind? token.kind = some operator) :
    Shows [.operator operator.kind] [token] := by
  have same : token.kind = operator.kind := by
    unfold ofKind? at isOperator
    split at isOperator <;> cases isOperator <;> assumption
  rw [← same]
  refine .single (operator_mem_marks ?_)
  rw [same]
  cases operator <;> decide

/-- The token of an updating assignment shows the mark of its operator. -/
theorem UpdateOperator.mark_of_token
    {token : Token}
    {operator : UpdateOperator}
    (isOperator : ofKind? token.kind = some operator) :
    Shows [.operator operator.kind] [token] := by
  have same : token.kind = operator.kind := by
    unfold ofKind? at isOperator
    split at isOperator <;> cases isOperator <;> assumption
  rw [← same]
  refine .single (operator_mem_marks ?_)
  rw [same]
  cases operator <;> decide

end Clipper
