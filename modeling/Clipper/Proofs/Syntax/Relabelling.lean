import Clipper.Source.Text
import Clipper.Syntax.Statement
import Clipper.Token.Basic
import Mathlib.Order.MinMax

/-!
# Relabelling

A relabelling moves offsets without changing their order, and respells the texts
of tokens so that names which were the same remain so.  It acts on tokens, on
trees, and on whatever else is made of spans and texts.

The class `Relabelled` says how a relabelling acts on a type, and instances
exist for lists, options and pairs.  For each form of tree there is a lemma
that moves the relabelling to the parts, and these are simplification rules;
so a proof that a rule commutes with relabelling comes down to the facts about
the tokens and states that it reads.  The relabelling that changes nothing and
the blind one are the two that occur most.
-/

namespace Clipper

/-- A change of offsets and of the texts of tokens. -/
structure Relabelling where
  offset : Nat → Nat
  lexeme : TokenKind → String → String
  offset_monotone : Monotone offset
  offset_zero : offset 0 = 0
  lexeme_placeholder :
    lexeme .identifier Identifier.placeholderName = Identifier.placeholderName
  lexeme_endOfFile : lexeme .endOfFile "" = ""
  sameName :
    ∀ first second,
      Source.sameIgnoringCase (lexeme .identifier first)
        (lexeme .identifier second) = Source.sameIgnoringCase first second

/-- Types on whose values relabellings act. -/
class Relabelled (α : Type) where
  relabel : Relabelling → α → α

open Relabelled (relabel)

variable {change : Relabelling}

/-! ## Offsets and spans -/

/-- Numbers are offsets here. -/
instance : Relabelled Nat where
  relabel change := change.offset

instance : Relabelled Span where
  relabel change span := ⟨relabel change span.start, relabel change span.stop⟩

@[simp]
theorem relabel_zero : relabel change 0 = 0 :=
  change.offset_zero

@[simp]
theorem relabel_max (first second : Nat) :
    relabel change (max first second) =
      max (relabel change first) (relabel change second) :=
  change.offset_monotone.map_max

@[simp]
theorem relabel_min (first second : Nat) :
    relabel change (min first second) =
      min (relabel change first) (relabel change second) :=
  change.offset_monotone.map_min

@[simp]
theorem relabel_span (start stop : Nat) :
    relabel change (Span.mk start stop) =
      ⟨relabel change start, relabel change stop⟩ :=
  rfl

@[simp]
theorem start_relabel (span : Span) :
    (relabel change span).start = relabel change span.start :=
  rfl

@[simp]
theorem stop_relabel (span : Span) :
    (relabel change span).stop = relabel change span.stop :=
  rfl

@[simp]
theorem relabel_empty (offset : Nat) :
    relabel change (Span.empty offset) = Span.empty (relabel change offset) :=
  rfl

@[simp]
theorem relabel_merge (first second : Span) :
    relabel change (first.merge second) =
      (relabel change first).merge (relabel change second) := by
  simp [Span.merge]

/-! ## Lists, options and pairs -/

section Containers

variable {α β : Type} [Relabelled α] [Relabelled β]

instance : Relabelled Bool where
  relabel _ answer := answer

instance : Relabelled Unit where
  relabel _ nothing := nothing

instance : Relabelled (List α) where
  relabel change := List.map (relabel change)

instance : Relabelled (Option α) where
  relabel change := Option.map (relabel change)

instance : Relabelled (α × β) where
  relabel change pair := (relabel change pair.1, relabel change pair.2)

@[simp]
theorem relabel_bool (answer : Bool) : relabel change answer = answer :=
  rfl

@[simp]
theorem relabel_list (values : List α) :
    relabel change values = values.map (relabel change) :=
  rfl

@[simp]
theorem relabel_option (value? : Option α) :
    relabel change value? = value?.map (relabel change) :=
  rfl

@[simp]
theorem relabel_pair (pair : α × β) :
    relabel change pair = (relabel change pair.1, relabel change pair.2) :=
  rfl

end Containers

/--
The merge of relabelled spans is the merge of the spans, relabelled, since the
order of offsets is kept.
-/
@[simp]
theorem relabel_mergeAll
    (span : Span)
    (others : List Span) :
    relabel change (span.mergeAll others) =
      (relabel change span).mergeAll (others.map (relabel change)) := by
  rw [Span.mergeAll, Span.mergeAll]
  induction others generalizing span with
  | nil => rfl
  | cons first rest hypothesis =>
      rw [List.foldl_cons, hypothesis, relabel_merge, List.map_cons,
        List.foldl_cons]

/-! ## Tokens, names and literals -/

instance : Relabelled Token where
  relabel change token :=
    ⟨token.kind, relabel change token.span,
      change.lexeme token.kind token.lexeme⟩

@[simp]
theorem kind_relabel (token : Token) :
    (relabel change token).kind = token.kind :=
  rfl

@[simp]
theorem span_relabel_token (token : Token) :
    (relabel change token).span = relabel change token.span :=
  rfl

@[simp]
theorem lexeme_relabel (token : Token) :
    (relabel change token).lexeme = change.lexeme token.kind token.lexeme :=
  rfl

instance : Relabelled Identifier where
  relabel change name :=
    ⟨change.lexeme .identifier name.name, relabel change name.span⟩

@[simp]
theorem relabel_identifier
    (name : String)
    (span : Span) :
    relabel change (Identifier.mk name span) =
      ⟨change.lexeme .identifier name, relabel change span⟩ :=
  rfl

@[simp]
theorem span_relabel_identifier (name : Identifier) :
    (relabel change name).span = relabel change name.span :=
  rfl

@[simp]
theorem relabel_placeholder (offset : Nat) :
    relabel change (Identifier.placeholder offset) =
      Identifier.placeholder (relabel change offset) := by
  rw [Identifier.placeholder, relabel_identifier, change.lexeme_placeholder,
    relabel_empty, Identifier.placeholder]

/-- The constants have one spelling each, which no relabelling changes. -/
instance : Relabelled Literal where
  relabel change literal :=
    match literal.kind with
    | .number => ⟨.number, change.lexeme .number literal.text⟩
    | .string => ⟨.string, change.lexeme .string literal.text⟩
    | .nil | .logical => literal

/-! ## Expressions -/

namespace Expr

mutual

/-- A relabelled expression. -/
def relabel (change : Relabelling) : Expr → Expr
  | literal value span =>
      literal (Relabelled.relabel change value) (Relabelled.relabel change span)
  | name identifier span =>
      name (Relabelled.relabel change identifier)
        (Relabelled.relabel change span)
  | unary operator operand span =>
      unary operator (operand.relabel change) (Relabelled.relabel change span)
  | binary operator left right span =>
      binary operator (left.relabel change) (right.relabel change)
        (Relabelled.relabel change span)
  | call callee arguments span =>
      call (callee.relabel change) (relabelAll change arguments)
        (Relabelled.relabel change span)
  | index target position span =>
      index (target.relabel change) (position.relabel change)
        (Relabelled.relabel change span)
  | array elements span =>
      array (relabelAll change elements) (Relabelled.relabel change span)
  | property receiver message span =>
      property (receiver.relabel change) (Relabelled.relabel change message)
        (Relabelled.relabel change span)
  | send receiver message arguments span =>
      send (receiver.relabel change) (Relabelled.relabel change message)
        (relabelAll change arguments) (Relabelled.relabel change span)
  | field area column span =>
      field (area.relabel change) (Relabelled.relabel change column)
        (Relabelled.relabel change span)
  | codeBlock parameters body span =>
      codeBlock (Relabelled.relabel change parameters) (relabelAll change body)
        (Relabelled.relabel change span)

/-- Several relabelled expressions. -/
def relabelAll (change : Relabelling) : List Expr → List Expr
  | [] => []
  | first :: rest => first.relabel change :: relabelAll change rest

end

theorem relabelAll_eq_map (expressions : List Expr) :
    relabelAll change expressions = expressions.map (relabel change) := by
  induction expressions with
  | nil => rfl
  | cons first rest hypothesis => rw [relabelAll, hypothesis, List.map_cons]

end Expr

instance : Relabelled Expr where
  relabel := Expr.relabel

section Expressions

variable (span : Span)

@[simp]
theorem relabel_literal (value : Literal) :
    relabel change (Expr.literal value span) =
      .literal (relabel change value) (relabel change span) :=
  rfl

@[simp]
theorem relabel_name (name : Identifier) :
    relabel change (Expr.name name span) =
      .name (relabel change name) (relabel change span) :=
  rfl

@[simp]
theorem relabel_unary
    (operator : UnaryOperator)
    (operand : Expr) :
    relabel change (Expr.unary operator operand span) =
      .unary operator (relabel change operand) (relabel change span) :=
  rfl

@[simp]
theorem relabel_binary
    (operator : BinaryOperator)
    (left right : Expr) :
    relabel change (Expr.binary operator left right span) =
      .binary operator (relabel change left) (relabel change right)
        (relabel change span) :=
  rfl

@[simp]
theorem relabel_call
    (callee : Expr)
    (arguments : List Expr) :
    relabel change (Expr.call callee arguments span) =
      .call (relabel change callee) (relabel change arguments)
        (relabel change span) :=
  congrArg (Expr.call _ · _) (Expr.relabelAll_eq_map arguments)

@[simp]
theorem relabel_index (target position : Expr) :
    relabel change (Expr.index target position span) =
      .index (relabel change target) (relabel change position)
        (relabel change span) :=
  rfl

@[simp]
theorem relabel_array (elements : List Expr) :
    relabel change (Expr.array elements span) =
      .array (relabel change elements) (relabel change span) :=
  congrArg (Expr.array · _) (Expr.relabelAll_eq_map elements)

@[simp]
theorem relabel_property
    (receiver : Expr)
    (message : Identifier) :
    relabel change (Expr.property receiver message span) =
      .property (relabel change receiver) (relabel change message)
        (relabel change span) :=
  rfl

@[simp]
theorem relabel_send
    (receiver : Expr)
    (message : Identifier)
    (arguments : List Expr) :
    relabel change (Expr.send receiver message arguments span) =
      .send (relabel change receiver) (relabel change message)
        (relabel change arguments) (relabel change span) :=
  congrArg (Expr.send _ _ · _) (Expr.relabelAll_eq_map arguments)

@[simp]
theorem relabel_field
    (area : Expr)
    (column : Identifier) :
    relabel change (Expr.field area column span) =
      .field (relabel change area) (relabel change column)
        (relabel change span) :=
  rfl

@[simp]
theorem relabel_codeBlock
    (parameters : List Identifier)
    (body : List Expr) :
    relabel change (Expr.codeBlock parameters body span) =
      .codeBlock (relabel change parameters) (relabel change body)
        (relabel change span) :=
  congrArg (Expr.codeBlock _ · _) (Expr.relabelAll_eq_map body)

end Expressions

@[simp]
theorem span_relabel_expr (value : Expr) :
    (relabel change value).span = relabel change value.span := by
  cases value <;> simp [Expr.span]

@[simp]
theorem relabel_withSpan
    (value : Expr)
    (span : Span) :
    relabel change (value.withSpan span) =
      (relabel change value).withSpan (relabel change span) := by
  cases value <;> simp [Expr.withSpan]

@[simp]
theorem relabel_ofIdentifier (name : Identifier) :
    relabel change (Expr.ofIdentifier name) =
      Expr.ofIdentifier (relabel change name) :=
  rfl

@[simp]
theorem relabel_placeholder_expr (offset : Nat) :
    relabel change (Expr.placeholder offset) =
      Expr.placeholder (relabel change offset) := by
  rw [Expr.placeholder, relabel_ofIdentifier, relabel_placeholder,
    Expr.placeholder]

@[simp]
theorem isAssignable_relabel (value : Expr) :
    (relabel change value).isAssignable = value.isAssignable := by
  cases value <;> simp [Expr.isAssignable]

/-! ## Statements -/

instance : Relabelled Binding where
  relabel change binding :=
    ⟨relabel change binding.name, relabel change binding.value?,
      relabel change binding.span⟩

instance : Relabelled RoutineHead where
  relabel change head :=
    ⟨head.kind, head.isStatic, relabel change head.name,
      relabel change head.parameters⟩

mutual

/-- A relabelled statement. -/
def Stmt.relabel (change : Relabelling) : Stmt → Stmt
  | .expression value span =>
      .expression (Relabelled.relabel change value)
        (Relabelled.relabel change span)
  | .assign target value span =>
      .assign (Relabelled.relabel change target)
        (Relabelled.relabel change value) (Relabelled.relabel change span)
  | .update target operator value span =>
      .update (Relabelled.relabel change target) operator
        (Relabelled.relabel change value) (Relabelled.relabel change span)
  | .print newLine values span =>
      .print newLine (Relabelled.relabel change values)
        (Relabelled.relabel change span)
  | .declare storage bindings span =>
      .declare storage (Relabelled.relabel change bindings)
        (Relabelled.relabel change span)
  | .result value? span =>
      .result (Relabelled.relabel change value?)
        (Relabelled.relabel change span)
  | .conditional condition positive none span =>
      .conditional (Relabelled.relabel change condition)
        (positive.relabel change) none (Relabelled.relabel change span)
  | .conditional condition positive (some negative) span =>
      .conditional (Relabelled.relabel change condition)
        (positive.relabel change)
        (some (negative.relabel change)) (Relabelled.relabel change span)
  | .whileLoop condition body span =>
      .whileLoop (Relabelled.relabel change condition) (body.relabel change)
        (Relabelled.relabel change span)
  | .forLoop counter first last step? body span =>
      .forLoop (Relabelled.relabel change counter)
        (Relabelled.relabel change first)
        (Relabelled.relabel change last) (Relabelled.relabel change step?)
        (body.relabel change)
        (Relabelled.relabel change span)
  | .routine head body span =>
      .routine (Relabelled.relabel change head) (body.relabel change)
        (Relabelled.relabel change span)
  | .exit span => .exit (Relabelled.relabel change span)
  | .loop span => .loop (Relabelled.relabel change span)

/-- A relabelled block. -/
def Block.relabel (change : Relabelling) : Block → Block
  | .of statements span =>
      .of (Stmt.relabelAll change statements) (Relabelled.relabel change span)

/-- Several relabelled statements. -/
def Stmt.relabelAll (change : Relabelling) : List Stmt → List Stmt
  | [] => []
  | first :: rest => first.relabel change :: Stmt.relabelAll change rest

end

theorem Stmt.relabelAll_eq_map (statements : List Stmt) :
    relabelAll change statements = statements.map (relabel change) := by
  induction statements with
  | nil => rfl
  | cons first rest hypothesis => rw [relabelAll, hypothesis, List.map_cons]

instance : Relabelled Stmt where
  relabel := Stmt.relabel

instance : Relabelled Block where
  relabel := Block.relabel

instance : Relabelled Program where
  relabel change program :=
    ⟨relabel change program.statements, relabel change program.span⟩

section Statements

variable (span : Span)

@[simp]
theorem relabel_binding
    (name : Identifier)
    (value? : Option Expr) :
    relabel change (Binding.mk name value? span) =
      ⟨relabel change name, relabel change value?, relabel change span⟩ :=
  rfl

@[simp]
theorem span_relabel_binding (binding : Binding) :
    (relabel change binding).span = relabel change binding.span :=
  rfl

@[simp]
theorem relabel_routineHead
    (kind : RoutineKind)
    (isStatic : Bool)
    (name : Identifier)
    (parameters : List Identifier) :
    relabel change (RoutineHead.mk kind isStatic name parameters) =
      ⟨kind, isStatic, relabel change name, relabel change parameters⟩ :=
  rfl

@[simp]
theorem relabel_expressionStmt (value : Expr) :
    relabel change (Stmt.expression value span) =
      .expression (relabel change value) (relabel change span) :=
  rfl

@[simp]
theorem relabel_assign (target value : Expr) :
    relabel change (Stmt.assign target value span) =
      .assign (relabel change target) (relabel change value)
        (relabel change span) :=
  rfl

@[simp]
theorem relabel_update
    (target : Expr)
    (operator : UpdateOperator)
    (value : Expr) :
    relabel change (Stmt.update target operator value span) =
      .update (relabel change target) operator (relabel change value)
        (relabel change span) :=
  rfl

@[simp]
theorem relabel_print
    (newLine : Bool)
    (values : List Expr) :
    relabel change (Stmt.print newLine values span) =
      .print newLine (relabel change values) (relabel change span) :=
  rfl

@[simp]
theorem relabel_declare
    (storage : Storage)
    (bindings : List Binding) :
    relabel change (Stmt.declare storage bindings span) =
      .declare storage (relabel change bindings) (relabel change span) :=
  rfl

@[simp]
theorem relabel_result (value? : Option Expr) :
    relabel change (Stmt.result value? span) =
      .result (relabel change value?) (relabel change span) :=
  rfl

@[simp]
theorem relabel_conditional
    (condition : Expr)
    (positive : Block)
    (negative? : Option Block) :
    relabel change (Stmt.conditional condition positive negative? span) =
      .conditional (relabel change condition) (relabel change positive)
        (relabel change negative?) (relabel change span) := by
  cases negative? <;> rfl

@[simp]
theorem relabel_whileLoop
    (condition : Expr)
    (body : Block) :
    relabel change (Stmt.whileLoop condition body span) =
      .whileLoop (relabel change condition) (relabel change body)
        (relabel change span) :=
  rfl

@[simp]
theorem relabel_forLoop
    (counter : Identifier)
    (first last : Expr)
    (step? : Option Expr)
    (body : Block) :
    relabel change (Stmt.forLoop counter first last step? body span) =
      .forLoop (relabel change counter) (relabel change first)
        (relabel change last)
        (relabel change step?) (relabel change body) (relabel change span) :=
  rfl

@[simp]
theorem relabel_routine
    (head : RoutineHead)
    (body : Block) :
    relabel change (Stmt.routine head body span) =
      .routine (relabel change head) (relabel change body)
        (relabel change span) :=
  rfl

@[simp]
theorem relabel_exit : relabel change (Stmt.exit span) =
    .exit (relabel change span) :=
  rfl

@[simp]
theorem relabel_loop : relabel change (Stmt.loop span) =
    .loop (relabel change span) :=
  rfl

@[simp]
theorem relabel_block (statements : List Stmt) :
    relabel change (Block.of statements span) =
      .of (relabel change statements) (relabel change span) :=
  congrArg (Block.of · _) (Stmt.relabelAll_eq_map statements)

end Statements

@[simp]
theorem span_relabel_stmt (statement : Stmt) :
    (relabel change statement).span = relabel change statement.span := by
  cases statement with
  | conditional => rw [relabel_conditional]; rfl
  | _ => rfl

@[simp]
theorem span_relabel_block (block : Block) :
    (relabel change block).span = relabel change block.span := by
  cases block
  rfl

/-! ## The relabelling that changes nothing -/

/-- The relabelling that changes nothing. -/
def Relabelling.same : Relabelling where
  offset := id
  lexeme _ := id
  offset_monotone := monotone_id
  offset_zero := rfl
  lexeme_placeholder := rfl
  lexeme_endOfFile := rfl
  sameName _ _ := rfl

@[simp]
theorem relabel_same_span (span : Span) : relabel .same span = span :=
  rfl

@[simp]
theorem relabel_same_token (token : Token) : relabel .same token = token :=
  rfl

@[simp]
theorem relabel_same_identifier (name : Identifier) :
    relabel .same name = name :=
  rfl

@[simp]
theorem relabel_same_literal (literal : Literal) :
    relabel .same literal = literal := by
  rcases literal with ⟨kind, text⟩
  cases kind <;> rfl

theorem map_relabel_same
    {α : Type}
    [Relabelled α]
    (each : ∀ value : α, relabel .same value = value)
    (values : List α) :
    values.map (relabel .same) = values :=
  (List.map_congr_left fun value _ => each value).trans (List.map_id values)

@[simp]
theorem relabel_same_identifiers (names : List Identifier) :
    names.map (relabel .same) = names :=
  map_relabel_same relabel_same_identifier names

mutual

/-- The relabelling that changes nothing leaves an expression as it is. -/
@[simp]
theorem relabel_same_expr (value : Expr) : relabel .same value = value := by
  cases value with
  | literal => simp
  | name => simp
  | unary _ operand => simp [relabel_same_expr operand]
  | binary _ left right =>
      simp [relabel_same_expr left, relabel_same_expr right]
  | call callee arguments =>
      simp [relabel_same_expr callee, relabel_same_exprs arguments]
  | index target position =>
      simp [relabel_same_expr target, relabel_same_expr position]
  | array elements => simp [relabel_same_exprs elements]
  | property receiver => simp [relabel_same_expr receiver]
  | send receiver _ arguments =>
      simp [relabel_same_expr receiver, relabel_same_exprs arguments]
  | field area => simp [relabel_same_expr area]
  | codeBlock _ body => simp [relabel_same_exprs body]

theorem relabel_same_exprs (values : List Expr) :
    values.map (relabel .same) = values := by
  cases values with
  | nil => rfl
  | cons first rest =>
      rw [List.map_cons, relabel_same_expr first, relabel_same_exprs rest]

end

attribute [simp] relabel_same_exprs

@[simp]
theorem relabel_same_expr? (value? : Option Expr) :
    value?.map (relabel .same) = value? := by
  cases value? <;> simp

@[simp]
theorem relabel_same_bindings (bindings : List Binding) :
    bindings.map (relabel .same) = bindings :=
  map_relabel_same (fun ⟨_, _, _⟩ => by simp) bindings

@[simp]
theorem relabel_same_head (head : RoutineHead) : relabel .same head = head := by
  cases head
  simp

mutual

/-- The relabelling that changes nothing leaves a statement as it is. -/
@[simp]
theorem relabel_same_stmt (statement : Stmt) :
    relabel .same statement = statement := by
  cases statement with
  | conditional _ positive negative? =>
      cases negative? with
      | none => simp [relabel_same_block positive]
      | some negative =>
          simp [relabel_same_block positive, relabel_same_block negative]
  | whileLoop _ body => simp [relabel_same_block body]
  | forLoop _ _ _ _ body => simp [relabel_same_block body]
  | routine _ body => simp [relabel_same_block body]
  | _ => simp

@[simp]
theorem relabel_same_block (block : Block) : relabel .same block = block := by
  cases block with
  | of statements => simp [relabel_same_stmts statements]

theorem relabel_same_stmts (statements : List Stmt) :
    statements.map (relabel .same) = statements := by
  cases statements with
  | nil => rfl
  | cons first rest =>
      rw [List.map_cons, relabel_same_stmt first, relabel_same_stmts rest]

end

end Clipper
