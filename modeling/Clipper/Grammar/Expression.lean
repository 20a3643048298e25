import Clipper.Grammar.Rule
/-!
# The grammar of expressions

Six levels of binary operators, all of which group to the left, stand above the
operands.  An operand is a chain of prefix operators before a primary with
suffixes.  The rules take the number of nesting levels that are left; each
nested expression and each prefix operator uses one up.

Without a level left, a rule does not read: the reading is cut short, and a
placeholder is made.  No rule for a part of an expression is tried while the
reading recovers, so that an error is reported once.  Spans are merged from
the parts, as a placeholder among them may stand behind the last token that
was taken.
-/

namespace Clipper.Grammar

open Rule

/-- The tokens with which an expression may begin. -/
def opensExpression : TokenKind → Bool
  | .number | .string | .yes | .no | .nil | .identifier | .minus | .plus | .not
  | .leftParenthesis | .leftBrace | .error => true
  | _ => false

/-- The literal that a token is. -/
def literal? (token : Token) : Option Literal :=
  match token.kind with
  | .number => some ⟨.number, token.lexeme⟩
  | .string => some ⟨.string, token.lexeme⟩
  | .nil => some ⟨.nil, "NIL"⟩
  | .yes => some ⟨.logical, ".T."⟩
  | .no => some ⟨.logical, ".F."⟩
  | _ => none

/-- The placeholder for an expression at the token ahead. -/
def placeholderHere : Rule Expr :=
  ask (fun state => Expr.placeholder state.start)

/-- What stands for an expression that is nested too deeply. -/
def tooDeep : Rule Expr := do
  cutOff
  placeholderHere

/-- Reads an expression, or nothing while the reading is recovering. -/
def unlessRecovering (rule : Rule Expr) : Rule Expr := do
  if ← ask State.recovering then placeholderHere else rule

/-! ## Suffixes -/

/-- What may follow a primary. -/
inductive SuffixForm where
  | call (arguments : List Expr)
  | index (position : Expr)
  | property (message : Identifier)
  | send (message : Identifier) (arguments : List Expr)
  | field (column : Identifier)

/-- A suffix and the offset at which it ends. -/
structure Suffix where
  form : SuffixForm
  stop : Nat

/-- An expression with one more suffix; its span holds all its parts. -/
def Suffix.apply
    (target : Expr)
    (suffix : Suffix) :
    Expr :=
  let span := Span.merge ⟨target.span.start, max suffix.stop target.span.start⟩
      target.span
  match suffix.form with
  | .call arguments =>
      .call target arguments (span.mergeAll (arguments.map Expr.span))
  | .index position => .index target position (span.merge position.span)
  | .property message => .property target message (span.merge message.span)
  | .send message arguments =>
      .send target message arguments
        ((span.merge message.span).mergeAll (arguments.map Expr.span))
  | .field column => .field target column (span.merge column.span)

/--
What follows a colon: the name of a message,
and arguments if a parenthesis opens.
-/
def message (nested : Rule Expr) : Rule SuffixForm := do
  let name ← expectName .colon
  if ← ask State.recovering then pure (.property name)
  else if ← eat .leftParenthesis then
    pure (.send name (← enclosed nested .rightParenthesis .arguments))
  else pure (.property name)

/-- The rest of the suffix that a token opens. -/
def suffixForm?
    (nested : Rule Expr) :
    TokenKind → Option (Rule SuffixForm)
  | .leftParenthesis => some do
      pure (.call (← enclosed nested .rightParenthesis .arguments))
  | .leftBracket => some do
      let position ← nested
      expect .rightBracket .index
      pure (.index position)
  | .colon => some (message nested)
  | .arrow => some do
      pure (.field (← expectName .arrow))
  | _ => none

/--
The rest of the suffix that a token opens, with the offset at which it ends.
-/
def suffix?
    (nested : Rule Expr)
    (token : Token) :
    Option (Rule Suffix) :=
  (suffixForm? nested token.kind).map
    (fun rule => do
      let form ← rule
      pure ⟨form, ← ask State.reached⟩)

/-! ## Primaries -/

/-- An expression between parentheses; the parentheses only widen its span. -/
def parenthesized (nested : Rule Expr) : Rule Expr := do
  let opening ← advance
  let inner ← nested
  expect .rightParenthesis .expression
  let span ← spanFrom opening.span.start
  pure (inner.withSpan (span.merge inner.span))

/-- Elements between braces. -/
def arrayLiteral (nested : Rule Expr) : Rule Expr := do
  let opening ← advance
  let elements ← enclosed nested .rightBrace .arrayElements
  let span ← spanFrom opening.span.start
  pure (.array elements (span.mergeAll (elements.map Expr.span)))

/--
A code block: parameters between bars, and expressions up to the closing brace.
-/
def codeBlock (nested : Rule Expr) : Rule Expr := do
  let opening ← advance
  let _ ← advance
  let parameters ← enclosed (expectName .bar) .bar .codeBlockParameters
  let body ← enclosed nested .rightBrace .codeBlock
  let span ← spanFrom opening.span.start
  pure (.codeBlock parameters body
    (span.mergeAll (parameters.map Identifier.span ++ body.map Expr.span)))

/-- A token with a lexical fault; a placeholder stands for it. -/
def invalidToken : Rule Expr := do
  let token ← ask State.current
  reportHere (.invalidToken token.lexeme)
  let _ ← advance
  pure (.placeholder token.span.start)

/-- A token with which no expression begins; a placeholder stands before it. -/
def noExpression : Rule Expr := do
  let token ← ask State.current
  fail (.expectedExpression token.kind)
  pure (.placeholder token.span.start)

/--
A primary: a literal, a name, or an expression with a delimiter of its own.
-/
def primary (nested : Rule Expr) : Rule Expr := do
  let token ← ask State.current
  match literal? token with
  | some value =>
      let _ ← advance
      pure (.literal value token.span)
  | none =>
      match token.kind with
      | .identifier =>
          let _ ← advance
          pure (.ofIdentifier ⟨token.lexeme, token.span⟩)
      | .leftParenthesis => parenthesized nested
      | .leftBrace =>
          if (← ask State.secondKind) = .bar then codeBlock nested
          else arrayLiteral nested
      | .error => invalidToken
      | _ => noExpression

/-- A primary with its suffixes. -/
def suffixed (nested : Rule Expr) : Rule Expr := do
  let target ← primary nested
  let suffixes ← many (suffix? nested)
  pure (suffixes.foldl Suffix.apply target)

/-! ## Operators -/

/-- The prefix operator ahead, and the operand after it. -/
def prefixed
    (operand : Rule Expr)
    (operator : UnaryOperator) :
    Rule Expr := do
  let token ← advance
  let inner ← operand
  let span ← spanFrom token.span.start
  pure (.unary operator inner (span.merge inner.span))

/-- The operand to the right of the operator that a token of this level is. -/
def rightOperand?
    (level : Nat)
    (operand : Rule Expr)
    (token : Token) :
    Option (Rule (BinaryOperator × Expr)) :=
  match BinaryOperator.ofKind? token.kind with
  | some operator =>
      if operator.level = level then some do pure (operator, ← operand)
      else none
  | none => none

/-- The operation with a further operand to the right. -/
def joinRight
    (left : Expr)
    (right : BinaryOperator × Expr) :
    Expr :=
  .binary right.1 left right.2 (left.span.merge right.2.span)

/-- Operands joined by the operators of one level, grouped to the left. -/
def chain
    (level : Nat)
    (operand : Rule Expr) :
    Rule Expr := do
  let first ← operand
  let others ← many (rightOperand? level operand)
  pure (others.foldl joinRight first)

/-- The six levels of binary operators above an operand. -/
def binary (operand : Rule Expr) : Rule Expr :=
  chain 1 (chain 2 (chain 3 (chain 4 (chain 5 (chain 6 operand)))))

/-- An operand, with a number of levels left below it. -/
def operand : Nat → Rule Expr
  | 0 => do
      match UnaryOperator.ofKind? (← ask State.kind) with
      | some _ => tooDeep
      | none => suffixed (unlessRecovering tooDeep)
  | levels + 1 => do
      match UnaryOperator.ofKind? (← ask State.kind) with
      | some operator => prefixed (operand levels) operator
      | none => suffixed (unlessRecovering (binary (operand levels)))

/-- An expression, with a number of levels left for it. -/
def expression : Nat → Rule Expr
  | 0 => unlessRecovering tooDeep
  | levels + 1 => unlessRecovering (binary (operand levels))

end Clipper.Grammar
