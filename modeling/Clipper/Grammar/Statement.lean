import Clipper.Grammar.Expression
import Clipper.Source.Text
import Clipper.Syntax.Statement
/-!
# The grammar of statements

The rules for single statements take the rules for the expressions and blocks
inside them.  `statement` ties them together, given the number of nesting levels
that are left; each block uses one up.  A block ends before a routine's head,
whatever is open around it, so routines stand at the top of a program only.

The form of a statement is found first, from the token ahead and, for `STATIC`
and `DO`, the one behind it.  A simple statement may have a semicolon after
it, and one that recovers skips to that semicolon.  A compound statement
reports a missing closing word unless the reading was cut short; a routine
needs no closing word.  A closing word that closes nothing is reported and
taken.
-/

namespace Clipper.Grammar

open Rule

/-! ## Simple statements -/

/-- One declared name, with its first value after `:=`. -/
def binding
    (expression : Rule Expr)
    (place : NamePlace) :
    Rule Binding := do
  let name ← expectName place
  if ← eat .assign then
    let value ← expression
    pure ⟨name, some value, name.span.merge value.span⟩
  else pure ⟨name, none, name.span⟩

/-- A declaration of variables. -/
def declaration (expression : Rule Expr) : Rule Stmt := do
  let word ← advance
  let isStatic := word.kind == .static
  let bindings ← separated
      (binding expression (if isStatic then .staticWord else .localWord))
  let span ← spanFrom word.span.start
  pure (.declare (if isStatic then .static else .perCall) bindings
    (span.mergeAll (bindings.map Binding.span)))

/-- A return, with a value if an expression follows. -/
def resultStatement (expression : Rule Expr) : Rule Stmt := do
  let word ← advance
  if opensExpression (← ask State.kind) then
    let value ← expression
    let span ← spanFrom word.span.start
    pure (.result (some value) (span.merge value.span))
  else
    let span ← spanFrom word.span.start
    pure (.result none span)

/-- The end of a loop, or of one of its rounds. -/
def loopControl : Rule Stmt := do
  let word ← advance
  pure (if word.kind = .exit then .exit word.span else .loop word.span)

/-- The values of a print statement, if an expression follows. -/
def printedValues (expression : Rule Expr) : Rule (List Expr) := do
  if opensExpression (← ask State.kind) then separated expression else pure []

/-- A print statement. -/
def printStatement (expression : Rule Expr) : Rule Stmt := do
  let word ← advance
  let values ← printedValues expression
  let span ← spanFrom word.span.start
  pure (.print (word.kind == .question) values
    (span.mergeAll (values.map Expr.span)))

/-- How the token ahead continues an expression to an assignment, if it does. -/
inductive AssignmentForm where
  | plain
  | updating (operator : UpdateOperator)

/-- The assignment that a token stands for. -/
def AssignmentForm.ofKind? (kind : TokenKind) : Option AssignmentForm :=
  match UpdateOperator.ofKind? kind with
  | some operator => some (updating operator)
  | none => if kind = .assign then some plain else none

/-- Reports a target that names nothing that can be assigned. -/
def checkTarget (target : Expr) : Rule Unit := do
  if target.isAssignable then pure () else report .notAssignable target.span

/-- The assignment of this form with its span. -/
def AssignmentForm.statement
    (target value : Expr)
    (span : Span) :
    AssignmentForm → Stmt
  | plain => .assign target value span
  | updating operator => .update target operator value span

/-- The rest of an assignment whose target was read. -/
def assignment
    (expression : Rule Expr)
    (start : Nat)
    (target : Expr)
    (form : AssignmentForm) :
    Rule Stmt := do
  checkTarget target
  let _ ← advance
  let value ← expression
  let span ← spanFrom start
  pure (form.statement target value ((span.merge target.span).merge value.span))

/-- An expression that stands alone as a statement. -/
def standalone
    (start : Nat)
    (value : Expr) :
    Rule Stmt := do
  let span ← spanFrom start
  pure (.expression value (span.merge value.span))

/-- An expression as a statement, or an assignment to it. -/
def expressionStatement (expression : Rule Expr) : Rule Stmt := do
  let start ← ask State.start
  let target ← expression
  if ← ask State.recovering then standalone start target
  else
    match AssignmentForm.ofKind? (← ask State.kind) with
    | none => standalone start target
    | some form => assignment expression start target form

/-- A simple statement, after which a semicolon may stand. -/
def terminated (rule : Rule Stmt) : Rule (Option Stmt) := do
  let statement ← rule
  let _ ← eat .semicolon
  pure (some statement)

/-! ## Compound statements -/

/--
Takes the closing word of a compound statement, or reports that it is missing.
-/
def close
    (closer opener : TokenKind) :
    Rule Unit := do
  if ← eat closer then pure ()
  else if ← ask State.cutShort then pure ()
  else reportHere (.unclosed closer opener)

/--
The condition and block of an `IF` or `ELSEIF`, with the offset of that word.
-/
structure Arm where
  start : Nat
  condition : Expr
  block : Block

/-- The conditional that an arm makes with what follows it. -/
def Arm.conditional
    (reached : Nat)
    (arm : Arm)
    (negative? : Option Block) :
    Stmt :=
  let span := Span.mk arm.start (max reached arm.start)
  let span := (span.merge arm.condition.span).merge arm.block.span
  let span := negative?.elim span (fun negative => span.merge negative.span)
  .conditional arm.condition arm.block negative? span

/-- An `ELSEIF` arm is a conditional that stands alone in a block. -/
def Arm.nest
    (reached : Nat)
    (arm : Arm)
    (negative? : Option Block) :
    Option Block :=
  let nested := arm.conditional reached negative?
  some (.of [nested] nested.span)

/-- A condition and its block; the word before was taken. -/
def arm
    (expression : Rule Expr)
    (block : List TokenKind → Rule Block)
    (start : Nat) :
    Rule Arm := do
  let condition ← expression
  let _ ← eat .thenWord
  pure ⟨start, condition, ← block [.elseIf, .elseWord, .endIf]⟩

/-- An `ELSEIF` opens a further arm. -/
def furtherArm?
    (expression : Rule Expr)
    (block : List TokenKind → Rule Block)
    (token : Token) :
    Option (Rule Arm) :=
  if token.kind = .elseIf then some (arm expression block token.span.start)
  else none

/-- A conditional with its arms; the arms share one closing word. -/
def conditional
    (expression : Rule Expr)
    (block : List TokenKind → Rule Block) :
    Rule Stmt := do
  let word ← advance
  let start := word.span.start
  let first ← arm expression block start
  let others ← many (furtherArm? expression block)
  let last? ← optionalAfter .elseWord (block [.endIf])
  let reached ← ask State.reached
  let negative? := others.foldr (Arm.nest reached) last?
  close .endIf .ifWord
  let span ← spanFrom start
  let inner := (first.conditional reached negative?).span
  pure (.conditional first.condition first.block negative? (span.merge inner))

/-- Takes a `DO` after a condition, unless it opens a loop of its own. -/
def trailingDo : Rule Unit := do
  if (← ask State.kind) = .doWord ∧ (← ask State.secondKind) ≠ .whileWord then
    let _ ← advance

/--
A loop with a condition; `DO` may stand before its word or after the condition.
-/
def whileLoop
    (expression : Rule Expr)
    (block : List TokenKind → Rule Block) :
    Rule Stmt := do
  let start ← ask State.start
  let _ ← eat .doWord
  let _ ← advance
  let condition ← expression
  trailingDo
  let body ← block [.endDo]
  close .endDo .whileWord
  let span ← spanFrom start
  pure (.whileLoop condition body ((span.merge body.span).merge condition.span))

/-- Takes the name after `NEXT` when it is the name of the loop's counter. -/
def counterAgain (counter : Identifier) : Rule Unit := do
  let token ← ask State.current
  if token.kind = .identifier ∧
    Source.sameIgnoringCase token.lexeme counter.name then
      let _ ← advance

/-- Takes the sign between the counter of a loop and its first value. -/
def counterSign : Rule Unit := do
  if ← eat .assign then pure ()
  else if ← eat .equal then pure ()
  else fail (.expectedToken .assign .loopVariable)

/--
Takes the closing word of a counting loop with
the name after it, or reports its absence.
-/
def closeFor (counter : Identifier) : Rule Unit := do
  if ← eat .next then counterAgain counter
  else if ← ask State.cutShort then pure ()
  else reportHere (.unclosed .next .forWord)

/-- A counting loop. -/
def forLoop
    (expression : Rule Expr)
    (block : List TokenKind → Rule Block) :
    Rule Stmt := do
  let word ← advance
  let counter ← expectName .forWord
  counterSign
  let first ← expression
  expect .toWord .loopStart
  let last ← expression
  let step? ← optionalAfter .step expression
  let body ← block [.next]
  closeFor counter
  let span ← spanFrom word.span.start
  let span := ((span.merge counter.span).merge first.span).merge last.span
  let span := step?.elim span (fun step => span.merge step.span)
  pure (.forLoop counter first last step? body (span.merge body.span))

/-- The parameters of a routine, if a parenthesis opens. -/
def parameters : Rule (List Identifier) := do
  if ← eat .leftParenthesis then
    enclosed (expectName .openingParenthesis) .rightParenthesis .parameters
  else pure []

/-- Takes the closing word of a routine, if it stands ahead. -/
def closeRoutine : Rule Unit := do
  if ← eat .endFunction then pure ()
  else
    let _ ← eat .endProcedure

/--
A routine: its head, and its body up to the closing word or the next routine.
-/
def routine (block : List TokenKind → Rule Block) : Rule Stmt := do
  let start ← ask State.start
  let isStatic ← eat .static
  let word ← advance
  let kind := if word.kind = .function then RoutineKind.function else .procedure
  let name ← expectName
      (if word.kind = .function then .functionWord else .procedureWord)
  let parameters ← parameters
  let body ← block [.endFunction, .endProcedure]
  closeRoutine
  let span ← spanFrom start
  let span := (span.merge name.span).mergeAll (parameters.map Identifier.span)
  pure (.routine ⟨kind, isStatic, name, parameters⟩ body (span.merge body.span))

/-! ## Blocks and statements -/

/-- A closing word that closes nothing. -/
def strayCloser : Rule (Option Stmt) := do
  reportHere (.unexpected (← ask State.kind))
  let _ ← advance
  pure none

/-- The forms that a statement takes, and two that make none. -/
inductive StatementForm where
  /-- A lone semicolon. -/
  | empty
  /-- A closing word that closes nothing. -/
  | strayCloser
  | conditional
  | whileLoop
  | forLoop
  | routine
  | declaration
  | result
  | control
  | print
  | expression
deriving DecidableEq

/-- The form of the statement ahead. -/
def StatementForm.of (state : State) : StatementForm :=
  match state.kind with
  | .semicolon => empty
  | .endIf | .elseWord | .elseIf | .endDo | .next | .endFunction
  | .endProcedure => strayCloser
  | .ifWord => conditional
  | .whileWord => whileLoop
  | .doWord => if state.secondKind = .whileWord then whileLoop else expression
  | .forWord => forLoop
  | .function | .procedure => routine
  | .static => if opensRoutine state.rest then routine else declaration
  | .localWord => declaration
  | .returnWord => result
  | .exit | .loop => control
  | .question | .doubleQuestion => print
  | _ => expression

/-- A statement of a form, given the rules for what is inside it. -/
def statementOfForm
    (expression : Rule Expr)
    (block : List TokenKind → Rule Block) :
    StatementForm → Rule (Option Stmt)
  | .empty => do
      let _ ← advance
      pure none
  | .strayCloser => strayCloser
  | .conditional => some <$> conditional expression block
  | .whileLoop => some <$> whileLoop expression block
  | .forLoop => some <$> forLoop expression block
  | .routine => some <$> routine block
  | .declaration => terminated (declaration expression)
  | .result => terminated (resultStatement expression)
  | .control => terminated loopControl
  | .print => terminated (printStatement expression)
  | .expression => terminated (expressionStatement expression)

/-- One statement, given the rules for what is inside it; it ends a recovery. -/
def statementOf
    (expression : Rule Expr)
    (block : List TokenKind → Rule Block) :
    Rule (Option Stmt) := do
  recovered
  statementOfForm expression block (← ask StatementForm.of)

/-- Whether a block with these closing words ends at a state. -/
def endsBlock
    (closers : List TokenKind)
    (state : State) :
    Bool :=
  closers.contains state.kind || opensRoutine state.rest

/-- A block that is nested too deeply. -/
def blockTooDeep : Rule Block := do
  let start ← ask State.start
  cutOff
  pure (.of [] (Span.empty start))

/-- A block of statements up to one of its closing words, which is not taken. -/
def blockOf
    (statement : Rule (Option Stmt))
    (closers : List TokenKind) :
    Rule Block := do
  let start ← ask State.start
  let statements ← sequence (endsBlock closers) statement
  recovered
  let span ← spanFrom start
  pure (.of statements (span.mergeAll (statements.map Stmt.span)))

/-- A statement, with a number of levels left below it. -/
def statement : Nat → Rule (Option Stmt)
  | 0 => statementOf (expression 0) (fun _ => blockTooDeep)
  | levels + 1 =>
      statementOf (expression (levels + 1)) (blockOf (statement levels))

end Clipper.Grammar
