import Clipper.Proofs.Grammar.Body

/-!
# The rules for statements by their parts

A statement of a form is read by one rule, after which a semicolon may stand
when the statement is simple.  A loop with a condition and a routine are read in
two steps: what comes first may depend on the token after the one ahead.

These equations are what the proofs about statements open with.  The
definition of a statement asks for its form and goes on; in a proof the form
is known from the first tokens, and the equation gives the rule that is left
to be looked at.  For a routine and a loop the cut is made behind the words
that tell the form, so that both parts can be treated as rules of their own.
-/

namespace Clipper.Grammar

open Rule

/-! ## Forms -/

/--
The statement of a form, without the
semicolon that may stand after a simple one.
-/
def StatementForm.proper?
    (expression : Rule Expr)
    (block : List TokenKind → Rule Block) :
    StatementForm → Option (Rule Stmt)
  | .empty | .strayCloser => none
  | .conditional => some (Grammar.conditional expression block)
  | .whileLoop => some (Grammar.whileLoop expression block)
  | .forLoop => some (Grammar.forLoop expression block)
  | .routine => some (Grammar.routine block)
  | .declaration => some (Grammar.declaration expression)
  | .result => some (resultStatement expression)
  | .control => some loopControl
  | .print => some (printStatement expression)
  | .expression => some (expressionStatement expression)

/-- The blocks of a statement with a number of levels left below it. -/
def blocks : Nat → List TokenKind → Rule Block
  | 0 => fun _ => blockTooDeep
  | levels + 1 => blockOf (statement levels)

theorem statement_eq (levels : Nat) :
    statement levels = statementOf (expression levels) (blocks levels) := by
  cases levels <;> rfl

/-- After a simple statement a semicolon may stand. -/
theorem StatementForm.rule_of_proper
    {expression : Rule Expr}
    {block : List TokenKind → Rule Block}
    (form : StatementForm)
    {rule : Rule Stmt}
    (isRule : form.proper? expression block = some rule) :
    statementOfForm expression block form =
      if form.isSimple then terminated rule else some <$> rule := by
  cases form <;> cases isRule <;> rfl

/-! ## Compound statements by their parts -/

/--
The arms of a conditional and its other block, from the first condition on.
-/
def conditionalParts
    (expression : Rule Expr)
    (block : List TokenKind → Rule Block)
    (start : Nat) :
    Rule (Arm × List Arm × Option Block) := do
  let first ← arm expression block start
  let others ← many (furtherArm? expression block)
  let last? ← optionalAfter .elseWord (block [.endIf])
  pure (first, others, last?)

/--
A conditional is its word, its parts and its closing word; further arms are
nested when the end of the last one is known.
-/
theorem conditional_eq
    (expression : Rule Expr)
    (block : List TokenKind → Rule Block) :
    conditional expression block =
      advance >>= fun word =>
        conditionalParts expression block word.span.start >>= fun parts =>
          ask State.reached >>= fun reached =>
            close .endIf .ifWord >>= fun _ =>
              spanFrom word.span.start >>= fun span =>
                let negative? := parts.2.1.foldr (Arm.nest reached) parts.2.2
                let inner := (parts.1.conditional reached negative?).span
                pure (.conditional parts.1.condition parts.1.block negative?
                  (span.merge inner)) :=
  rfl

/-- A loop with a condition from its word on. -/
def whileRest
    (expression : Rule Expr)
    (block : List TokenKind → Rule Block)
    (start : Nat) :
    Rule Stmt := do
  let _ ← advance
  let condition ← expression
  trailingDo
  let body ← block [.endDo]
  close .endDo .whileWord
  let span ← spanFrom start
  pure (.whileLoop condition body ((span.merge body.span).merge condition.span))

theorem whileLoop_eq
    (expression : Rule Expr)
    (block : List TokenKind → Rule Block) :
    whileLoop expression block =
      ask State.start >>= fun start =>
        eat .doWord >>= fun _ => whileRest expression block start :=
  rfl

/--
The head of a routine from its word on, with
the offset at which the routine begins.
-/
def routineHead
    (start : Nat)
    (isStatic : Bool) :
    Rule (Nat × RoutineHead) := do
  let word ← advance
  let kind := if word.kind = .function then RoutineKind.function else .procedure
  let name ← expectName
      (if word.kind = .function then .functionWord else .procedureWord)
  let parameters ← parameters
  pure (start, ⟨kind, isStatic, name, parameters⟩)

/-- The head of a routine, with the offset at which the routine begins. -/
def routineOpening : Rule (Nat × RoutineHead) := do
  let start ← ask State.start
  let isStatic ← eat .static
  routineHead start isStatic

/-- The routine that an opening and a body make, up to the last token taken. -/
def routineOf
    (start : Nat)
    (head : RoutineHead)
    (body : Block) :
    Rule Stmt := do
  let span ← spanFrom start
  let span := (span.merge head.name.span).mergeAll
      (head.parameters.map Identifier.span)
  pure (.routine head body (span.merge body.span))

theorem routine_eq (block : List TokenKind → Rule Block) :
    routine block =
      routineOpening >>= fun opened =>
        block [.endFunction, .endProcedure] >>= fun body =>
          closeRoutine >>= fun _ => routineOf opened.1 opened.2 body :=
  rfl

end Clipper.Grammar
