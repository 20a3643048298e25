import Clipper.Grammar.Statement
import Clipper.Lexeme.Stream
/-!
# Reading programs

A token list is read into a program and a list of reports.  Reading never
fails: what is missing is reported and replaced by a placeholder.

A program is read by the loop over statements, which ends with the tokens.  An
expression by itself is read for the sake of tests and of the laws on
listings: after it a semicolon may stand, and what is left over is reported.
The span of a program goes from offset zero to the end of the last token.
-/

namespace Clipper.Grammar

open Rule

/--
What a reading gives: a value, and the
reports in the order in which they were made.
-/
structure Reading (α : Type) where
  value : α
  reports : List Report

namespace Reading

variable {α : Type}

/-- Whether anything was reported. -/
def hasErrors (reading : Reading α) : Bool :=
  !reading.reports.isEmpty

/-- The wording of the reports. -/
def messages (reading : Reading α) : List String :=
  reading.reports.map Report.message

end Reading

/-- Reads tokens by a rule. -/
def Rule.readTokens
    {α : Type}
    (rule : Rule α)
    (tokens : List Token) :
    Reading α :=
  let (value, state) := rule.run (State.ofTokens tokens)
  ⟨value, state.reports.reverse⟩

/-- A program: statements up to the end of the file. -/
def program : Rule Program := do
  let statements ← sequence (fun _ => false) (statement nestingLimit)
  let final ← ask State.current
  pure ⟨statements, ⟨0, final.span.stop⟩⟩

/--
One expression, after which a semicolon
may stand; what is left over is reported.
-/
def loneExpression : Rule Expr := do
  let value ← expression nestingLimit
  let _ ← eat .semicolon
  let token ← ask State.current
  if token.kind = .endOfFile then pure value
  else if ← ask State.recovering then pure value
  else
    report (.unexpected token.kind) token.span
    pure value

/-- Reads a program from tokens. -/
def readProgram (tokens : List Token) : Reading Program :=
  program.readTokens tokens

/-- Reads a program from a source text. -/
def programOfText (text : List Char) : Reading Program :=
  readProgram (Lexeme.tokens (Lexeme.all text))

/-- Reads one expression from a source text. -/
def expressionOfText (text : List Char) : Reading Expr :=
  loneExpression.readTokens (Lexeme.tokens (Lexeme.all text))

end Clipper.Grammar
