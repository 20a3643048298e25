import Clipper.Source.Span
import Clipper.Token.Kind
/-!
# Reports

What a reader of tokens has to say about a program with errors.  A report is a
cause and the span of the token that the reader was looking at; the wording of a
cause is given by one function.

The parts of a program that a cause can name are a type of their own, and so
are the places at which a name is required.  A cause is therefore a small
value which proofs can tell apart, and no two rules spell the same wording
twice.  Messages that quote a token hold its text.
-/

namespace Clipper.Grammar

/-- The places after which a name has to stand. -/
inductive NamePlace where
  | forWord
  | functionWord
  | procedureWord
  | openingParenthesis
  | localWord
  | staticWord
  | colon
  | arrow
  | bar
deriving DecidableEq

/-- The wording of a place after which a name has to stand. -/
def NamePlace.wording : NamePlace → String
  | forWord => "FOR"
  | functionWord => "FUNCTION"
  | procedureWord => "PROCEDURE"
  | openingParenthesis => "'('"
  | localWord => "LOCAL"
  | staticWord => "STATIC"
  | colon => "':'"
  | arrow => "'->'"
  | bar => "'|'"

/-- The parts of a program after which a certain token has to stand. -/
inductive Part where
  | loopVariable
  | loopStart
  | parameters
  | arguments
  | index
  | expression
  | arrayElements
  | codeBlockParameters
  | codeBlock
deriving DecidableEq

/-- The wording of a part of a program. -/
def Part.wording : Part → String
  | loopVariable => "loop variable"
  | loopStart => "loop start value"
  | parameters => "parameters"
  | arguments => "arguments"
  | index => "index"
  | expression => "expression"
  | arrayElements => "array elements"
  | codeBlockParameters => "code block parameters"
  | codeBlock => "code block"

/-- Why a token list is no program. -/
inductive Cause where
  /-- A token that has no place here. -/
  | unexpected (found : TokenKind)
  /-- An expression had to stand here. -/
  | expectedExpression (found : TokenKind)
  /-- A name had to stand here. -/
  | expectedName (place : NamePlace)
  /-- A certain token had to follow a part of the program. -/
  | expectedToken (expected : TokenKind) (part : Part)
  /-- A compound statement was not closed. -/
  | unclosed (closer opener : TokenKind)
  /-- A token with a lexical fault. -/
  | invalidToken (lexeme : String)
  /-- The left side of an assignment names nothing that can be assigned. -/
  | notAssignable
  /-- The program is nested deeper than the limit. -/
  | tooDeep (limit : Nat)
deriving DecidableEq

/-- The wording of a cause. -/
def Cause.message : Cause → String
  | unexpected found => "Unexpected " ++ found.wording
  | expectedExpression found => "Expected expression, found " ++ found.wording
  | expectedName place => "Expected identifier after " ++ place.wording
  | expectedToken expected part =>
      "Expected " ++ expected.wording ++ " after " ++ part.wording
  | unclosed closer opener =>
      "Expected " ++ closer.wording ++ " to close " ++ opener.wording
  | invalidToken lexeme => "Invalid token '" ++ lexeme ++ "'"
  | notAssignable => "Invalid assignment target"
  | tooDeep limit => "Nesting deeper than " ++ toString limit ++ " levels"

/-- A cause and where it was found. -/
structure Report where
  cause : Cause
  span : Span
deriving DecidableEq

/-- The wording of a report, with the offset of its beginning. -/
def Report.message (report : Report) : String :=
  report.cause.message ++ " at " ++ toString report.span.start

end Clipper.Grammar
