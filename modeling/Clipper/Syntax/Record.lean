import Clipper.Grammar.Program
import Clipper.Json
import Clipper.Syntax.Outline
/-!
# Programs as records

The record of a program is a JSON value with all of its tree and all of its
spans.  A choice between several forms is an object with one field, named for
the form; a form without parts is a string.

The fields of an object stand in a fixed order: the form of a node with its
parts comes first, and then its span.  The record of a reading holds its
program and its reports, each with its cause; a cause is an object with the
parts that its message quotes, or a text where there are none.
-/

namespace Clipper

/-- The record of a span. -/
def Span.record (span : Span) : Json :=
  .object [("start", .number span.start), ("end", .number span.stop)]

/-- The record of a choice with one part. -/
def chosen
    (form : String)
    (part : Json) :
    Json :=
  .object [(form, part)]

/-- The record of a node: its form, and its span. -/
def nodeRecord
    (kind : Json)
    (span : Span) :
    Json :=
  .object [("kind", kind), ("span", span.record)]

/-- The record of a name. -/
def Identifier.record (identifier : Identifier) : Json :=
  .object [("name", .string identifier.name), ("span", identifier.span.record)]

/-- The record of a literal. -/
def Literal.record (literal : Literal) : Json :=
  .object [("kind", .string literal.kind.name), ("raw", .string literal.text)]

namespace Expr

mutual

/-- The record of an expression. -/
def record : Expr → Json
  | literal value span => nodeRecord (chosen "Literal" value.record) span
  | name identifier span => nodeRecord (chosen "Ident" identifier.record) span
  | unary operator operand span =>
      nodeRecord
        (chosen "Unary"
          (.object [("op", .string operator.name),
            ("operand", operand.record)]))
        span
  | binary operator left right span =>
      nodeRecord
        (chosen "Binary"
          (.object
            [("op", .string operator.name), ("left", left.record),
              ("right", right.record)]))
        span
  | call callee arguments span =>
      nodeRecord
        (chosen "Call"
          (.object [("callee", callee.record),
            ("args", .list (records arguments))]))
        span
  | index target position span =>
      nodeRecord
        (chosen "Index"
          (.object [("target", target.record), ("index", position.record)]))
        span
  | array elements span =>
      nodeRecord (chosen "Array" (.list (records elements))) span
  | property receiver message span =>
      nodeRecord
        (chosen "Send"
          (.object
            [("receiver", receiver.record), ("method", message.record),
              ("args", .null)]))
        span
  | send receiver message arguments span =>
      nodeRecord
        (chosen "Send"
          (.object
            [("receiver", receiver.record), ("method", message.record),
              ("args", .list (records arguments))]))
        span
  | field area column span =>
      nodeRecord
        (chosen "Alias"
          (.object [("area", area.record), ("field", column.record)]))
        span
  | codeBlock parameters body span =>
      nodeRecord
        (chosen "CodeBlock"
          (.object
            [("params", .ofList Identifier.record parameters),
              ("body", .list (records body))]))
        span

/-- The records of several expressions. -/
def records : List Expr → List Json
  | [] => []
  | first :: rest => first.record :: records rest

end

end Expr

/-- The record of a declared name. -/
def Binding.record (binding : Binding) : Json :=
  .object
    [("name", binding.name.record),
      ("init", .ofOption Expr.record binding.value?),
      ("span", binding.span.record)]

/--
The record of a block, or of a program, from the records of its statements.
-/
def statementsRecord
    (statements : List Json)
    (span : Span) :
    Json :=
  .object [("stmts", .list statements), ("span", span.record)]

/-- The record of a routine, without its sort and its span. -/
def RoutineHead.record
    (head : RoutineHead)
    (body : Json) :
    Json :=
  .object
    [("name", head.name.record),
      ("params", .ofList Identifier.record head.parameters), ("body", body),
      ("is_static", .boolean head.isStatic)]

mutual

/-- The record of a statement. -/
def Stmt.record : Stmt → Json
  | .expression value span => nodeRecord (chosen "Expr" value.record) span
  | .assign target value span =>
      nodeRecord
        (chosen "Assign"
          (.object [("target", target.record), ("value", value.record)]))
        span
  | .update target operator value span =>
      nodeRecord
        (chosen "CompoundAssign"
          (.object
            [("target", target.record), ("op", .string operator.name),
              ("value", value.record)]))
        span
  | .print newLine values span =>
      nodeRecord
        (chosen "Print"
          (.object [("newline", .boolean newLine),
            ("exprs", .ofList Expr.record values)]))
        span
  | .declare storage bindings span =>
      nodeRecord
        (chosen "Local"
          (.object
            [("storage", .string storage.name),
              ("bindings", .ofList Binding.record bindings)]))
        span
  | .result value? span =>
      nodeRecord (chosen "Return" (.ofOption Expr.record value?)) span
  | .conditional condition positive none span =>
      nodeRecord
        (chosen "If"
          (.object
            [("cond", condition.record), ("then_block", positive.record),
              ("else_block", .null)]))
        span
  | .conditional condition positive (some negative) span =>
      nodeRecord
        (chosen "If"
          (.object
            [("cond", condition.record), ("then_block", positive.record),
              ("else_block", negative.record)]))
        span
  | .whileLoop condition body span =>
      nodeRecord
        (chosen "While"
          (.object [("cond", condition.record), ("body", body.record)]))
        span
  | .forLoop counter first last step? body span =>
      nodeRecord
        (chosen "For"
          (.object
            [("var", counter.record), ("start", first.record),
              ("end", last.record), ("step", .ofOption Expr.record step?),
              ("body", body.record)]))
        span
  | .routine head body span =>
      nodeRecord (chosen head.kind.name (head.record body.record)) span
  | .exit span => nodeRecord (.string "Exit") span
  | .loop span => nodeRecord (.string "Loop") span

/-- The record of a block. -/
def Block.record : Block → Json
  | .of statements span => statementsRecord (Stmt.records statements) span

/-- The records of several statements. -/
def Stmt.records : List Stmt → List Json
  | [] => []
  | first :: rest => first.record :: Stmt.records rest

end

/-- The record of a program. -/
def Program.record (program : Program) : Json :=
  statementsRecord (Stmt.records program.statements) program.span

namespace Grammar

/-- The record of a cause. -/
def Cause.record : Cause → Json
  | unexpected found => chosen "Unexpected" (.string found.name)
  | expectedExpression found => chosen "ExpectedExpression" (.string found.name)
  | expectedName place => chosen "ExpectedIdentifier" (.string place.wording)
  | expectedToken expected part =>
      chosen "ExpectedAfter"
        (.object [("expected", .string expected.name),
          ("context", .string part.wording)])
  | unclosed closer opener =>
      chosen "ExpectedClosing"
        (.object [("closer", .string closer.name),
          ("opener", .string opener.name)])
  | invalidToken lexeme => chosen "InvalidToken" (.string lexeme)
  | notAssignable => .string "InvalidAssignmentTarget"
  | tooDeep limit => chosen "NestingTooDeep" (.number limit)

/-- The record of a report. -/
def Report.record (report : Report) : Json :=
  nodeRecord report.cause.record report.span

/-- The record of the reading of a program. -/
def Reading.record (reading : Reading Program) : Json :=
  .object
    [("program", reading.value.record),
      ("errors", .ofList Report.record reading.reports)]

end Grammar

end Clipper
