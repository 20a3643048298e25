import Clipper.Syntax.Listing
import Clipper.Text.Quoted
/-!
# Programs as outlines

The outline of an expression names its constructors: `Add(Number(1),
Mul(Number(2), Number(3)))`.  The outline of a program has a line for each
statement, and for each block of a compound statement a line with its part in
the statement; what is inside stands one level deeper.

The outline tells all of a tree but its spans.  Names and numbers are written
as they stand in the tree, and strings between double quotes with their
special characters escaped; so the outline of a program without placeholders
can be taken apart again.
-/

namespace Clipper

/-- Pieces of text between brackets. -/
def bracketed (pieces : List (List Char)) : List Char :=
  '[' :: (commaSeparated pieces ++ [']'])

/-- A constructor applied to pieces of text. -/
def applied
    (constructor : String)
    (pieces : List (List Char)) :
    List Char :=
  constructor.toList ++ '(' :: (commaSeparated pieces ++ [')'])

namespace Literal

/-- The outline of a literal. -/
def outline (literal : Literal) : List Char :=
  match literal.kind with
  | .nil => "Nil".toList
  | .string => applied "String" [Text.quoted literal.text.toList]
  | .number => applied "Number" [literal.text.toList]
  | .logical => applied "Boolean" [literal.text.toList]

end Literal

namespace Expr

mutual

/-- The outline of an expression. -/
def outline : Expr → List Char
  | literal value _ => value.outline
  | name identifier _ => applied "Ident" [identifier.listing]
  | unary operator operand _ => applied operator.name [operand.outline]
  | binary operator left right _ =>
      applied operator.name [left.outline, right.outline]
  | call callee arguments _ =>
      applied "Call" [callee.outline, bracketed (outlines arguments)]
  | index target position _ =>
      applied "Index" [target.outline, position.outline]
  | array elements _ => "Array".toList ++ bracketed (outlines elements)
  | property receiver message _ =>
      applied "Send" [receiver.outline, message.listing]
  | send receiver message arguments _ =>
      applied "Send" [receiver.outline, message.listing,
        bracketed (outlines arguments)]
  | field area column _ => applied "Alias" [area.outline, column.listing]
  | codeBlock parameters body _ =>
      applied "CodeBlock"
        [bracketed (parameters.map Identifier.listing),
          bracketed (outlines body)]

/-- The outlines of several expressions. -/
def outlines : List Expr → List (List Char)
  | [] => []
  | first :: rest => first.outline :: outlines rest

end

end Expr

namespace Binding

/-- The outline of a declared name. -/
def outline (binding : Binding) : List Char :=
  binding.name.listing ++
    (match binding.value? with
      | some value => " := ".toList ++ value.outline
      | none => [])

end Binding

namespace Storage

/-- The name of a storage in outlines and records. -/
def name : Storage → String
  | perCall => "Local"
  | static => "Static"

end Storage

namespace RoutineKind

/-- The name of a sort of routines in outlines and records. -/
def name : RoutineKind → String
  | function => "Function"
  | procedure => "Procedure"

end RoutineKind

namespace RoutineHead

/-- The outline of a routine's head. -/
def outline (head : RoutineHead) : List Char :=
  (if head.isStatic then "Static".toList else []) ++
    applied head.kind.name
      [head.name.listing, bracketed (head.parameters.map Identifier.listing)]

end RoutineHead

/-- A line at a level. -/
def outlineLine
    (level : Nat)
    (text : List Char) :
    List Char :=
  (List.replicate level indentation).flatten ++ text ++ ['\n']

mutual

/-- The outline of a statement at a level. -/
def Stmt.outline (level : Nat) : Stmt → List Char
  | .expression value _ => outlineLine level value.outline
  | .assign target value _ =>
      outlineLine level (applied "Assign" [target.outline, value.outline])
  | .update target operator value _ =>
      outlineLine level
        (applied "CompoundAssign"
          [operator.spelling.toList, target.outline, value.outline])
  | .print newLine values _ =>
      outlineLine level
        ((if newLine then "Print" else "PrintInline").toList ++
          bracketed (Expr.outlines values))
  | .declare storage bindings _ =>
      outlineLine level (applied storage.name (bindings.map Binding.outline))
  | .result none _ => outlineLine level "Return".toList
  | .result (some value) _ =>
      outlineLine level (applied "Return" [value.outline])
  | .conditional condition positive none _ =>
      outlineLine level (applied "If" [condition.outline]) ++
        (outlineLine (level + 1) "Then".toList ++ positive.outline (level + 2))
  | .conditional condition positive (some negative) _ =>
      outlineLine level (applied "If" [condition.outline]) ++
        (outlineLine (level + 1) "Then".toList ++
          positive.outline (level + 2)) ++
        (outlineLine (level + 1) "Else".toList ++ negative.outline (level + 2))
  | .whileLoop condition body _ =>
      outlineLine level (applied "While" [condition.outline]) ++
        (outlineLine (level + 1) "Body".toList ++ body.outline (level + 2))
  | .forLoop counter first last step? body _ =>
      outlineLine level
          (applied "For"
            ([counter.listing, first.outline, last.outline] ++
              step?.toList.map Expr.outline)) ++
        (outlineLine (level + 1) "Body".toList ++ body.outline (level + 2))
  | .routine head body _ =>
      outlineLine level head.outline ++ body.outline (level + 1)
  | .exit _ => outlineLine level "Exit".toList
  | .loop _ => outlineLine level "Loop".toList

/-- The outlines of the statements of a block, at a level. -/
def Block.outline (level : Nat) : Block → List Char
  | .of statements _ => Stmt.outlines level statements

/-- The outlines of several statements, at a level. -/
def Stmt.outlines (level : Nat) : List Stmt → List Char
  | [] => []
  | first :: rest => first.outline level ++ Stmt.outlines level rest

end

namespace Program

/-- The outline of a program. -/
def outline (program : Program) : List Char :=
  Stmt.outlines 0 program.statements

end Program

end Clipper
