import Clipper.Syntax.Statement
/-!
# Programs as source text

The listing of a program is source text that shows the shape of its tree: every
binary operation stands between parentheses, and every compound statement has
its closing word.  Each statement of a block stands on a line of its own, one
level deeper than the block.

Binary operations are put between parentheses whatever their levels are, so
the listing shows how they group; prefix operators, suffixes and messages are
written without any.  Quotes in a string are doubled.  What a placeholder
stood for is shown by its name, so the listing of a broken program need not be
a program.
-/

namespace Clipper

/-- Pieces of text with a comma and a space between two of them. -/
def commaSeparated (pieces : List (List Char)) : List Char :=
  [',', ' '].intercalate pieces

namespace Identifier

/-- The text of a name. -/
def listing (identifier : Identifier) : List Char :=
  identifier.name.toList

end Identifier

namespace Literal

/-- A text between double quotes, with every double quote in it doubled. -/
def quote (text : List Char) : List Char :=
  '"' ::
    (text.flatMap (fun character =>
      if character = '"' then ['"', '"'] else [character]) ++ ['"'])

/-- The text of a literal. -/
def listing (literal : Literal) : List Char :=
  match literal.kind with
  | .string => quote literal.text.toList
  | .number | .nil | .logical => literal.text.toList

end Literal

namespace Expr

mutual

/-- The text of an expression. -/
def listing : Expr → List Char
  | literal value _ => value.listing
  | name identifier _ => identifier.listing
  | unary operator operand _ => operator.spelling.toList ++ operand.listing
  | binary operator left right _ =>
      '(' :: (left.listing ++ ' ' ::
        (operator.spelling.toList ++ ' ' :: (right.listing ++ [')'])))
  | call callee arguments _ =>
      callee.listing ++ '(' :: (commaSeparated (listings arguments) ++ [')'])
  | index target position _ =>
      target.listing ++ '[' :: (position.listing ++ [']'])
  | array elements _ => '{' :: (commaSeparated (listings elements) ++ ['}'])
  | property receiver message _ => receiver.listing ++ ':' :: message.listing
  | send receiver message arguments _ =>
      receiver.listing ++ ':' ::
        (message.listing ++ '(' ::
          (commaSeparated (listings arguments) ++ [')']))
  | field area column _ => area.listing ++ '-' :: '>' :: column.listing
  | codeBlock parameters body _ =>
      '{' :: '|' :: (commaSeparated (parameters.map Identifier.listing) ++
        '|' :: ' ' :: (commaSeparated (listings body) ++ ['}']))

/-- The texts of several expressions. -/
def listings : List Expr → List (List Char)
  | [] => []
  | first :: rest => first.listing :: listings rest

end

end Expr

namespace Storage

/-- The word that opens a declaration. -/
def word : Storage → String
  | perCall => "LOCAL"
  | static => "STATIC"

end Storage

namespace Binding

/-- The text of a declared name. -/
def listing (binding : Binding) : List Char :=
  binding.name.listing ++
    (match binding.value? with
      | some value => " := ".toList ++ value.listing
      | none => [])

end Binding

namespace RoutineKind

/-- The word that opens a routine. -/
def opener : RoutineKind → String
  | function => "FUNCTION"
  | procedure => "PROCEDURE"

/-- The word that closes a routine. -/
def closer : RoutineKind → String
  | function => "ENDFUNCTION"
  | procedure => "ENDPROC"

end RoutineKind

namespace RoutineHead

/-- The first line of a routine. -/
def listing (head : RoutineHead) : List Char :=
  (if head.isStatic then "STATIC ".toList else []) ++
    (head.kind.opener.toList ++ ' ' :: (head.name.listing ++
      '(' :: (commaSeparated (head.parameters.map Identifier.listing) ++
        [')'])))

end RoutineHead

/-- The blanks in front of a line, for each level. -/
def indentation : List Char :=
  [' ', ' ', ' ', ' ']

/-- A text whose lines all stand one level deeper. -/
def indent (text : List Char) : List Char :=
  indentation ++
    text.flatMap (fun character =>
      if character = '\n' then '\n' :: indentation else [character])

/-- The lines of a body, each after a line feed. -/
def bodyLines (statements : List (List Char)) : List Char :=
  statements.flatMap (fun statement => '\n' :: indent statement)

mutual

/-- The text of a statement. -/
def Stmt.listing : Stmt → List Char
  | .expression value _ => value.listing
  | .assign target value _ => target.listing ++ " := ".toList ++ value.listing
  | .update target operator value _ =>
      target.listing ++ ' ' ::
        (operator.spelling.toList ++ ' ' :: value.listing)
  | .print newLine values _ =>
      (if newLine then ['?'] else ['?', '?']) ++
        (if values.isEmpty then [] else
          ' ' :: commaSeparated (Expr.listings values))
  | .declare storage bindings _ =>
      storage.word.toList ++ ' ' ::
        commaSeparated (bindings.map Binding.listing)
  | .result none _ => "RETURN".toList
  | .result (some value) _ => "RETURN ".toList ++ value.listing
  | .conditional condition positive none _ =>
      "IF ".toList ++ condition.listing ++ bodyLines positive.listings ++
        "\nENDIF".toList
  | .conditional condition positive (some negative) _ =>
      "IF ".toList ++ condition.listing ++ bodyLines positive.listings ++
        "\nELSE".toList ++ bodyLines negative.listings ++ "\nENDIF".toList
  | .whileLoop condition body _ =>
      "WHILE ".toList ++ condition.listing ++ bodyLines body.listings ++
        "\nENDDO".toList
  | .forLoop counter first last step? body _ =>
      "FOR ".toList ++ counter.listing ++ " := ".toList ++ first.listing ++
        " TO ".toList ++ last.listing ++
        (match step? with
          | some step => " STEP ".toList ++ step.listing
          | none => []) ++
        bodyLines body.listings ++ "\nNEXT".toList
  | .routine head body _ =>
      head.listing ++ bodyLines body.listings ++ '\n' :: head.kind.closer.toList
  | .exit _ => "EXIT".toList
  | .loop _ => "LOOP".toList

/-- The texts of the statements of a block. -/
def Block.listings : Block → List (List Char)
  | .of statements _ => Stmt.listings statements

/-- The texts of several statements. -/
def Stmt.listings : List Stmt → List (List Char)
  | [] => []
  | first :: rest => first.listing :: Stmt.listings rest

end

namespace Block

/-- The text of a block: its statements, one on a line. -/
def listing (block : Block) : List Char :=
  ['\n'].intercalate block.listings

end Block

namespace Program

/-- The text of a program: its statements, each with a line feed. -/
def listing (program : Program) : List Char :=
  (Stmt.listings program.statements).flatMap (· ++ ['\n'])

end Program

end Clipper
