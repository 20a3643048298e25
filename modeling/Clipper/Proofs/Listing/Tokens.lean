import Clipper.Proofs.Lexeme.Words
import Clipper.Syntax.Statement

/-!
# The tokens of a listing

For each tree, the tokens of its listing, without their places.  Line breaks and
indentation do not appear among them, so they show what a reader of the listing
has to tell the statements apart.

They are defined by recursion on the tree, beside the listing and not by
scanning it.  That the listing spells them is a theorem on texts, and that the
grammar reads them is a theorem on tokens; each can be proved without the
other.  The kind and the lexeme of a token are those that the scanner would
give it, so a sign with a common spelling has this spelling.
-/

namespace Clipper

/-- Groups of tokens with a comma between two of them. -/
def commaTokens (groups : List (List Token)) : List Token :=
  [Token.unplaced .comma ","].intercalate groups

theorem commaTokens_single (group : List Token) :
    commaTokens [group] = group := by
  simp [commaTokens, List.intercalate]

theorem commaTokens_cons_cons
    (first second : List Token)
    (rest : List (List Token)) :
    commaTokens (first :: second :: rest) =
      first ++ .unplaced .comma "," :: commaTokens (second :: rest) := by
  simp [commaTokens, List.intercalate]

/-! ## Expressions -/

/-- The token of a name. -/
def Identifier.token (identifier : Identifier) : Token :=
  .unplaced .identifier identifier.name

/-- The kind of the token of a literal. -/
def Literal.tokenKind (literal : Literal) : TokenKind :=
  match literal.kind with
  | .number => .number
  | .string => .string
  | .nil => .nil
  | .logical => if literal.text = ".T." then .yes else .no

/-- The token of a literal. -/
def Literal.token (literal : Literal) : Token :=
  .unplaced literal.tokenKind literal.text

namespace Expr

mutual

/-- The tokens of an expression. -/
def tokens : Expr → List Token
  | literal value _ => [value.token]
  | name identifier _ => [identifier.token]
  | unary operator operand _ =>
      .unplaced operator.kind operator.spelling :: operand.tokens
  | binary operator left right _ =>
      .unplaced .leftParenthesis "(" ::
        (left.tokens ++ .unplaced operator.kind operator.spelling ::
          (right.tokens ++ [.unplaced .rightParenthesis ")"]))
  | call callee arguments _ =>
      callee.tokens ++ .unplaced .leftParenthesis "(" ::
        (commaTokens (tokenGroups arguments) ++
          [.unplaced .rightParenthesis ")"])
  | index target position _ =>
      target.tokens ++ .unplaced .leftBracket "[" ::
        (position.tokens ++ [.unplaced .rightBracket "]"])
  | array elements _ =>
      .unplaced .leftBrace "\x7b" ::
        (commaTokens (tokenGroups elements) ++ [.unplaced .rightBrace "\x7d"])
  | property receiver message _ =>
      receiver.tokens ++ [.unplaced .colon ":", message.token]
  | send receiver message arguments _ =>
      receiver.tokens ++ .unplaced .colon ":" :: message.token ::
        .unplaced .leftParenthesis "(" ::
        (commaTokens (tokenGroups arguments) ++
          [.unplaced .rightParenthesis ")"])
  | field area column _ => area.tokens ++ [.unplaced .arrow "->", column.token]
  | codeBlock parameters body _ =>
      .unplaced .leftBrace "\x7b" :: .unplaced .bar "|" ::
        (commaTokens (parameters.map (fun parameter => [parameter.token])) ++
          .unplaced .bar "|" ::
            (commaTokens (tokenGroups body) ++ [.unplaced .rightBrace "\x7d"]))

/-- The tokens of several expressions. -/
def tokenGroups : List Expr → List (List Token)
  | [] => []
  | first :: rest => first.tokens :: tokenGroups rest

end

theorem tokenGroups_eq_map (values : List Expr) :
    tokenGroups values = values.map tokens := by
  induction values with
  | nil => rfl
  | cons first rest hypothesis => rw [tokenGroups, hypothesis, List.map_cons]

theorem listings_eq_map (values : List Expr) :
    listings values = values.map listing := by
  induction values with
  | nil => rfl
  | cons first rest hypothesis => rw [listings, hypothesis, List.map_cons]

end Expr

/-! ## Statements -/

/-- The tokens of a declared name. -/
def Binding.tokens (binding : Binding) : List Token :=
  binding.name.token ::
    (match binding.value? with
      | some value => .unplaced .assign ":=" :: value.tokens
      | none => [])

/-- The token of the word that opens a declaration. -/
def Storage.token : Storage → Token
  | perCall => .unplaced .localWord "LOCAL"
  | static => .unplaced .static "STATIC"

/-- The token of the word that opens a routine. -/
def RoutineKind.token : RoutineKind → Token
  | function => .unplaced .function "FUNCTION"
  | procedure => .unplaced .procedure "PROCEDURE"

/-- The token of the word that closes a routine. -/
def RoutineKind.closingToken : RoutineKind → Token
  | function => .unplaced .endFunction "ENDFUNCTION"
  | procedure => .unplaced .endProcedure "ENDPROC"

/-- The tokens of the first line of a routine. -/
def RoutineHead.tokens (head : RoutineHead) : List Token :=
  (if head.isStatic then [.unplaced .static "STATIC"] else []) ++
    head.kind.token :: head.name.token :: .unplaced .leftParenthesis "(" ::
      (commaTokens (head.parameters.map (fun parameter => [parameter.token])) ++
        [.unplaced .rightParenthesis ")"])

/-- The tokens of the step of a counting loop. -/
def stepTokens : Option Expr → List Token
  | some step => .unplaced .step "STEP" :: step.tokens
  | none => []

mutual

/-- The tokens of a statement. -/
def Stmt.tokens : Stmt → List Token
  | .expression value _ => value.tokens
  | .assign target value _ =>
      target.tokens ++ .unplaced .assign ":=" :: value.tokens
  | .update target operator value _ =>
      target.tokens ++ .unplaced operator.kind operator.spelling :: value.tokens
  | .print newLine values _ =>
      (if newLine then .unplaced .question "?"
        else .unplaced .doubleQuestion "??") ::
        commaTokens (Expr.tokenGroups values)
  | .declare storage bindings _ =>
      storage.token :: commaTokens (bindings.map Binding.tokens)
  | .result none _ => [.unplaced .returnWord "RETURN"]
  | .result (some value) _ => .unplaced .returnWord "RETURN" :: value.tokens
  | .conditional condition positive none _ =>
      .unplaced .ifWord "IF" ::
        (condition.tokens ++ (positive.tokens ++ [.unplaced .endIf "ENDIF"]))
  | .conditional condition positive (some negative) _ =>
      .unplaced .ifWord "IF" ::
        (condition.tokens ++
          (positive.tokens ++
            .unplaced .elseWord "ELSE" ::
              (negative.tokens ++ [.unplaced .endIf "ENDIF"])))
  | .whileLoop condition body _ =>
      .unplaced .whileWord "WHILE" ::
        (condition.tokens ++ (body.tokens ++ [.unplaced .endDo "ENDDO"]))
  | .forLoop counter first last step? body _ =>
      .unplaced .forWord "FOR" :: counter.token :: .unplaced .assign ":=" ::
        (first.tokens ++ .unplaced .toWord "TO" ::
          (last.tokens ++
            (stepTokens step? ++ (body.tokens ++ [.unplaced .next "NEXT"]))))
  | .routine head body _ =>
      head.tokens ++ (body.tokens ++ [head.kind.closingToken])
  | .exit _ => [.unplaced .exit "EXIT"]
  | .loop _ => [.unplaced .loop "LOOP"]

/-- The tokens of a block. -/
def Block.tokens : Block → List Token
  | .of statements _ => Stmt.tokensOf statements

/-- The tokens of several statements. -/
def Stmt.tokensOf : List Stmt → List Token
  | [] => []
  | first :: rest => first.tokens ++ Stmt.tokensOf rest

end

/-- The tokens of a program. -/
def Program.tokens (program : Program) : List Token :=
  Stmt.tokensOf program.statements

end Clipper
