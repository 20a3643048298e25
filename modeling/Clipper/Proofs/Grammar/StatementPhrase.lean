import Clipper.Grammar.Statement
import Clipper.Proofs.Grammar.ExpressionPhrase

/-!
# The phrases of statements

The grammar of statements, blocks and programs as a relation between tokens and
trees, with no reading in it.  As for expressions, the relation leaves all spans
free.

Blocks are nested to a number of levels, which the expressions in them share.
Routines stand at the top of a program only.

The words that may be left out are optional tokens with a flag for their
presence: `THEN`, `DO` before or after the condition, `STATIC`, and the
closing word of a routine.  The tokens of a conditional are those of its first
arm and of an alternative, which is nothing, a block behind `ELSE`, or another
arm with its own alternative; so the chain of arms is a list in the tokens and
a nesting in the tree.  Every semicolon between statements may be there or
not.
-/

namespace Clipper.Grammar

variable {α : Type}

/-! ## Optional parts -/

/--
A token of one of these kinds, or nothing;
the value tells whether it stands there.
-/
inductive OptionalToken (kinds : List TokenKind) :
    List Token → Bool → Prop where
  | absent : OptionalToken kinds [] false
  | present
      {token : Token}
      (kind : token.kind ∈ kinds) :
      OptionalToken kinds [token] true

/-- A part after a word, or nothing. -/
inductive OptionalPhrase
    (word : TokenKind)
    (part : Phrase α) :
    List Token → Option α → Prop where
  | absent : OptionalPhrase word part [] none
  | present
      {token : Token}
      {tokens : List Token}
      {value : α}
      (kind : token.kind = word)
      (after : part tokens value) :
      OptionalPhrase word part (token :: tokens) (some value)

/-! ## Simple statements -/

section

variable (expression : Phrase Expr)

/-- A declared name, with its first value after an assignment sign. -/
inductive BindingPhrase : List Token → Binding → Prop where
  | binding
      {names tokens : List Token}
      {name : Identifier}
      {value? : Option Expr}
      (named : NamePhrase names name)
      (after : OptionalPhrase .assign expression tokens value?)
      (span : Span) :
      BindingPhrase (names ++ tokens) ⟨name, value?, span⟩

/-- The word that opens a declaration of this storage. -/
def storageWord : Storage → TokenKind
  | .perCall => .localWord
  | .static => .static

/-- A statement after which a semicolon may stand. -/
inductive SimplePhrase : List Token → Stmt → Prop where
  | declaration
      {word : Token}
      {tokens : List Token}
      {storage : Storage}
      {bindings : List Binding}
      (words : word.kind = storageWord storage)
      (after : SeparatedPhrase (BindingPhrase expression) tokens bindings)
      (span : Span) :
      SimplePhrase (word :: tokens) (.declare storage bindings span)
  | returns
      {word : Token}
      (words : word.kind = .returnWord)
      (span : Span) :
      SimplePhrase [word] (.result none span)
  | returnsValue
      {word : Token}
      {tokens : List Token}
      {value : Expr}
      (words : word.kind = .returnWord)
      (after : expression tokens value)
      (span : Span) :
      SimplePhrase (word :: tokens) (.result (some value) span)
  | printLine
      {word : Token}
      {tokens : List Token}
      {values : List Expr}
      (words : word.kind = .question)
      (after : ListPhrase expression tokens values)
      (span : Span) :
      SimplePhrase (word :: tokens) (.print true values span)
  | print
      {word : Token}
      {tokens : List Token}
      {values : List Expr}
      (words : word.kind = .doubleQuestion)
      (after : ListPhrase expression tokens values)
      (span : Span) :
      SimplePhrase (word :: tokens) (.print false values span)
  | exit
      {word : Token}
      (words : word.kind = .exit)
      (span : Span) :
      SimplePhrase [word] (.exit span)
  | loop
      {word : Token}
      (words : word.kind = .loop)
      (span : Span) :
      SimplePhrase [word] (.loop span)
  | expression
      {tokens : List Token}
      {value : Expr}
      (only : expression tokens value)
      (span : Span) :
      SimplePhrase tokens (.expression value span)
  | assign
      {before after : List Token}
      {sign : Token}
      {target value : Expr}
      (first : expression before target)
      (assignable : target.isAssignable = true)
      (signs : sign.kind = .assign)
      (last : expression after value)
      (span : Span) :
      SimplePhrase (before ++ sign :: after) (.assign target value span)
  | update
      {before after : List Token}
      {sign : Token}
      {operator : UpdateOperator}
      {target value : Expr}
      (first : expression before target)
      (assignable : target.isAssignable = true)
      (signs : UpdateOperator.ofKind? sign.kind = some operator)
      (last : expression after value)
      (span : Span) :
      SimplePhrase (before ++ sign :: after)
        (.update target operator value span)

/-! ## Compound statements -/

variable (block : Phrase Block)

/--
What follows the block of an `IF` or `ELSEIF`: nothing,
an `ELSE` with its block, or an `ELSEIF`, which is a
conditional that stands alone in the other block.
-/
inductive AlternativePhrase : List Token → Option Block → Prop where
  | nothing : AlternativePhrase [] none
  | otherwise
      {word : Token}
      {tokens : List Token}
      {negative : Block}
      (words : word.kind = .elseWord)
      (after : block tokens negative) :
      AlternativePhrase (word :: tokens) (some negative)
  | further
      {word : Token}
      {tokens thenTokens inner others : List Token}
      {condition : Expr}
      {hasThen : Bool}
      {positive : Block}
      {negative? : Option Block}
      (words : word.kind = .elseIf)
      (conditions : expression tokens condition)
      (thens : OptionalToken [.thenWord] thenTokens hasThen)
      (positives : block inner positive)
      (alternatives : AlternativePhrase others negative?)
      (span blockSpan : Span) :
      AlternativePhrase (word :: (tokens ++ (thenTokens ++ (inner ++ others))))
        (some (.of [.conditional condition positive negative? span] blockSpan))

/--
The name after the closing word of a counting loop is the name of its counter.
-/
inductive CounterAgain (counter : Identifier) : List Token → Prop where
  | absent : CounterAgain counter []
  | present
      {token : Token}
      (kind : token.kind = .identifier)
      (same : Source.sameIgnoringCase token.lexeme counter.name = true) :
      CounterAgain counter [token]

/-- A statement other than a routine. -/
inductive StatementFormPhrase : List Token → Stmt → Prop where
  | simple
      {tokens ending : List Token}
      {statement : Stmt}
      {hasEnding : Bool}
      (simple : SimplePhrase expression tokens statement)
      (ends : OptionalToken [.semicolon] ending hasEnding) :
      StatementFormPhrase (tokens ++ ending) statement
  | conditional
      {word closing : Token}
      {tokens thenTokens inner others : List Token}
      {condition : Expr}
      {hasThen : Bool}
      {positive : Block}
      {negative? : Option Block}
      (words : word.kind = .ifWord)
      (conditions : expression tokens condition)
      (thens : OptionalToken [.thenWord] thenTokens hasThen)
      (positives : block inner positive)
      (alternatives : AlternativePhrase expression block others negative?)
      (closes : closing.kind = .endIf)
      (span : Span) :
      StatementFormPhrase
        (word :: (tokens ++ (thenTokens ++ (inner ++ (others ++ [closing])))))
        (.conditional condition positive negative? span)
  | whileLoop
      {word closing : Token}
      {before tokens after inner : List Token}
      {condition : Expr}
      {doBefore doAfter : Bool}
      {body : Block}
      (dosBefore : OptionalToken [.doWord] before doBefore)
      (words : word.kind = .whileWord)
      (conditions : expression tokens condition)
      (dosAfter : OptionalToken [.doWord] after doAfter)
      (bodies : block inner body)
      (closes : closing.kind = .endDo)
      (span : Span) :
      StatementFormPhrase
        (before ++ word :: (tokens ++ (after ++ (inner ++ [closing]))))
        (.whileLoop condition body span)
  | forLoop
      {word sign toToken closing : Token}
      {names firsts lasts steps inner again : List Token}
      {counter : Identifier}
      {first last : Expr}
      {step? : Option Expr}
      {body : Block}
      (words : word.kind = .forWord)
      (named : NamePhrase names counter)
      (signs : sign.kind = .assign ∨ sign.kind = .equal)
      (begins : expression firsts first)
      (tos : toToken.kind = .toWord)
      (ends : expression lasts last)
      (stepped : OptionalPhrase .step expression steps step?)
      (bodies : block inner body)
      (closes : closing.kind = .next)
      (counters : CounterAgain counter again)
      (span : Span) :
      StatementFormPhrase
        (word :: (names ++ sign ::
          (firsts ++ toToken :: (lasts ++ (steps ++ (inner ++
            closing :: again))))))
        (.forLoop counter first last step? body span)

end

/-! ## Routines -/

/-- The parameters of a routine between parentheses, or nothing. -/
inductive ParametersPhrase : List Token → List Identifier → Prop where
  | absent : ParametersPhrase [] []
  | present
      {opening closing : Token}
      {tokens : List Token}
      {parameters : List Identifier}
      (opens : opening.kind = .leftParenthesis)
      (between : ListPhrase NamePhrase tokens parameters)
      (closes : closing.kind = .rightParenthesis) :
      ParametersPhrase (opening :: (tokens ++ [closing])) parameters

/-- The word that opens a routine of this kind. -/
def routineWord : RoutineKind → TokenKind
  | .function => .function
  | .procedure => .procedure

/-- A routine with its body. -/
inductive RoutineFormPhrase (block : Phrase Block) :
    List Token → Stmt → Prop where
  | routine
      {word : Token}
      {before names tokens inner ending : List Token}
      {kind : RoutineKind}
      {isStatic hasEnding : Bool}
      {name : Identifier}
      {parameters : List Identifier}
      {body : Block}
      (statics : OptionalToken [.static] before isStatic)
      (words : word.kind = routineWord kind)
      (named : NamePhrase names name)
      (parameterized : ParametersPhrase tokens parameters)
      (bodies : block inner body)
      (ends : OptionalToken [.endFunction, .endProcedure] ending hasEnding)
      (span : Span) :
      RoutineFormPhrase block
        (before ++ word :: (names ++ (tokens ++ (inner ++ ending))))
        (.routine ⟨kind, isStatic, name, parameters⟩ body span)

/-! ## Blocks and programs -/

/-- Statements one after the other; a lone semicolon makes no statement. -/
inductive StatementsPhrase (statement : Phrase Stmt) :
    List Token → List Stmt → Prop where
  | none : StatementsPhrase statement [] []
  | semicolon
      {token : Token}
      {others : List Token}
      {statements : List Stmt}
      (kind : token.kind = .semicolon)
      (rest : StatementsPhrase statement others statements) :
      StatementsPhrase statement (token :: others) statements
  | further
      {tokens others : List Token}
      {first : Stmt}
      {statements : List Stmt}
      (head : statement tokens first)
      (rest : StatementsPhrase statement others statements) :
      StatementsPhrase statement (tokens ++ others) (first :: statements)

/-- The statements of a block. -/
inductive BlockFormPhrase (statement : Phrase Stmt) :
    List Token → Block → Prop where
  | block
      {tokens : List Token}
      {statements : List Stmt}
      (inside : StatementsPhrase statement tokens statements)
      (span : Span) :
      BlockFormPhrase statement tokens (.of statements span)

/-- A statement other than a routine, with a number of levels left below it. -/
def StatementPhrase : Nat → Phrase Stmt
  | 0 => StatementFormPhrase (ExpressionPhrase 0) .never
  | levels + 1 =>
      StatementFormPhrase (ExpressionPhrase (levels + 1))
        (BlockFormPhrase (StatementPhrase levels))

/-- A block, with a number of levels left for it. -/
def BlockPhrase : Nat → Phrase Block
  | 0 => .never
  | levels + 1 => BlockFormPhrase (StatementPhrase levels)

/-- A program: statements and routines. -/
def ProgramPhrase : List Token → List Stmt → Prop :=
  StatementsPhrase
    (fun tokens statement =>
      StatementPhrase nestingLimit tokens statement ∨
        RoutineFormPhrase (BlockPhrase nestingLimit) tokens statement)

end Clipper.Grammar
