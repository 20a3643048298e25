import Clipper.Grammar.Expression

/-!
# The phrases of expressions

The grammar of expressions as a relation between tokens and trees, with no
reading in it.  The relation leaves all spans free: a tree that tokens spell is
determined up to spans only.

An expression may be nested to a number of levels: one for the expression
itself, and one for each parenthesis, argument, index, element, expression of a
code block and prefix operator around a part of it.

That every phrase is not empty and begins with one of few tokens is proved
here as well, since lists and optional parts need it.  The phrase of a suffix
has its target in front, as the tree has; a call must not stand behind a
message, because the parenthesis belongs to the message then.
-/

namespace Clipper.Grammar

/-- Which tokens spell which values. -/
abbrev Phrase (α : Type) :=
  List Token → α → Prop

variable {α : Type}

/-- The phrase that no tokens spell. -/
def Phrase.never : Phrase α :=
  fun _ _ => False

/-! ## Lists -/

/-- One or more items with commas between them. -/
inductive SeparatedPhrase (item : Phrase α) : List Token → List α → Prop where
  | single
      {tokens : List Token}
      {value : α}
      (only : item tokens value) :
      SeparatedPhrase item tokens [value]
  | further
      {tokens others : List Token}
      {value : α}
      {values : List α}
      {comma : Token}
      (first : item tokens value)
      (separator : comma.kind = .comma)
      (rest : SeparatedPhrase item others values) :
      SeparatedPhrase item (tokens ++ comma :: others) (value :: values)

/-- Items with commas between them, or none. -/
inductive ListPhrase (item : Phrase α) : List Token → List α → Prop where
  | none : ListPhrase item [] []
  | some
      {tokens : List Token}
      {values : List α}
      (items : SeparatedPhrase item tokens values) :
      ListPhrase item tokens values

/-- A name. -/
inductive NamePhrase : List Token → Identifier → Prop where
  | name
      {token : Token}
      (kind : token.kind = .identifier)
      (span : Span) :
      NamePhrase [token] ⟨token.lexeme, span⟩

/-! ## Primaries and suffixes -/

/-- A literal, a name, or an expression with a delimiter of its own. -/
inductive PrimaryPhrase (nested : Phrase Expr) : List Token → Expr → Prop where
  | literal
      {token : Token}
      {value : Literal}
      (kind : literal? token = some value)
      (span : Span) :
      PrimaryPhrase nested [token] (.literal value span)
  | name
      {tokens : List Token}
      {identifier : Identifier}
      (name : NamePhrase tokens identifier)
      (span : Span) :
      PrimaryPhrase nested tokens (.name identifier span)
  | parenthesized
      {opening closing : Token}
      {tokens : List Token}
      {inner : Expr}
      (opens : opening.kind = .leftParenthesis)
      (between : nested tokens inner)
      (closes : closing.kind = .rightParenthesis)
      (span : Span) :
      PrimaryPhrase nested (opening :: (tokens ++ [closing]))
        (inner.withSpan span)
  | array
      {opening closing : Token}
      {tokens : List Token}
      {elements : List Expr}
      (opens : opening.kind = .leftBrace)
      (between : ListPhrase nested tokens elements)
      (closes : closing.kind = .rightBrace)
      (span : Span) :
      PrimaryPhrase nested (opening :: (tokens ++ [closing]))
        (.array elements span)
  | codeBlock
      {opening firstBar secondBar closing : Token}
      {names tokens : List Token}
      {parameters : List Identifier}
      {body : List Expr}
      (opens : opening.kind = .leftBrace)
      (firstBars : firstBar.kind = .bar)
      (between : ListPhrase NamePhrase names parameters)
      (secondBars : secondBar.kind = .bar)
      (after : ListPhrase nested tokens body)
      (closes : closing.kind = .rightBrace)
      (span : Span) :
      PrimaryPhrase nested
        (opening :: firstBar :: (names ++ secondBar :: (tokens ++ [closing])))
        (.codeBlock parameters body span)

/--
Tokens that end in the name of a message; a
parenthesis after them opens its arguments.
-/
def EndsInMessage (tokens : List Token) : Prop :=
  ∃ before colon name,
    tokens = before ++ [colon, name] ∧ colon.kind = .colon ∧
    name.kind = .identifier

/-- Tokens end in a message if the last two of them are a colon and a name. -/
theorem endsInMessage_append_pair
    {before : List Token}
    {first second : Token} :
    EndsInMessage (before ++ [first, second]) ↔
      first.kind = .colon ∧ second.kind = .identifier := by
  constructor
  · rintro ⟨others, colon, name, same, colons, names⟩
    have reversed := congrArg List.reverse same
    simp only [List.reverse_append, List.reverse_cons, List.reverse_nil,
      List.nil_append, List.cons_append, List.cons.injEq] at reversed
    rcases reversed with ⟨rfl, rfl, -⟩
    exact ⟨colons, names⟩
  · rintro ⟨colons, names⟩
    exact ⟨before, first, second, rfl, colons, names⟩

theorem EndsInMessage.kind_getLast?
    {tokens : List Token}
    (ends : EndsInMessage tokens) :
    tokens.getLast?.map Token.kind = some .identifier := by
  rcases ends with ⟨before, colon, name, rfl, -, names⟩
  simp [names]

/-- A primary is no message. -/
theorem PrimaryPhrase.not_endsInMessage
    {nested : Phrase Expr}
    {tokens : List Token}
    {tree : Expr}
    (primary : PrimaryPhrase nested tokens tree) :
    ¬ EndsInMessage tokens := by
  -- One token is too few, and all other primaries end in a delimiter.
  have single (token : Token) : ¬ EndsInMessage [token] := by
    rintro ⟨before, colon, name, same, -⟩
    have lengths := congrArg List.length same
    simp at lengths
  intro ends
  cases primary with
  | literal => exact single _ ends
  | name name =>
      cases name with
      | name => exact single _ ends
  | parenthesized _ _ closes =>
      simpa [closes, List.getLast?_cons] using ends.kind_getLast?
  | array _ _ closes =>
      simpa [closes, List.getLast?_cons] using ends.kind_getLast?
  | codeBlock _ _ _ _ _ closes =>
      simpa [closes, List.getLast?_cons] using ends.kind_getLast?

/-- A primary with any number of suffixes. -/
inductive SuffixedPhrase (nested : Phrase Expr) : List Token → Expr → Prop where
  | primary
      {tokens : List Token}
      {tree : Expr}
      (primary : PrimaryPhrase nested tokens tree) :
      SuffixedPhrase nested tokens tree
  | call
      {before tokens : List Token}
      {callee : Expr}
      {arguments : List Expr}
      {opening closing : Token}
      (first : SuffixedPhrase nested before callee)
      (noMessage : ¬ EndsInMessage before)
      (opens : opening.kind = .leftParenthesis)
      (between : ListPhrase nested tokens arguments)
      (closes : closing.kind = .rightParenthesis)
      (span : Span) :
      SuffixedPhrase nested (before ++ opening :: (tokens ++ [closing]))
        (.call callee arguments span)
  | index
      {before tokens : List Token}
      {target position : Expr}
      {opening closing : Token}
      (first : SuffixedPhrase nested before target)
      (opens : opening.kind = .leftBracket)
      (between : nested tokens position)
      (closes : closing.kind = .rightBracket)
      (span : Span) :
      SuffixedPhrase nested (before ++ opening :: (tokens ++ [closing]))
        (.index target position span)
  | property
      {before name : List Token}
      {receiver : Expr}
      {message : Identifier}
      {colon : Token}
      (first : SuffixedPhrase nested before receiver)
      (colons : colon.kind = .colon)
      (names : NamePhrase name message)
      (span : Span) :
      SuffixedPhrase nested (before ++ colon :: name)
        (.property receiver message span)
  | send
      {before name tokens : List Token}
      {receiver : Expr}
      {message : Identifier}
      {arguments : List Expr}
      {colon opening closing : Token}
      (first : SuffixedPhrase nested before receiver)
      (colons : colon.kind = .colon)
      (names : NamePhrase name message)
      (opens : opening.kind = .leftParenthesis)
      (between : ListPhrase nested tokens arguments)
      (closes : closing.kind = .rightParenthesis)
      (span : Span) :
      SuffixedPhrase nested
        (before ++ colon :: (name ++ opening :: (tokens ++ [closing])))
        (.send receiver message arguments span)
  | field
      {before name : List Token}
      {area : Expr}
      {column : Identifier}
      {arrow : Token}
      (first : SuffixedPhrase nested before area)
      (arrows : arrow.kind = .arrow)
      (names : NamePhrase name column)
      (span : Span) :
      SuffixedPhrase nested (before ++ arrow :: name) (.field area column span)

/-! ## Operators -/

/-- Operands joined by the operators of one level, grouped to the left. -/
inductive ChainPhrase
    (level : Nat)
    (operand : Phrase Expr) :
    List Token → Expr → Prop where
  | operand
      {tokens : List Token}
      {tree : Expr}
      (only : operand tokens tree) :
      ChainPhrase level operand tokens tree
  | join
      {before after : List Token}
      {left right : Expr}
      {sign : Token}
      {operator : BinaryOperator}
      (first : ChainPhrase level operand before left)
      (signs : BinaryOperator.ofKind? sign.kind = some operator)
      (binds : operator.level = level)
      (last : operand after right)
      (span : Span) :
      ChainPhrase level operand (before ++ sign :: after)
        (.binary operator left right span)

/-- The six levels of binary operators above an operand. -/
def BinaryPhrase (operand : Phrase Expr) : Phrase Expr :=
  ChainPhrase 1
    (ChainPhrase 2
      (ChainPhrase 3 (ChainPhrase 4 (ChainPhrase 5 (ChainPhrase 6 operand)))))

/--
A prefix operator before an operand one
level deeper, or a primary with suffixes.
-/
inductive PrefixedPhrase
    (deeper nested : Phrase Expr) :
    List Token → Expr → Prop where
  | operator
      {tokens : List Token}
      {operand : Expr}
      {sign : Token}
      {operator : UnaryOperator}
      (signs : UnaryOperator.ofKind? sign.kind = some operator)
      (after : deeper tokens operand)
      (span : Span) :
      PrefixedPhrase deeper nested (sign :: tokens)
        (.unary operator operand span)
  | suffixed
      {tokens : List Token}
      {tree : Expr}
      (suffixed : SuffixedPhrase nested tokens tree) :
      PrefixedPhrase deeper nested tokens tree

/-- An operand, with a number of levels left below it. -/
def OperandPhrase : Nat → Phrase Expr
  | 0 => PrefixedPhrase .never .never
  | levels + 1 =>
      PrefixedPhrase (OperandPhrase levels)
        (BinaryPhrase (OperandPhrase levels))

/-- An expression, with a number of levels left for it. -/
def ExpressionPhrase : Nat → Phrase Expr
  | 0 => .never
  | levels + 1 => BinaryPhrase (OperandPhrase levels)

/-! ## How an expression begins -/

/-- The kind of the first of some tokens; after them the file ends. -/
def headKind : List Token → TokenKind
  | [] => .endOfFile
  | token :: _ => token.kind

theorem headKind_append
    {tokens : List Token}
    (nonempty : tokens ≠ [])
    (after : List Token) :
    headKind (tokens ++ after) = headKind tokens := by
  cases tokens with
  | nil => exact absurd rfl nonempty
  | cons token rest => rfl

/-- The tokens of the phrase begin with a token of these kinds. -/
def Begins
    (phrase : Phrase α)
    (kinds : TokenKind → Prop) :
    Prop :=
  ∀ tokens value, phrase tokens value → tokens ≠ [] ∧ kinds (headKind tokens)

theorem Begins.mono
    {phrase : Phrase α}
    {kinds others : TokenKind → Prop}
    (begins : Begins phrase kinds)
    (implies : ∀ kind, kinds kind → others kind) :
    Begins phrase others := by
  intro tokens value phrased
  rcases begins tokens value phrased with ⟨nonempty, first⟩
  exact ⟨nonempty, implies _ first⟩

theorem begins_append
    {kinds : TokenKind → Prop}
    {tokens : List Token}
    (begins : tokens ≠ [] ∧ kinds (headKind tokens))
    (after : List Token) :
    tokens ++ after ≠ [] ∧ kinds (headKind (tokens ++ after)) := by
  rw [headKind_append begins.1]
  exact ⟨List.append_ne_nil_of_left_ne_nil begins.1 after, begins.2⟩

theorem Begins.separated
    {item : Phrase α}
    {kinds : TokenKind → Prop}
    (begins : Begins item kinds) :
    Begins (SeparatedPhrase item) kinds := by
  intro tokens values phrased
  cases phrased with
  | single only => exact begins _ _ only
  | further first => exact begins_append (begins _ _ first) _

/-- The tokens that begin an operand without a prefix operator. -/
def BeginsPrimary (kind : TokenKind) : Prop :=
  opensExpression kind = true ∧ UnaryOperator.ofKind? kind = none

/-- A literal begins a primary. -/
theorem beginsPrimary_of_literal
    {token : Token}
    {value : Literal}
    (isLiteral : literal? token = some value) :
    BeginsPrimary token.kind := by
  unfold literal? at isLiteral
  split at isLiteral
  case h_6 => cases isLiteral
  all_goals
    next kind =>
      rw [kind]
      exact ⟨rfl, rfl⟩

/--
A primary is not empty, and begins with one of the tokens
that begin primaries.
-/
theorem begins_primary (nested : Phrase Expr) :
    Begins (PrimaryPhrase nested) BeginsPrimary := by
  intro tokens tree phrased
  cases phrased with
  | literal kind => exact ⟨List.cons_ne_nil _ _, beginsPrimary_of_literal kind⟩
  | name name =>
      cases name with
      | name kind =>
          refine ⟨List.cons_ne_nil _ _, ?_⟩
          rw [headKind, kind]
          exact ⟨rfl, rfl⟩
  | parenthesized opens | array opens | codeBlock opens =>
      refine ⟨List.cons_ne_nil _ _, ?_⟩
      rw [headKind, opens]
      exact ⟨rfl, rfl⟩

/-- A primary with suffixes begins as the primary does. -/
theorem begins_suffixed (nested : Phrase Expr) :
    Begins (SuffixedPhrase nested) BeginsPrimary := by
  intro tokens tree phrased
  induction phrased with
  | primary primary => exact begins_primary nested _ _ primary
  | call _ _ _ _ _ _ hypothesis => exact begins_append hypothesis _
  | index _ _ _ _ _ hypothesis => exact begins_append hypothesis _
  | property _ _ _ _ hypothesis => exact begins_append hypothesis _
  | send _ _ _ _ _ _ _ hypothesis => exact begins_append hypothesis _
  | field _ _ _ _ hypothesis => exact begins_append hypothesis _

/-- A chain of operators begins as its first operand does. -/
theorem begins_chain
    {operand : Phrase Expr}
    {kinds : TokenKind → Prop}
    (begins : Begins operand kinds)
    (level : Nat) :
    Begins (ChainPhrase level operand) kinds := by
  intro tokens tree phrased
  induction phrased with
  | operand only => exact begins _ _ only
  | join _ _ _ _ _ hypothesis => exact begins_append hypothesis _

theorem begins_binary
    {operand : Phrase Expr}
    {kinds : TokenKind → Prop}
    (begins : Begins operand kinds) :
    Begins (BinaryPhrase operand) kinds :=
  begins_chain
    (begins_chain
      (begins_chain (begins_chain (begins_chain (begins_chain begins 6) 5)
    4) 3) 2) 1

/--
An operand begins with a token that opens expressions: as a primary does, or
with a prefix operator.
-/
theorem begins_operand (levels : Nat) :
    Begins (OperandPhrase levels)
      (fun kind => opensExpression kind = true) := by
  have step (deeper nested : Phrase Expr) :
      Begins (PrefixedPhrase deeper nested)
        (fun kind => opensExpression kind = true) := by
    intro tokens tree phrased
    cases phrased with
    | @operator _ _ sign operator signs after span =>
        refine ⟨List.cons_ne_nil _ _, ?_⟩
        rw [headKind]
        unfold UnaryOperator.ofKind? at signs
        split at signs
        case h_4 => cases signs
        all_goals
          next kind =>
            rw [kind]
            rfl
    | suffixed suffixed =>
        have begins := begins_suffixed nested _ _ suffixed
        exact ⟨begins.1, begins.2.1⟩
  cases levels with
  | zero => exact step _ _
  | succ levels => exact step _ _

theorem begins_expression (levels : Nat) :
    Begins (ExpressionPhrase levels)
      (fun kind => opensExpression kind = true) := by
  cases levels with
  | zero => exact fun _ _ impossible => impossible.elim
  | succ levels => exact begins_binary (begins_operand levels)

end Clipper.Grammar
