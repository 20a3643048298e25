import Clipper.Proofs.Grammar.Curtailment
import Clipper.Proofs.Grammar.StatementPhrase

/-!
# How phrases end

No phrase ends in `STATIC` or `DO`: a routine follows the one word, and a loop
or a statement the other.  An expression ends in a literal, a name or a closing
delimiter, a compound statement in its closing word or a name, and a routine in
its closing word or in the last thing that stands in it.

The two words matter at a seam between lists of tokens.  A list that ends in
`STATIC` leaves open whether the word belongs to a declaration or to the
routine behind the seam; one that ends in `DO` leaves open whether a loop
begins.  As no phrase of the grammar ends so, a list that is read without a
report may be followed by any other.  The lemmas go through the phrases and
give for each its last token.
-/

namespace Clipper.Grammar

variable {α : Type} {before after : List Token}

theorem endsClear_nil : EndsClear [] := by
  intro token member
  cases member

/-- Tokens that end in another word are clear of these two. -/
theorem endsClear_concat
    {token : Token}
    {kind : TokenKind}
    (before : List Token)
    (isKind : token.kind = kind)
    (clear : kind ≠ .static ∧ kind ≠ .doWord) :
    EndsClear (before ++ [token]) := by
  intro last member
  rw [List.getLast?_concat] at member
  cases member
  rwa [isKind]

theorem EndsClear.append
    (clear : EndsClear before)
    (clearAfter : EndsClear after) :
    EndsClear (before ++ after) := by
  rcases List.eq_nil_or_concat' after with rfl | ⟨others, last, rfl⟩
  · rwa [List.append_nil]
  · rw [← List.append_assoc]
    exact endsClear_concat _
      rfl (clearAfter last (by rw [List.getLast?_concat]; rfl))

theorem EndsClear.prepend
    (clear : EndsClear after)
    (nonempty : after ≠ [])
    (before : List Token) :
    EndsClear (before ++ after) := by
  intro token member
  rw [List.getLast?_append_of_ne_nil before nonempty] at member
  exact clear token member

/--
The tokens of the phrase do not end in a word
that is understood by the token after it.
-/
def Closes (phrase : Phrase α) : Prop :=
  ∀ ⦃tokens value⦄, phrase tokens value → tokens ≠ [] ∧ EndsClear tokens

/-- A clear phrase stays clear behind any tokens. -/
theorem Closes.prepend
    {phrase : Phrase α}
    {tokens : List Token}
    {value : α}
    (closes : Closes phrase)
    (phrased : phrase tokens value)
    (before : List Token) :
    before ++ tokens ≠ [] ∧ EndsClear (before ++ tokens) :=
  ⟨List.append_ne_nil_of_right_ne_nil _ (closes phrased).1,
    (closes phrased).2.prepend (closes phrased).1 before⟩

theorem closes_concat
    {token : Token}
    {kind : TokenKind}
    (before : List Token)
    (isKind : token.kind = kind)
    (clear : kind ≠ .static ∧ kind ≠ .doWord) :
    before ++ [token] ≠ [] ∧ EndsClear (before ++ [token]) :=
  ⟨List.append_ne_nil_of_right_ne_nil _ (List.cons_ne_nil _ _),
    endsClear_concat _ isKind clear⟩

/-! ## Expressions -/

theorem closes_name : Closes NamePhrase := by
  intro tokens name phrased
  cases phrased with
  | name kind => exact closes_concat [] kind (by decide)

/-- A list ends as its last item does. -/
theorem Closes.separated
    {item : Phrase α}
    (closes : Closes item) :
    Closes (SeparatedPhrase item) := by
  intro tokens values phrased
  induction phrased with
  | single only => exact closes only
  | further first separator rest hypothesis =>
      refine ⟨List.append_ne_nil_of_right_ne_nil _ (List.cons_ne_nil _ _), ?_⟩
      apply EndsClear.prepend _ (List.cons_ne_nil _ _)
      exact hypothesis.2.prepend hypothesis.1 [_]

/-- A list that may be empty ends as its last item does. -/
theorem Closes.list
    {item : Phrase α}
    (closes : Closes item)
    {tokens : List Token}
    {values : List α}
    (phrased : ListPhrase item tokens values) :
    EndsClear tokens := by
  cases phrased with
  | none => exact endsClear_nil
  | some items => exact (closes.separated items).2

/-- A literal is none of the two words. -/
theorem clear_of_literal
    {token : Token}
    {value : Literal}
    (isLiteral : literal? token = some value) :
    token.kind ≠ .static ∧ token.kind ≠ .doWord := by
  constructor
  · intro word
    rw [literal?, word] at isLiteral
    cases isLiteral
  · intro word
    rw [literal?, word] at isLiteral
    cases isLiteral

/-- A primary ends in a literal, a name or a closing delimiter. -/
theorem closes_primary (nested : Phrase Expr) :
    Closes (PrimaryPhrase nested) := by
  intro tokens tree phrased
  cases phrased with
  | literal kind => exact closes_concat [] rfl (clear_of_literal kind)
  | name name => exact closes_name name
  | parenthesized _ _ closes => exact closes_concat (_ :: _) closes (by decide)
  | array _ _ closes => exact closes_concat (_ :: _) closes (by decide)
  | @codeBlock opening firstBar secondBar closing names tokens _ _ _ _ _ _ _
      closes =>
      have shape :
          opening :: firstBar :: (names ++ secondBar :: (tokens ++ [closing])) =
            (opening :: firstBar :: (names ++ secondBar :: tokens)) ++
              [closing] := by
        simp
      rw [shape]
      exact closes_concat _ closes (by decide)

/-- An operand with suffixes ends in a name or a closing delimiter. -/
theorem closes_suffixed (nested : Phrase Expr) :
    Closes (SuffixedPhrase nested) := by
  intro tokens tree phrased
  cases phrased with
  | primary primary => exact closes_primary nested primary
  | @call before tokens _ _ opening closing _ _ _ _ closes =>
      have shape :
          before ++ opening :: (tokens ++ [closing]) =
            (before ++ opening :: tokens) ++ [closing] := by
        simp
      rw [shape]
      exact closes_concat _ closes (by decide)
  | @index before tokens _ _ opening closing _ _ _ closes =>
      have shape :
          before ++ opening :: (tokens ++ [closing]) =
            (before ++ opening :: tokens) ++ [closing] := by
        simp
      rw [shape]
      exact closes_concat _ closes (by decide)
  | property _ _ names | field _ _ names =>
      have shape {before name : List Token} {sign : Token} :
          before ++ sign :: name = (before ++ [sign]) ++ name := by
        simp
      rw [shape]
      exact closes_name.prepend names _
  | @send before name tokens _ _ _ colon opening closing _ _ _ _ _ closes =>
      have shape :
          before ++ colon :: (name ++ opening :: (tokens ++ [closing])) =
            (before ++ colon :: (name ++ opening :: tokens)) ++ [closing] := by
        simp
      rw [shape]
      exact closes_concat _ closes (by decide)

/-- A chain of operators ends as its last operand does. -/
theorem Closes.chain
    {operand : Phrase Expr}
    (closes : Closes operand)
    (level : Nat) :
    Closes (ChainPhrase level operand) := by
  intro tokens tree phrased
  cases phrased with
  | operand only => exact closes only
  | @join before after _ _ sign _ _ _ _ last =>
      have shape : before ++ sign :: after = (before ++ [sign]) ++ after := by
        simp
      rw [shape]
      exact closes.prepend last _

theorem Closes.binary
    {operand : Phrase Expr}
    (closes : Closes operand) :
    Closes (BinaryPhrase operand) :=
  (((((closes.chain 6).chain 5).chain 4).chain 3).chain 2).chain 1

theorem closes_never : Closes (Phrase.never : Phrase α) :=
  fun _ _ impossible => impossible.elim

theorem closes_prefixed
    {deeper nested : Phrase Expr}
    (closes : Closes deeper) :
    Closes (PrefixedPhrase deeper nested) := by
  intro tokens tree phrased
  cases phrased with
  | operator signs after => exact closes.prepend after [_]
  | suffixed suffixed => exact closes_suffixed nested suffixed

theorem closes_operand (levels : Nat) : Closes (OperandPhrase levels) := by
  induction levels with
  | zero => exact closes_prefixed closes_never
  | succ levels hypothesis => exact closes_prefixed hypothesis

theorem closes_expression (levels : Nat) :
    Closes (ExpressionPhrase levels) := by
  cases levels with
  | zero => exact closes_never
  | succ levels => exact (closes_operand levels).binary

/-! ## Statements -/

/-- A token that may be absent is clear if its kinds are. -/
theorem endsClear_optionalToken
    {kinds : List TokenKind}
    (clear : ∀ kind ∈ kinds, kind ≠ .static ∧ kind ≠ .doWord)
    {tokens : List Token}
    {present : Bool}
    (phrased : OptionalToken kinds tokens present) :
    EndsClear tokens := by
  cases phrased with
  | absent => exact endsClear_nil
  | present kind => exact endsClear_concat [] rfl (clear _ kind)

/-- An optional part ends as the part does. -/
theorem endsClear_optional
    {part : Phrase α}
    (closes : Closes part)
    {word : TokenKind}
    {tokens : List Token}
    {value? : Option α}
    (phrased : OptionalPhrase word part tokens value?) :
    EndsClear tokens := by
  cases phrased with
  | absent => exact endsClear_nil
  | present kind after => exact (closes.prepend after [_]).2

section

variable {expression : Phrase Expr} (closes : Closes expression)

include closes

theorem closes_binding : Closes (BindingPhrase expression) := by
  intro tokens bound phrased
  cases phrased with
  | binding named after =>
      refine ⟨List.append_ne_nil_of_left_ne_nil (closes_name named).1 _, ?_⟩
      exact (closes_name named).2.append (endsClear_optional closes after)

/-- A simple statement ends in an expression, in a name or in its own word. -/
theorem closes_simple : Closes (SimplePhrase expression) := by
  have assigned {before after : List Token} {sign : Token} {value : Expr}
      (last : expression after value) :
      before ++ sign :: after ≠ [] ∧ EndsClear (before ++ sign :: after) := by
    have shape : before ++ sign :: after = (before ++ [sign]) ++ after := by
      simp
    rw [shape]
    exact closes.prepend last _
  have printed {word : Token} {tokens : List Token} {values : List Expr}
      {kind : TokenKind} (words : word.kind = kind)
      (clear : kind ≠ .static ∧ kind ≠ .doWord)
      (after : ListPhrase expression tokens values) :
      word :: tokens ≠ [] ∧ EndsClear (word :: tokens) :=
    ⟨List.cons_ne_nil _ _, (endsClear_concat [] words clear).append
      (closes.list after)⟩
  intro tokens statement phrased
  cases phrased with
  | declaration words after =>
      exact (closes_binding closes).separated.prepend after [_]
  | returns words => exact closes_concat [] words (by decide)
  | returnsValue words after => exact closes.prepend after [_]
  | printLine words after => exact printed words (by decide) after
  | print words after => exact printed words (by decide) after
  | exit words => exact closes_concat [] words (by decide)
  | loop words => exact closes_concat [] words (by decide)
  | expression only => exact closes only
  | assign _ _ _ last => exact assigned last
  | update _ _ _ last => exact assigned last

/--
A statement of any form but a routine ends clear: in its closing word, or as
its last expression does.
-/
theorem closes_statementForm (block : Phrase Block) :
    Closes (StatementFormPhrase expression block) := by
  intro tokens statement phrased
  cases phrased with
  | simple simple ends =>
      have first := closes_simple closes simple
      refine ⟨List.append_ne_nil_of_left_ne_nil first.1 _, first.2.append ?_⟩
      exact endsClear_optionalToken (by decide) ends
  | @conditional word closing tokens thenTokens inner others _ _ _ _ _ _ _ _ _
      closing' =>
      have shape :
          word :: (tokens ++ (thenTokens ++ (inner ++ (others ++ [closing])))) =
            (word :: (tokens ++ (thenTokens ++ (inner ++ others)))) ++
              [closing] := by
        simp
      rw [shape]
      exact closes_concat _ closing' (by decide)
  | @whileLoop word closing before tokens after inner _ _ _ _ _ _ _ _ _
      closing' =>
      have shape :
          before ++ word :: (tokens ++ (after ++ (inner ++ [closing]))) =
            (before ++ word :: (tokens ++ (after ++ inner))) ++ [closing] := by
        simp
      rw [shape]
      exact closes_concat _ closing' (by decide)
  | @forLoop word sign toToken closing names firsts lasts steps inner again _ _
      _ _ _ _ _ _ _ _ _ _ _ closing' counters =>
      have shape :
          word :: (names ++ sign ::
            (firsts ++ toToken :: (lasts ++ (steps ++ (inner ++
              closing :: again))))) =
            (word :: (names ++ sign ::
              (firsts ++ toToken :: (lasts ++ (steps ++ inner))))) ++
              ([closing] ++ again) := by
        simp
      rw [shape]
      refine ⟨List.append_ne_nil_of_left_ne_nil (List.cons_ne_nil _ _) _, ?_⟩
      apply EndsClear.prepend _ (List.cons_ne_nil _ _)
      apply (endsClear_concat [] closing' (by decide)).append
      cases counters with
      | absent => exact endsClear_nil
      | present kind => exact endsClear_concat [] kind (by decide)

end

/-! ## Routines -/

/-- Statements end as the last of them does, or in a semicolon. -/
theorem Closes.statements
    {statement : Phrase Stmt}
    (closes : Closes statement)
    {tokens : List Token}
    {statements : List Stmt}
    (phrased : StatementsPhrase statement tokens statements) :
    EndsClear tokens := by
  induction phrased with
  | none => exact endsClear_nil
  | semicolon kind _ hypothesis =>
      exact (endsClear_concat [] kind (by decide)).append hypothesis
  | further head _ hypothesis => exact (closes head).2.append hypothesis

theorem closes_statement (levels : Nat) : Closes (StatementPhrase levels) := by
  cases levels with
  | zero => exact closes_statementForm (closes_expression 0) _
  | succ levels => exact closes_statementForm (closes_expression (levels + 1)) _

/-- A block ends clear, as the last of its statements does. -/
theorem endsClear_block
    {levels : Nat}
    {tokens : List Token}
    {body : Block}
    (phrased : BlockPhrase levels tokens body) :
    EndsClear tokens := by
  cases levels with
  | zero => exact phrased.elim
  | succ levels =>
      cases phrased with
      | block inside => exact (closes_statement levels).statements inside

theorem endsClear_parameters
    {tokens : List Token}
    {names : List Identifier}
    (phrased : ParametersPhrase tokens names) :
    EndsClear tokens := by
  cases phrased with
  | absent => exact endsClear_nil
  | present opens between closes =>
      exact endsClear_concat (_ :: _) closes (by decide)

/-- A routine ends in its closing word, in its body, or in its head. -/
theorem closes_routineForm
    {block : Phrase Block}
    (clear : ∀ tokens body, block tokens body → EndsClear tokens) :
    Closes (RoutineFormPhrase block) := by
  intro tokens routine phrased
  cases phrased with
  | @routine word before names tokens inner ending _ _ _ _ _ _ statics words
      named parameterized bodies ends =>
      refine ⟨List.append_ne_nil_of_right_ne_nil _ (List.cons_ne_nil _ _), ?_⟩
      have inside := clear _ _ bodies
      have ended := endsClear_optionalToken (by decide) ends
      have head := closes_name named
      have later :=
        head.2.append
          ((endsClear_parameters parameterized).append (inside.append ended))
      apply EndsClear.prepend _ (List.cons_ne_nil _ _)
      exact later.prepend (List.append_ne_nil_of_left_ne_nil head.1 _) [word]

end Clipper.Grammar
