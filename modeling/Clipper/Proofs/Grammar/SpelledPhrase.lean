import Clipper.Proofs.Grammar.StatementPhrase
import Clipper.Proofs.Lexeme.PieceBounds

/-!
# Phrases are spelled out

Every token of a phrase is of a kind that is spelled: no phrase of the grammar
has a place for a piece with a fault or for the end of a text.  The statements
follow the constructors of the phrases; a phrase that is made from others passes
on what holds of their tokens.

A text without an open comment and with no faults is needed to re-read the
text under a span; this is where it comes from.  If a part of the tokens is a
phrase, none of them is an error token, so the pieces of the text that they
come from have no fault.  The end of a text is no part of a phrase either,
which is why a phrase can be followed by more.
-/

namespace Clipper.Grammar

open Lexeme

variable {α : Type}

/-- All tokens are of kinds that are spelled. -/
def AllSpelled (tokens : List Token) : Prop :=
  ∀ token ∈ tokens, IsSpelled token.kind

@[simp]
theorem allSpelled_nil : AllSpelled [] :=
  List.forall_mem_nil _

@[simp]
theorem allSpelled_cons
    {token : Token}
    {tokens : List Token} :
    AllSpelled (token :: tokens) ↔ IsSpelled token.kind ∧ AllSpelled tokens :=
  List.forall_mem_cons

@[simp]
theorem allSpelled_append {first second : List Token} :
    AllSpelled (first ++ second) ↔ AllSpelled first ∧ AllSpelled second :=
  List.forall_mem_append

/-- Whatever tokens the phrase has, they are of kinds that are spelled. -/
def Spelled (phrase : Phrase α) : Prop :=
  ∀ tokens value, phrase tokens value → AllSpelled tokens

theorem Spelled.all
    {phrase : Phrase α}
    (spelled : Spelled phrase)
    {tokens : List Token}
    {value : α}
    (phrased : phrase tokens value) :
    AllSpelled tokens :=
  spelled tokens value phrased

theorem spelled_never : Spelled (Phrase.never : Phrase α) :=
  fun _ _ impossible => impossible.elim

theorem spelled_name : Spelled NamePhrase := by
  intro tokens name phrased
  cases phrased with
  | name kind => simp [kind, IsSpelled]

/-! ## Lists -/

theorem Spelled.separated
    {item : Phrase α}
    (spelled : Spelled item) :
    Spelled (SeparatedPhrase item) := by
  intro tokens values phrased
  induction phrased with
  | single only => exact spelled.all only
  | further first separator rest hypothesis =>
      simp [separator, IsSpelled, spelled.all first, hypothesis]

theorem Spelled.list
    {item : Phrase α}
    (spelled : Spelled item) :
    Spelled (ListPhrase item) := by
  intro tokens values phrased
  cases phrased with
  | none => exact allSpelled_nil
  | some items => exact spelled.separated.all items

/--
An optional part is spelled, if the word that announces it is and the part is.
-/
theorem Spelled.optional
    {word : TokenKind}
    (isSpelled : IsSpelled word)
    {part : Phrase α}
    (spelled : Spelled part) :
    Spelled (OptionalPhrase word part) := by
  intro tokens value? phrased
  cases phrased with
  | absent => exact allSpelled_nil
  | present kind after =>
      exact allSpelled_cons.mpr ⟨kind ▸ isSpelled, spelled.all after⟩

theorem spelled_optionalToken
    {kinds : List TokenKind}
    (areSpelled : ∀ kind ∈ kinds, IsSpelled kind) :
    Spelled (OptionalToken kinds) := by
  intro tokens present phrased
  cases phrased with
  | absent => exact allSpelled_nil
  | present kind =>
      exact allSpelled_cons.mpr ⟨areSpelled _ kind, allSpelled_nil⟩

/-! ## Expressions -/

/-- A literal is spelled. -/
theorem isSpelled_of_literal
    {token : Token}
    {value : Literal}
    (isLiteral : literal? token = some value) :
    IsSpelled token.kind := by
  unfold literal? at isLiteral
  split at isLiteral
  case h_6 => cases isLiteral
  all_goals
    next kind =>
      rw [kind]
      decide

/-- A binary operator is spelled. -/
theorem isSpelled_of_binaryOperator
    {kind : TokenKind}
    {operator : BinaryOperator}
    (signs : BinaryOperator.ofKind? kind = some operator) :
    IsSpelled kind := by
  constructor
  · rintro rfl
    cases signs
  · rintro rfl
    cases signs

/-- A prefix operator is spelled. -/
theorem isSpelled_of_unaryOperator
    {kind : TokenKind}
    {operator : UnaryOperator}
    (signs : UnaryOperator.ofKind? kind = some operator) :
    IsSpelled kind := by
  constructor
  · rintro rfl
    cases signs
  · rintro rfl
    cases signs

section

variable {nested : Phrase Expr} (spelled : Spelled nested)

include spelled

/-- All tokens of a primary are spelled. -/
theorem spelled_primary : Spelled (PrimaryPhrase nested) := by
  intro tokens tree phrased
  cases phrased with
  | literal kind => simp [isSpelled_of_literal kind]
  | name name => exact spelled_name.all name
  | parenthesized opens between closes =>
      simp [opens, closes, IsSpelled, spelled.all between]
  | array opens between closes =>
      simp [opens, closes, IsSpelled, spelled.list.all between]
  | codeBlock opens firstBars between secondBars after closes =>
      simp [opens, firstBars, secondBars, closes, IsSpelled,
        spelled_name.list.all between, spelled.list.all after]

/-- All tokens of a primary with suffixes are spelled. -/
theorem spelled_suffixed : Spelled (SuffixedPhrase nested) := by
  intro tokens tree phrased
  induction phrased with
  | primary primary => exact (spelled_primary spelled).all primary
  | call first noMessage opens between closes span hypothesis =>
      simp [hypothesis, opens, closes, IsSpelled, spelled.list.all between]
  | index first opens between closes span hypothesis =>
      simp [hypothesis, opens, closes, IsSpelled, spelled.all between]
  | property first colons names span hypothesis =>
      simp [hypothesis, colons, IsSpelled, spelled_name.all names]
  | send first colons names opens between closes span hypothesis =>
      simp [hypothesis, colons, opens, closes, IsSpelled,
        spelled_name.all names, spelled.list.all between]
  | field first arrows names span hypothesis =>
      simp [hypothesis, arrows, IsSpelled, spelled_name.all names]

theorem Spelled.chain (level : Nat) : Spelled (ChainPhrase level nested) := by
  intro tokens tree phrased
  induction phrased with
  | operand only => exact spelled.all only
  | join first signs binds last span hypothesis =>
      simp [hypothesis, isSpelled_of_binaryOperator signs, spelled.all last]

theorem Spelled.binary : Spelled (BinaryPhrase nested) :=
  (((((spelled.chain 6).chain 5).chain 4).chain 3).chain 2).chain 1

theorem spelled_prefixed
    {deeper : Phrase Expr}
    (spelledDeeper : Spelled deeper) :
    Spelled (PrefixedPhrase deeper nested) := by
  intro tokens tree phrased
  cases phrased with
  | operator signs after =>
      simp [isSpelled_of_unaryOperator signs, spelledDeeper.all after]
  | suffixed suffixed => exact (spelled_suffixed spelled).all suffixed

end

theorem spelled_operand (levels : Nat) : Spelled (OperandPhrase levels) := by
  induction levels with
  | zero => exact spelled_prefixed spelled_never spelled_never
  | succ levels hypothesis =>
      exact spelled_prefixed hypothesis.binary hypothesis

theorem spelled_expression (levels : Nat) :
    Spelled (ExpressionPhrase levels) := by
  cases levels with
  | zero => exact spelled_never
  | succ levels => exact (spelled_operand levels).binary

/-! ## Statements -/

theorem isSpelled_of_counterSign
    {kind : TokenKind}
    (signs : kind = .assign ∨ kind = .equal) :
    IsSpelled kind := by
  rcases signs with rfl | rfl
  · decide
  · decide

theorem spelled_counterAgain
    {counter : Identifier}
    {tokens : List Token}
    (phrased : CounterAgain counter tokens) :
    AllSpelled tokens := by
  cases phrased with
  | absent => exact allSpelled_nil
  | present kind => simp [kind, IsSpelled]

/-- The sign of an updating assignment is spelled. -/
theorem isSpelled_of_updateOperator
    {kind : TokenKind}
    {operator : UpdateOperator}
    (signs : UpdateOperator.ofKind? kind = some operator) :
    IsSpelled kind := by
  constructor
  · rintro rfl
    cases signs
  · rintro rfl
    cases signs

section

variable {expression : Phrase Expr} (spelled : Spelled expression)

include spelled

theorem spelled_binding : Spelled (BindingPhrase expression) := by
  intro tokens binding phrased
  cases phrased with
  | binding named after =>
      simp [spelled_name.all named, (spelled.optional (by decide)).all after]

/-- All tokens of a simple statement are spelled. -/
theorem spelled_simple : Spelled (SimplePhrase expression) := by
  intro tokens statement phrased
  cases phrased with
  | @declaration _ _ storage _ words after =>
      refine allSpelled_cons.mpr
        ⟨?_, (spelled_binding spelled).separated.all after⟩
      rw [words]
      cases storage with
      | perCall | static => decide
  | returns words | exit words | loop words => simp [words, IsSpelled]
  | returnsValue words after => simp [words, IsSpelled, spelled.all after]
  | printLine words after | print words after =>
      simp [words, IsSpelled, spelled.list.all after]
  | expression only => exact spelled.all only
  | assign first assignable signs last =>
      simp [signs, IsSpelled, spelled.all first, spelled.all last]
  | update first assignable signs last =>
      simp [isSpelled_of_updateOperator signs, spelled.all first,
        spelled.all last]

variable {block : Phrase Block} (spelledBlock : Spelled block)

include spelledBlock

theorem spelled_alternative : Spelled (AlternativePhrase expression block) := by
  intro tokens negative? phrased
  induction phrased with
  | nothing => exact allSpelled_nil
  | otherwise words after => simp [words, IsSpelled, spelledBlock.all after]
  | further words conditions thens positives _ span blockSpan hypothesis =>
      simp [words, IsSpelled, spelled.all conditions,
        (spelled_optionalToken (by decide)).all thens,
        spelledBlock.all positives, hypothesis]

/--
All tokens of a statement are spelled, given that those of its blocks are.
-/
theorem spelled_statementForm :
    Spelled (StatementFormPhrase expression block) := by
  intro tokens statement phrased
  cases phrased with
  | simple simple ends =>
      simp [(spelled_simple spelled).all simple,
        (spelled_optionalToken (by decide)).all ends]
  | conditional words conditions thens positives alternatives closes =>
      simp [words, closes, IsSpelled, spelled.all conditions,
        (spelled_optionalToken (by decide)).all thens,
        spelledBlock.all positives,
        (spelled_alternative spelled spelledBlock).all alternatives]
  | whileLoop dosBefore words conditions dosAfter bodies closes =>
      simp [words, closes, IsSpelled,
        (spelled_optionalToken (by decide)).all dosBefore,
        spelled.all conditions, (spelled_optionalToken (by decide)).all
          dosAfter, spelledBlock.all bodies]
  | forLoop words named signs begins tos ends stepped bodies closes counters =>
      have sign := isSpelled_of_counterSign signs
      simp [words, tos, closes, IsSpelled, spelled_name.all named,
        sign.1, sign.2, spelled.all begins, spelled.all ends,
        (spelled.optional (by decide)).all stepped, spelledBlock.all bodies,
        spelled_counterAgain counters]

end

theorem spelled_parameters : Spelled ParametersPhrase := by
  intro tokens parameters phrased
  cases phrased with
  | absent => exact allSpelled_nil
  | present opens between closes =>
      simp [opens, closes, IsSpelled, spelled_name.list.all between]

/-- All tokens of a routine are spelled, given that those of its body are. -/
theorem spelled_routineForm
    {block : Phrase Block}
    (spelled : Spelled block) :
    Spelled (RoutineFormPhrase block) := by
  intro tokens statement phrased
  cases phrased with
  | @routine _ _ _ _ _ _ kind _ _ _ _ _ statics words named parameterized bodies
      ends =>
      have word : IsSpelled (routineWord kind) := by
        cases kind with
        | function | procedure => decide
      simp [words, word, (spelled_optionalToken (by decide)).all statics,
        spelled_name.all named, spelled_parameters.all parameterized,
        spelled.all bodies, (spelled_optionalToken (by decide)).all ends]

/-! ## Blocks and programs -/

theorem Spelled.statements
    {statement : Phrase Stmt}
    (spelled : Spelled statement) :
    Spelled (StatementsPhrase statement) := by
  intro tokens statements phrased
  induction phrased with
  | none => exact allSpelled_nil
  | semicolon kind rest hypothesis => simp [kind, IsSpelled, hypothesis]
  | further head rest hypothesis => simp [spelled.all head, hypothesis]

theorem Spelled.block
    {statement : Phrase Stmt}
    (spelled : Spelled statement) :
    Spelled (BlockFormPhrase statement) := by
  intro tokens block phrased
  cases phrased with
  | block inside => exact spelled.statements.all inside

theorem spelled_statement (levels : Nat) :
    Spelled (StatementPhrase levels) := by
  induction levels with
  | zero => exact spelled_statementForm (spelled_expression 0) spelled_never
  | succ levels hypothesis =>
      exact spelled_statementForm (spelled_expression (levels + 1))
        hypothesis.block

theorem spelled_block (levels : Nat) : Spelled (BlockPhrase levels) := by
  cases levels with
  | zero => exact spelled_never
  | succ levels => exact (spelled_statement levels).block

end Clipper.Grammar
