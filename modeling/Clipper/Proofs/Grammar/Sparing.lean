import Clipper.Proofs.Grammar.CutShort
import Clipper.Proofs.Grammar.StatementSound
import Mathlib.Logic.Relation

/-!
# Moves that spare the frame of a program

The frame of a program are the words that begin a routine and the words that
close a compound statement.  A sparing move of a reading is no move that takes
the first token of a routine's head, or a token of certain spared kinds, or that
reports on them.  Recovering from an error spares all closing words, as it stops
before them.

Expressions, and everything else that stands inside a simple statement, move
like this whatever errors they run into: they leave the frame alone.  This is
said once for each rule, and what sparing moves keep, all these rules keep.
-/

namespace Clipper.Grammar

open Rule

/-- The kinds that are not spared and never begin the head of a routine. -/
def isFree
    (spared : TokenKind → Bool)
    (kind : TokenKind) :
    Bool :=
  !(spared kind || isRoutineWord kind || kind == .static)

/--
Whether a cause speaks of a word of certain
kinds that is missing or out of place.
-/
def Cause.concerns (spared : TokenKind → Bool) : Cause → Bool
  | unexpected found => spared found
  | unclosed closer _ => spared closer
  | _ => false

variable {spared : TokenKind → Bool}

namespace State

/-- The state at the next boundary. -/
def skipped (state : State) : State :=
  { state with
    rest := (skipToBoundary state.reached state.rest).2
    reached := (skipToBoundary state.reached state.rest).1
    recovering := true }

theorem recover_eq (state : State) :
    state.recover =
      if state.skipped.kind = .semicolon then state.skipped.advance
      else state.skipped :=
  rfl

theorem fail_of_recovering
    {state : State}
    (recovering : state.recovering = true)
    (cause : Cause) :
    state.fail cause = state := by
  rw [fail, if_pos recovering]

theorem fail_of_calm
    {state : State}
    (calm : state.recovering = false)
    (cause : Cause) :
    state.fail cause = (state.addHere cause).recover := by
  rw [fail, if_neg (Bool.eq_false_iff.mp calm)]

/--
One thing that a reading does to its state
while it spares the tokens of some kinds.
-/
inductive SparingMove (spared : TokenKind → Bool) : State → State → Prop where
  /-- A token is taken that is not spared and begins no routine. -/
  | advance
      (state : State)
      (notSpared : spared state.kind = false)
      (opensNothing : opensRoutine state.rest = false) :
      SparingMove spared state state.advance
  /-- A report is added that does not speak of a spared kind. -/
  | report
      (state : State)
      (report : Report)
      (unconcerned : report.cause.concerns spared = false) :
      SparingMove spared state (state.add report)
  /-- An error is reported, and tokens are skipped up to a boundary. -/
  | fail
      (state : State)
      (cause : Cause)
      (unconcerned : cause.concerns spared = false) :
      SparingMove spared state (state.fail cause)
  /-- The tokens ahead are dropped. -/
  | cutOff (state : State) : SparingMove spared state state.cutOff
  /-- Errors are reported again. -/
  | recovered (state : State) : SparingMove spared state
      { state with recovering := false }

/-- The states to which sparing moves lead from a state. -/
def Spares (spared : TokenKind → Bool) : State → State → Prop :=
  Relation.ReflTransGen (SparingMove spared)

/-- A sparing move is a move. -/
theorem SparingMove.move
    {before after : State}
    (move : SparingMove spared before after) :
    Move before after := by
  cases move with
  | advance => exact .advance before
  | report report => exact .report before report
  | fail cause => exact .fail before cause
  | cutOff => exact .cutOff before
  | recovered => exact .recovered before

/--
What every sparing move that does not cut the reading short keeps, a sequence of
them keeps when the reading is whole at its end.
-/
theorem Spares.keeps
    {invariant : State → Prop}
    (kept :
      ∀ before after, SparingMove spared before after → after.cutShort = false →
        invariant before → invariant after)
    {before after : State}
    (spares : Spares spared before after)
    (whole : after.cutShort = false)
    (holds : invariant before) :
    invariant after := by
  induction spares with
  | refl => exact holds
  | tail _ last hypothesis =>
      exact kept _ _ last whole (hypothesis (last.move.reaches.whole whole))

/-- To spare fewer kinds is easier. -/
theorem Spares.mono
    {fewer : TokenKind → Bool}
    (implies : ∀ kind, spared kind = false → fewer kind = false)
    {before after : State}
    (spares : Spares spared before after) :
    Spares fewer before after := by
  have unconcerned (cause : Cause) (holds : cause.concerns spared = false) :
      cause.concerns fewer = false := by
    cases cause with
    | unexpected | unclosed => exact implies _ holds
    | _ => rfl
  have sparing (first second : State) (move : SparingMove spared first second) :
      SparingMove fewer first second := by
    cases move with
    | advance notSpared opensNothing =>
        exact .advance first (implies _ notSpared) opensNothing
    | report report holds => exact .report first report (unconcerned _ holds)
    | fail cause holds => exact .fail first cause (unconcerned _ holds)
    | cutOff => exact .cutOff first
    | recovered => exact .recovered first
  exact Relation.ReflTransGen.mono sparing _ _ spares

/-- A token of a free kind may be taken, whatever comes after it. -/
theorem spares_advance
    {state : State}
    (free : isFree spared state.kind = true) :
    Spares spared state state.advance := by
  rw [isFree, Bool.not_eq_true', Bool.or_eq_false_iff, Bool.or_eq_false_iff]
    at free
  obtain ⟨⟨notSpared, noRoutine⟩, noStatic⟩ := free
  refine .single (.advance state notSpared ?_)
  rw [opensRoutine_rest, noRoutine, noStatic, Bool.false_and, Bool.false_or]

end State

namespace Rule

variable {α β : Type} {state : State}

/-- From this state, all moves of the rule are sparing. -/
def Spares
    (spared : TokenKind → Bool)
    (rule : Rule α)
    (state : State) :
    Prop :=
  state.Spares spared (rule.run state).2

theorem Spares.of_runs
    {rule : Rule α}
    {value : α}
    {next : State}
    (spares : rule.Spares spared state)
    (runs : Runs rule state value next) :
    state.Spares spared next := by
  rw [runs.next_eq]
  exact spares

theorem Spares.bind
    {rule : Rule α}
    {next : α → Rule β}
    (first : rule.Spares spared state)
    (second : (next (rule.run state).1).Spares spared (rule.run state).2) :
    (rule >>= next).Spares spared state :=
  first.trans second

theorem spares_pure (value : α) : (pure value : Rule α).Spares spared state :=
  .refl

/-- After a question, the rest of the rule runs from the same state. -/
theorem spares_ask_bind
    {question : State → α}
    {next : α → Rule β}
    (second : (next (question state)).Spares spared state) :
    (ask question >>= next).Spares spared state :=
  second

theorem spares_ite
    {condition : Prop}
    [Decidable condition]
    {first second : Rule α}
    (yes : condition → first.Spares spared state)
    (no : ¬ condition → second.Spares spared state) :
    (if condition then first else second).Spares spared state := by
  split
  · next holds => exact yes holds
  · next fails => exact no fails

theorem spares_advance (free : isFree spared state.kind = true) :
    advance.Spares spared state :=
  State.spares_advance free

/-- To take a token that may be absent spares the frame, if its kind is free. -/
theorem spares_eat
    {kind : TokenKind}
    (free : isFree spared kind = true) :
    (eat kind).Spares spared state := by
  rw [Spares, eat]
  dsimp only
  split
  · next same =>
      rw [← same] at free
      exact State.spares_advance free
  · exact .refl

theorem spares_fail
    {cause : Cause}
    (unconcerned : cause.concerns spared = false) :
    (fail cause).Spares spared state :=
  .single (.fail state cause unconcerned)

theorem spares_report
    {cause : Cause}
    {span : Span}
    (unconcerned : cause.concerns spared = false) :
    (report cause span).Spares spared state :=
  .single (.report state ⟨cause, span⟩ unconcerned)

theorem spares_reportHere
    {cause : Cause}
    (unconcerned : cause.concerns spared = false) :
    (reportHere cause).Spares spared state :=
  .single (.report state ⟨cause, state.current.span⟩ unconcerned)

theorem spares_cutOff : cutOff.Spares spared state :=
  .single (.cutOff state)

theorem spares_recovered : recovered.Spares spared state :=
  .single (.recovered state)

theorem spares_expect
    {kind : TokenKind}
    (free : isFree spared kind = true)
    (part : Part) :
    (expect kind part).Spares spared state :=
  (spares_eat free).bind
    (spares_ite (fun _ => spares_pure ()) (fun _ => spares_fail rfl))

theorem spares_expectName
    (free : isFree spared .identifier = true)
    (place : NamePlace) :
    (expectName place).Spares spared state := by
  refine spares_ask_bind (spares_ite (fun named => ?_) (fun _ => ?_))
  · have freeHere : isFree spared state.kind = true := by
      rw [State.kind, named, free]
    exact (spares_advance freeHere).bind (spares_pure _)
  · exact (spares_fail rfl).bind (spares_pure _)

theorem spares_optionalAfter
    {kind : TokenKind}
    (free : isFree spared kind = true)
    {rule : Rule α}
    (spares : ∀ state : State, rule.Spares spared state) :
    (optionalAfter kind rule).Spares spared state :=
  (spares_eat free).bind
    (spares_ite (fun _ => spares _) (fun _ => spares_pure none))

/-! ## Loops -/

/--
A loop spares the frame if its rounds do, and if each is opened by a
token of a free kind.
-/
theorem spares_many
    {open? : Token → Option (Rule α)}
    (opened :
      ∀ token rule, open? token = some rule →
        isFree spared token.kind = true ∧
        ∀ state : State, rule.Spares spared state) :
    (many open?).Spares spared state := by
  change state.Spares spared (runMany open? state).2
  fun_induction runMany open? state with
  | case1 | case2 | case3 => exact .refl
  | case4 state token rest ahead calm rule isOpened first shorter others
      hypothesis =>
      obtain ⟨free, spares⟩ := opened token rule isOpened
      rw [← State.kind_of_rest ahead] at free
      exact ((State.spares_advance free).trans (spares state.advance)).trans
        hypothesis

/-- A list spares the frame if its items do, as a comma is free. -/
theorem spares_separated
    (free : isFree spared .comma = true)
    {item : Rule α}
    (spares : ∀ state : State, item.Spares spared state) :
    (separated item).Spares spared state := by
  refine (spares state).bind ((spares_many ?_).bind (spares_pure _))
  intro token rule opened
  rw [afterComma?] at opened
  split at opened
  · next comma =>
      cases opened
      rw [comma]
      exact ⟨free, spares⟩
  · cases opened

/--
A part between two tokens spares the frame if the part does and the
closing token is free.
-/
theorem spares_enclosed
    (free : isFree spared .comma = true)
    {item : Rule α}
    (spares : ∀ state : State, item.Spares spared state)
    {closer : TokenKind}
    (freeCloser : isFree spared closer = true)
    (part : Part) :
    (enclosed item closer part).Spares spared state := by
  have items : (separatedUnless item closer).Spares spared state :=
    spares_ask_bind
      (spares_ite (fun _ => spares_pure [])
        (fun _ => spares_separated free spares))
  exact items.bind ((spares_expect freeCloser part).bind (spares_pure _))

/--
A loop over items may take a token of its own where
an item takes none, so this token must be free.
-/
theorem spares_sequence
    {closes : State → Bool}
    {item : Rule (Option α)}
    (round :
      ∀ state, closes state = false →
        item.Spares spared state ∧
          ((item.run state).2.rest = state.rest →
            (item.run state).2.Spares spared (item.run state).2.advance)) :
    (sequence closes item).Spares spared state := by
  change state.Spares spared (runSequence closes item state).2
  fun_induction runSequence closes item state with
  | case1 | case2 => exact .refl
  | case3 state ended opened first shorter others hypothesis =>
      obtain ⟨once, still⟩ := round state (Bool.eq_false_iff.mpr opened)
      have forwards : first.2.Spares spared (state.forward first.2) := by
        rw [State.forward]
        split
        · next same => exact still (eq_of_beq same)
        · exact .refl
      exact (once.trans forwards).trans hypothesis

/-- Inside a statement, a rule spares all closing words. -/
abbrev Inner
    (rule : Rule α)
    (state : State) :
    Prop :=
  rule.Spares TokenKind.isCloser state

end Rule

/-! ## Expressions -/

section Expressions

variable {state : State}

theorem inner_placeholderHere : placeholderHere.Inner state :=
  .refl

theorem inner_tooDeep : tooDeep.Inner state :=
  spares_cutOff.bind inner_placeholderHere

theorem inner_unlessRecovering
    {rule : Rule Expr}
    (inner : ∀ state : State, rule.Inner state) :
    (unlessRecovering rule).Inner state :=
  spares_ask_bind
    (spares_ite (fun _ => inner_placeholderHere) (fun _ => inner state))

variable {nested : Rule Expr}
    (innerNested : ∀ state : State, nested.Inner state)

include innerNested

theorem inner_message : (message nested).Inner state := by
  refine (spares_expectName rfl .colon).bind (spares_ask_bind ?_)
  refine spares_ite (fun _ => spares_pure _) (fun _ => (spares_eat rfl).bind ?_)
  refine spares_ite (fun _ => ?_) (fun _ => spares_pure _)
  exact (spares_enclosed rfl innerNested rfl .arguments).bind (spares_pure _)

/-- A suffix is opened by a token of a free kind, and spares the frame. -/
theorem inner_suffix?
    {token : Token}
    {rule : Rule Suffix}
    (opened : suffix? nested token = some rule) :
    isFree TokenKind.isCloser token.kind = true ∧
    ∀ state : State, rule.Inner state := by
  obtain ⟨form, formOpened, rfl⟩ := Option.map_eq_some_iff.mp opened
  suffices inner : isFree TokenKind.isCloser token.kind = true ∧
      ∀ state : State, form.Inner state from
    ⟨inner.1, fun state =>
      (inner.2 state).bind (spares_ask_bind (spares_pure _))⟩
  unfold suffixForm? at formOpened
  split at formOpened
  · next kind =>
      cases formOpened
      rw [kind]
      exact ⟨rfl, fun _ =>
        (spares_enclosed rfl innerNested rfl .arguments).bind (spares_pure _)⟩
  · next kind =>
      cases formOpened
      rw [kind]
      exact ⟨rfl, fun state =>
        (innerNested state).bind
          ((spares_expect rfl .index).bind (spares_pure _))⟩
  · next kind =>
      cases formOpened
      rw [kind]
      exact ⟨rfl, fun _ => inner_message innerNested⟩
  · next kind =>
      cases formOpened
      rw [kind]
      exact ⟨rfl, fun _ => (spares_expectName rfl .arrow).bind (spares_pure _)⟩
  · cases formOpened

theorem inner_parenthesized (opens : state.kind = .leftParenthesis) :
    (parenthesized nested).Inner state := by
  have inner : isFree TokenKind.isCloser state.kind = true := by rw [opens]; rfl
  refine (spares_advance inner).bind ((innerNested _).bind ?_)
  exact (spares_expect rfl .expression).bind (spares_ask_bind (spares_pure _))

theorem inner_arrayLiteral (opens : state.kind = .leftBrace) :
    (arrayLiteral nested).Inner state := by
  have inner : isFree TokenKind.isCloser state.kind = true := by rw [opens]; rfl
  refine (spares_advance inner).bind ?_
  exact (spares_enclosed rfl innerNested rfl .arrayElements).bind
    (spares_ask_bind (spares_pure _))

/-- A code block spares the frame. -/
theorem inner_codeBlock
    (opens : state.kind = .leftBrace)
    (bar : state.secondKind = .bar) :
    (codeBlock nested).Inner state := by
  have inner : isFree TokenKind.isCloser state.kind = true := by rw [opens]; rfl
  have innerBar : isFree TokenKind.isCloser state.advance.kind = true := by
    rw [State.kind_advance, bar]; rfl
  refine (spares_advance inner).bind (Spares.bind (spares_advance innerBar) ?_)
  refine (spares_enclosed rfl (fun _ => spares_expectName rfl .bar)
    rfl .codeBlockParameters).bind ?_
  exact (spares_enclosed rfl innerNested rfl .codeBlock).bind
    (spares_ask_bind (spares_pure _))

omit innerNested in
theorem inner_invalidToken (faulty : state.kind = .error) :
    invalidToken.Inner state := by
  refine spares_ask_bind ((spares_reportHere rfl).bind ?_)
  have inner : isFree TokenKind.isCloser
      (state.addHere (.invalidToken state.current.lexeme)).kind = true := by
    change isFree TokenKind.isCloser state.kind = true
    rw [faulty]
    rfl
  exact Spares.bind (spares_advance inner) (spares_pure _)

omit innerNested in
theorem inner_noExpression : noExpression.Inner state :=
  spares_ask_bind ((spares_fail rfl).bind (spares_pure _))

omit innerNested in
/-- No literal is a closing word. -/
theorem isFree_of_literal?
    {token : Token}
    {value : Literal}
    (isLiteral : literal? token = some value) :
    isFree TokenKind.isCloser token.kind = true := by
  unfold literal? at isLiteral
  split at isLiteral
  case h_6 => cases isLiteral
  all_goals
    next kind =>
      rw [kind]
      rfl

/--
A primary spares the frame.  A closing word that stands in its place is
reported and left there.
-/
theorem inner_primary : (primary nested).Inner state := by
  refine spares_ask_bind ?_
  split
  · next isLiteral =>
      have inner : isFree TokenKind.isCloser state.kind = true :=
        isFree_of_literal? isLiteral
      exact (spares_advance inner).bind (spares_pure _)
  · split
    · next named =>
        have inner : isFree TokenKind.isCloser state.kind = true := by
          rw [State.kind, named]; rfl
        exact (spares_advance inner).bind (spares_pure _)
    · next opens => exact inner_parenthesized innerNested opens
    · next opens =>
        refine spares_ask_bind (spares_ite (fun bar => ?_) (fun _ => ?_))
        · exact inner_codeBlock innerNested opens bar
        · exact inner_arrayLiteral innerNested opens
    · next faulty => exact inner_invalidToken faulty
    · exact inner_noExpression

theorem inner_suffixed : (suffixed nested).Inner state :=
  (inner_primary innerNested).bind
    ((spares_many fun _ _ => inner_suffix? innerNested).bind (spares_pure _))

end Expressions

theorem isFree_of_binaryOperator
    {kind : TokenKind}
    {operator : BinaryOperator}
    (isOperator : BinaryOperator.ofKind? kind = some operator) :
    isFree TokenKind.isCloser kind = true := by
  unfold BinaryOperator.ofKind? at isOperator
  split at isOperator
  case h_16 => cases isOperator
  all_goals rfl

theorem isFree_of_unaryOperator
    {kind : TokenKind}
    {operator : UnaryOperator}
    (isOperator : UnaryOperator.ofKind? kind = some operator) :
    isFree TokenKind.isCloser kind = true := by
  unfold UnaryOperator.ofKind? at isOperator
  split at isOperator
  case h_4 => cases isOperator
  all_goals rfl

section Operators

variable {operand : Rule Expr}
    (innerOperand : ∀ state : State, operand.Inner state)

include innerOperand

theorem inner_prefixed
    {state : State}
    {operator : UnaryOperator}
    (opens : UnaryOperator.ofKind? state.kind = some operator) :
    (prefixed operand operator).Inner state := by
  refine (spares_advance (isFree_of_unaryOperator opens)).bind ?_
  exact (innerOperand _).bind (spares_ask_bind (spares_pure _))

/-- A chain of one level spares the frame, if its operands do. -/
theorem inner_chain
    (level : Nat)
    (state : State) :
    (chain level operand).Inner state := by
  refine (innerOperand state).bind ((spares_many ?_).bind (spares_pure _))
  intro token rule opened
  rw [rightOperand?] at opened
  split at opened
  · next operator isOperator =>
      split at opened
      · cases opened
        exact ⟨isFree_of_binaryOperator isOperator,
          fun state => (innerOperand state).bind (spares_pure _)⟩
      · cases opened
  · cases opened

theorem inner_binary (state : State) : (binary operand).Inner state := by
  rw [binary]
  exact inner_chain
    (inner_chain (inner_chain (inner_chain (inner_chain (inner_chain
      innerOperand 6) 5) 4) 3) 2) 1 state

end Operators

/--
An operand spares the frame, with any number of levels left.  To cut the
reading short counts as sparing.
-/
theorem inner_operand
    (levels : Nat)
    (state : State) :
    (operand levels).Inner state := by
  induction levels generalizing state with
  | zero =>
      refine spares_ask_bind ?_
      split
      · exact inner_tooDeep
      · exact inner_suffixed fun _ => inner_unlessRecovering fun _ =>
          inner_tooDeep
  | succ levels hypothesis =>
      refine spares_ask_bind ?_
      split
      · next opens => exact inner_prefixed hypothesis opens
      · exact inner_suffixed fun _ =>
          inner_unlessRecovering (inner_binary hypothesis)

/-- Reading an expression leaves the frame of the program alone. -/
theorem inner_expression
    (levels : Nat)
    (state : State) :
    (expression levels).Inner state := by
  cases levels with
  | zero => exact inner_unlessRecovering fun _ => inner_tooDeep
  | succ levels =>
      exact inner_unlessRecovering (inner_binary (inner_operand levels))

/-! ## Simple statements -/

section Statements

variable {state : State}

theorem inner_loopControl (words : state.kind = .exit ∨ state.kind = .loop) :
    loopControl.Inner state := by
  have inner : isFree TokenKind.isCloser state.kind = true := by
    rcases words with word | word
    · rw [word]; rfl
    · rw [word]; rfl
  exact (spares_advance inner).bind (spares_pure _)

theorem inner_standalone
    (start : Nat)
    (value : Expr) :
    (standalone start value).Inner state :=
  spares_ask_bind (spares_pure _)

variable {expression : Rule Expr}
    (innerExpression : ∀ state : State, expression.Inner state)

include innerExpression

theorem inner_binding (place : NamePlace) :
    (binding expression place).Inner state := by
  refine (spares_expectName rfl place).bind ((spares_eat rfl).bind ?_)
  refine spares_ite (fun _ => ?_) (fun _ => spares_pure _)
  exact (innerExpression _).bind (spares_pure _)

/--
A declaration spares the frame: its word is `LOCAL`, or a `STATIC`
that opens no routine.
-/
theorem inner_declaration
    (words : state.kind = .localWord ∨ state.kind = .static)
    (opensNothing : opensRoutine state.rest = false) :
    (declaration expression).Inner state := by
  have closesNothing : state.kind.isCloser = false := by
    rcases words with word | word
    · rw [word]; rfl
    · rw [word]; rfl
  have taken : advance.Inner state :=
    .single (.advance state closesNothing opensNothing)
  refine taken.bind
    ((spares_separated rfl fun _ => inner_binding innerExpression _).bind ?_)
  exact spares_ask_bind (spares_pure _)

theorem inner_resultStatement (word : state.kind = .returnWord) :
    (resultStatement expression).Inner state := by
  have inner : isFree TokenKind.isCloser state.kind = true := by rw [word]; rfl
  refine (spares_advance inner).bind
    (spares_ask_bind (spares_ite (fun _ => ?_) (fun _ => ?_)))
  · exact (innerExpression _).bind (spares_ask_bind (spares_pure _))
  · exact spares_ask_bind (spares_pure _)

/-- A statement that prints spares the frame. -/
theorem inner_printStatement
    (words : state.kind = .question ∨ state.kind = .doubleQuestion) :
    (printStatement expression).Inner state := by
  have inner : isFree TokenKind.isCloser state.kind = true := by
    rcases words with word | word
    · rw [word]; rfl
    · rw [word]; rfl
  refine (spares_advance inner).bind
    (Spares.bind (spares_ask_bind ?_) (spares_ask_bind (spares_pure _)))
  exact spares_ite (fun _ => spares_separated rfl innerExpression)
    (fun _ => spares_pure [])

omit innerExpression in
/-- No sign of an assignment is a closing word. -/
theorem isFree_of_assignment
    {kind : TokenKind}
    {form : AssignmentForm}
    (signs : AssignmentForm.ofKind? kind = some form) :
    isFree TokenKind.isCloser kind = true := by
  rw [AssignmentForm.ofKind?] at signs
  split at signs
  · next operator updates =>
      unfold UpdateOperator.ofKind? at updates
      split at updates
      case h_5 => cases updates
      all_goals rfl
  · split at signs
    · next assigns =>
        rw [assigns]
        rfl
    · cases signs

/-- An assignment spares the frame. -/
theorem inner_assignment
    {start : Nat}
    {target : Expr}
    {form : AssignmentForm}
    (signs : AssignmentForm.ofKind? state.kind = some form) :
    (assignment expression start target form).Inner state := by
  have inner := isFree_of_assignment signs
  have checked : (checkTarget target).Inner state :=
    spares_ite (fun _ => spares_pure ()) (fun _ => spares_report rfl)
  have same : ((checkTarget target).run state).2.kind = state.kind := by
    rw [checkTarget]
    split <;> rfl
  rw [← same] at inner
  refine checked.bind
    ((spares_advance inner).bind ((innerExpression _).bind ?_))
  exact spares_ask_bind (spares_pure _)

theorem inner_expressionStatement :
    (expressionStatement expression).Inner state := by
  refine spares_ask_bind ((innerExpression state).bind (spares_ask_bind ?_))
  refine spares_ite (fun _ => inner_standalone _ _)
    (fun _ => spares_ask_bind ?_)
  split
  · exact inner_standalone _ _
  · next signs => exact inner_assignment innerExpression signs

omit innerExpression in
theorem inner_terminated
    {rule : Rule Stmt}
    (inner : rule.Inner state) :
    (terminated rule).Inner state :=
  inner.bind ((spares_eat rfl).bind (spares_pure _))

end Statements

end Clipper.Grammar
