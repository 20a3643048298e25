import Clipper.Proofs.Grammar.Closers
import Clipper.Proofs.Grammar.StatementPhrase
import Clipper.Proofs.Listing.ExpressionReading

/-!
# Simple statements are read

The rule for each form of a simple statement takes the tokens of a phrase of
this form and reads the statement, up to places, wherever the token after the
phrase does not go on with it.

A simple statement has no closing word, so it is the next token that ends it.
Which tokens go on with a statement depends on its form: an expression may go
on with an operator, a suffix or an assignment, a declared name with its first
value, and a returned value may be missing only where none could begin.
`StopsBefore` says this once for all forms, and a semicolon or a closing word
satisfies it.
-/

namespace Clipper

open Grammar Rule
open Relabelled (relabel)

/-- The form of a statement. -/
def Stmt.form : Stmt → StatementForm
  | .expression .. | .assign .. | .update .. => .expression
  | .print .. => .print
  | .declare .. => .declaration
  | .result .. => .result
  | .conditional .. => .conditional
  | .whileLoop .. => .whileLoop
  | .forLoop .. => .forLoop
  | .routine .. => .routine
  | .exit _ | .loop _ => .control

theorem Stmt.form_ne_strayCloser (statement : Stmt) :
    statement.form ≠ .strayCloser := by
  cases statement <;> exact StatementForm.noConfusion

theorem Stmt.form_ne_routine
    {statement : Stmt}
    (notRoutine : statement.isRoutine = false) :
    statement.form ≠ .routine := by
  cases statement with
  | routine => cases notRoutine
  | _ => exact StatementForm.noConfusion

theorem form_of_opensExpression
    {state : State}
    (opens : opensExpression state.kind = true) :
    StatementForm.of state = .expression := by
  rw [StatementForm.of]
  cases kind : state.kind with
  | _ =>
      first
      | rfl
      | rw [kind] at opens; cases opens

/--
Before a statement that is neither a closing word nor a routine,
a block does not end.
-/
theorem endsBlock_eq_false
    {closers : List TokenKind}
    (areClosers : ∀ kind ∈ closers, kind.isCloser = true)
    {state : State}
    (notStray : StatementForm.of state ≠ .strayCloser)
    (notRoutine : StatementForm.of state ≠ .routine) :
    endsBlock closers state = false := by
  rw [endsBlock, Bool.or_eq_false_iff]
  constructor
  · rw [Bool.eq_false_iff]
    intro closes
    exact notStray
      (form_eq_strayCloser (areClosers _ (List.contains_iff_mem.mp closes)))
  · rw [Bool.eq_false_iff]
    exact fun opens => notRoutine (form_eq_routine opens)

/--
A simple statement is over before a token of
this kind, unless the token is its semicolon.
-/
def Stmt.StopsBefore (kind : TokenKind) : Stmt → Prop
  | .exit _ | .loop _ => True
  | .result none _ | .print _ [] _ => opensExpression kind = false
  | _ => Stops 1 kind ∧ AssignmentForm.ofKind? kind = none ∧ kind ≠ .comma

/-- A semicolon goes on with nothing. -/
theorem Stmt.stopsBefore_semicolon (statement : Stmt) :
    statement.StopsBefore .semicolon := by
  have past : Stops 1 .semicolon ∧ AssignmentForm.ofKind? .semicolon = none ∧
      TokenKind.semicolon ≠ .comma :=
    ⟨stops_of_delimiter rfl rfl 1, rfl, TokenKind.noConfusion⟩
  cases statement with
  | print _ values =>
      cases values with
      | nil => rfl
      | cons => exact past
  | result value? =>
      cases value? with
      | none => rfl
      | some => exact past
  | exit | loop => trivial
  | _ => exact past

namespace Grammar

section

variable {levels : Nat} {tokens after : List Token}

/-! ## Declarations -/

/--
A declared name is read, with its first value or without, if no sign of an
assignment comes next.
-/
theorem complete_binding
    (levels : Nat)
    (place : NamePlace) :
    Complete (binding (expression levels) place)
      (BindingPhrase (ExpressionPhrase levels))
      (fun kind => Stops 1 kind ∧ kind ≠ .assign) (relabel .blind) := by
  refine complete_of_takes fun tokens after declared phrased stops => ?_
  cases phrased with
  | binding named after' span =>
      cases named with
      | name kind nameSpan =>
          rw [List.singleton_append]
          refine takes_expectName_bind kind ?_
          cases after' with
          | absent =>
              exact takes_eat_bind_of_ne stops.2 (takes_pure rfl)
          | present signs value =>
              refine takes_eat_bind signs ?_
              refine ((complete_expression_blind levels).takes value
                stops.1).bind_last ?_
              intro result alike
              exact takes_pure
                (congrArg (Binding.mk _ · (Span.empty 0)) (congrArg some alike))

/--
A declaration is taken: its word, and the declared names with
commas between them.
-/
theorem takes_declaration
    {word : Token}
    {storage : Storage}
    {bindings : List Binding}
    (words : word.kind = storageWord storage)
    (phrased : SeparatedPhrase (BindingPhrase (ExpressionPhrase levels))
      tokens bindings)
    (span : Span)
    (stops : (Stmt.declare storage bindings span).StopsBefore
      (headKind after)) :
    Takes (declaration (expression levels)) (word :: tokens) after
      (Alike (.declare storage bindings span)) := by
  have noAssign : headKind after ≠ .assign := by
    intro isAssign
    have noForm := stops.2.1
    rw [isAssign] at noForm
    cases noForm
  have takes (place : NamePlace) :=
    ((complete_binding levels place).separated
      ⟨stops_of_delimiter rfl rfl 1, by decide⟩).takes
      phrased ⟨⟨stops.1, noAssign⟩, stops.2.2⟩
  refine takes_advance_bind ((takes _).bind_last fun results alike => ?_)
  refine takes_spanFrom_bind fun _ => takes_pure ?_
  rw [words]
  cases storage with
  | perCall => exact congrArg (Stmt.declare .perCall · (Span.empty 0)) alike
  | static => exact congrArg (Stmt.declare .static · (Span.empty 0)) alike

/-! ## Results and loops -/

theorem takes_result_none
    (word : Token)
    (span : Span)
    (stops : (Stmt.result none span).StopsBefore (headKind after)) :
    Takes (resultStatement (expression levels)) [word] after
      (Alike (.result none span)) := by
  refine takes_advance_bind (takes_askKind_bind ?_)
  rw [List.nil_append, stops]
  exact takes_spanFrom_bind fun _ => takes_pure rfl

/--
A statement that returns a value is taken, if the value is not
prolonged by what comes next.
-/
theorem takes_result_some
    {value : Expr}
    (word : Token)
    (phrased : ExpressionPhrase levels tokens value)
    (span : Span)
    (stops : (Stmt.result (some value) span).StopsBefore (headKind after)) :
    Takes (resultStatement (expression levels)) (word :: tokens) after
      (Alike (.result (some value) span)) := by
  obtain ⟨nonempty, opens⟩ := begins_expression levels _ _ phrased
  refine takes_advance_bind (takes_askKind_bind ?_)
  rw [headKind_append nonempty, opens]
  refine ((complete_expression_blind levels).takes phrased stops.1).bind_last
    fun result alike => ?_
  exact takes_spanFrom_bind fun _ =>
    takes_pure (congrArg (Stmt.result · (Span.empty 0)) (congrArg some alike))

/--
The values of a statement that prints are taken.  There may be none, and then
nothing may come next with which a value begins.
-/
theorem takes_printedValues
    {newLine : Bool}
    {values : List Expr}
    (phrased : ListPhrase (ExpressionPhrase levels) tokens values)
    (span : Span)
    (stops : (Stmt.print newLine values span).StopsBefore (headKind after)) :
    Takes (printedValues (expression levels)) tokens after (Alike values) := by
  refine takes_askKind_bind ?_
  cases phrased with
  | none =>
      rw [List.nil_append, stops]
      exact takes_pure rfl
  | some items =>
      obtain ⟨nonempty, opens⟩ := (begins_expression levels).separated _ _ items
      have past : Stops 1 (headKind after) ∧ headKind after ≠ .comma := by
        cases items with
        | single | further => exact ⟨stops.1, stops.2.2⟩
      rw [headKind_append nonempty, opens]
      exact ((complete_expression_blind levels).separated
        (stops_of_delimiter rfl rfl 1)).takes
        items past

/-- A statement that prints is taken: its sign, and its values. -/
theorem takes_print
    {word : Token}
    {newLine : Bool}
    {values : List Expr}
    (words : word.kind = if newLine then .question else .doubleQuestion)
    (phrased : ListPhrase (ExpressionPhrase levels) tokens values)
    (span : Span)
    (stops : (Stmt.print newLine values span).StopsBefore (headKind after)) :
    Takes (printStatement (expression levels)) (word :: tokens) after
      (Alike (.print newLine values span)) := by
  refine takes_advance_bind
    ((takes_printedValues phrased span stops).bind_last ?_)
  refine fun results alike => takes_spanFrom_bind fun _ => takes_pure ?_
  rw [words]
  cases newLine with
  | true => exact congrArg (Stmt.print true · (Span.empty 0)) alike
  | false => exact congrArg (Stmt.print false · (Span.empty 0)) alike

theorem takes_exit
    {word : Token}
    (words : word.kind = .exit)
    (span : Span) :
    Takes loopControl [word] after (Alike (.exit span)) := by
  refine takes_advance_bind (takes_pure ?_)
  rw [words]
  rfl

theorem takes_loop
    {word : Token}
    (words : word.kind = .loop)
    (span : Span) :
    Takes loopControl [word] after (Alike (.loop span)) := by
  refine takes_advance_bind (takes_pure ?_)
  rw [words]
  rfl

/-! ## Expressions and assignments -/

/--
An expression that stands as a statement is taken, if no sign of an
assignment comes next.
-/
theorem takes_expressionStatement
    {value : Expr}
    (phrased : ExpressionPhrase levels tokens value)
    (span : Span)
    (stops : (Stmt.expression value span).StopsBefore (headKind after)) :
    Takes (expressionStatement (expression levels)) tokens after
      (Alike (.expression value span)) := by
  refine takes_ask_bind fun _ _ _ => ?_
  refine ((complete_expression_blind levels).takes phrased stops.1).bind_last
    fun result alike => ?_
  refine takes_ask_bind fun state calm _ => ?_
  rw [calm.steady]
  refine takes_askKind_bind ?_
  rw [List.nil_append, stops.2.1]
  exact takes_spanFrom_bind fun _ =>
    takes_pure (congrArg (Stmt.expression · (Span.empty 0)) alike)

/--
An assignment is taken: its target, its sign and its value.  The target ends
at the sign, as no assignment goes on with an expression.
-/
theorem takes_assignment
    {others : List Token}
    {target value : Expr}
    {sign : Token}
    {form : AssignmentForm}
    (signs : AssignmentForm.ofKind? sign.kind = some form)
    (stopsAtSign : Stops 1 sign.kind)
    (assignable : target.isAssignable = true)
    (first : ExpressionPhrase levels tokens target)
    (last : ExpressionPhrase levels others value)
    (span : Span)
    (stops : Stops 1 (headKind after)) :
    Takes (expressionStatement (expression levels))
      (tokens ++ sign :: others) after
      (Alike (form.statement target value span)) := by
  have complete := complete_expression_blind levels
  have atSign : Stops 1 (headKind (sign :: others ++ after)) := stopsAtSign
  refine takes_ask_bind fun _ _ _ =>
    (complete.takes first atSign).bind fun result alike => ?_
  refine takes_ask_bind fun state calm _ => ?_
  rw [calm.steady]
  refine takes_askKind_bind ?_
  rw [List.cons_append, headKind, signs]
  -- Whether a target can be assigned does not depend on its places.
  have stillAssignable : result.isAssignable = true := by
    have kept : (relabel .blind result).isAssignable = result.isAssignable :=
      isAssignable_relabel result
    rw [← kept, alike, isAssignable_relabel, assignable]
  have checked : Takes (checkTarget result) [] (sign :: others ++ after)
      (fun _ => True) := by
    rw [checkTarget, if_pos stillAssignable]
    exact takes_pure trivial
  refine checked.bind_first fun _ _ => takes_advance_bind ?_
  refine (complete.takes last stops).bind_last fun second same => ?_
  refine takes_spanFrom_bind fun _ => takes_pure ?_
  cases form with
  | plain => exact congrArg₂ (Stmt.assign · · (Span.empty 0)) alike same
  | updating operator =>
      exact congrArg₂ (Stmt.update · operator · (Span.empty 0)) alike same

theorem updating_of_ofKind?
    {kind : TokenKind}
    {operator : UpdateOperator}
    (signs : UpdateOperator.ofKind? kind = some operator) :
    AssignmentForm.ofKind? kind = some (.updating operator) ∧ Stops 1 kind := by
  rw [AssignmentForm.ofKind?, signs]
  refine ⟨rfl, ?_⟩
  unfold UpdateOperator.ofKind? at signs
  split at signs
  case h_5 => cases signs
  all_goals exact stops_of_delimiter rfl rfl 1

/-! ## All simple statements -/

/-- The rule for the form of a simple statement takes its phrase. -/
theorem SimplePhrase.takes
    {statement : Stmt}
    (phrased : SimplePhrase (ExpressionPhrase levels) tokens statement)
    (stops : statement.StopsBefore (headKind after))
    (block : List TokenKind → Rule Block) :
    ∃ rule, statementOfForm (Grammar.expression levels) block statement.form =
      terminated rule ∧
      Takes rule tokens after (Alike statement) := by
  cases phrased with
  | declaration words bindings span =>
      exact ⟨_, rfl, takes_declaration words bindings span stops⟩
  | returns words span => exact ⟨_, rfl, takes_result_none _ span stops⟩
  | returnsValue words value span =>
      exact ⟨_, rfl, takes_result_some _ value span stops⟩
  | printLine words values span =>
      exact ⟨_, rfl, takes_print words values span stops⟩
  | print words values span =>
      exact ⟨_, rfl, takes_print words values span stops⟩
  | exit words span => exact ⟨_, rfl, takes_exit words span⟩
  | loop words span => exact ⟨_, rfl, takes_loop words span⟩
  | expression only span =>
      exact ⟨_, rfl, takes_expressionStatement only span stops⟩
  | @assign _ _ sign _ _ first assignable signs last span =>
      have plain : AssignmentForm.ofKind? sign.kind = some .plain := by
        rw [signs]
        rfl
      have stopsAtSign : Stops 1 sign.kind := by
        rw [signs]
        exact stops_of_delimiter rfl rfl 1
      exact ⟨_, rfl, takes_assignment plain stopsAtSign assignable first last
        span stops.1⟩
  | update first assignable signs last span =>
      obtain ⟨updating, stopsAtSign⟩ := updating_of_ofKind? signs
      exact ⟨_, rfl, takes_assignment updating stopsAtSign assignable first last
        span stops.1⟩

/-! ## Forms -/

/-- The form of a simple statement shows in its first tokens. -/
theorem SimplePhrase.form_ahead
    {expression : Phrase Expr}
    (begins : Begins expression (fun kind => opensExpression kind = true))
    {statement : Stmt}
    (phrased : SimplePhrase expression tokens statement)
    {state : State}
    (ahead : state.rest = tokens ++ after) :
    StatementForm.of state = statement.form := by
  have kind : state.kind = headKind (tokens ++ after) := by
    rw [State.kind_eq_headKind, ahead]
  have opened {first others : List Token} {value : Expr}
      (phrased : expression first value)
      (starts : state.rest = first ++ others) :
      StatementForm.of state = .expression := by
    obtain ⟨nonempty, opens⟩ := begins _ _ phrased
    refine form_of_opensExpression ?_
    rw [State.kind_eq_headKind, starts, headKind_append nonempty, opens]
  cases phrased with
  | @declaration word _ storage _ words bindings span =>
      cases storage with
      | perCall =>
          rw [StatementForm.of, kind, List.cons_append, headKind, words]
          rfl
      | static =>
          -- The name after `STATIC` is no word that opens a routine.
          have noRoutine : opensRoutine state.rest = false := by
            rw [ahead]
            cases bindings with
            | single only | further only =>
                cases only with
                | binding named =>
                    cases named with
                    | name isName =>
                        simp [opensRoutine, words, storageWord, isName,
                          isRoutineWord]
          rw [StatementForm.of, kind, List.cons_append, headKind, words,
            storageWord]
          exact if_neg (Bool.eq_false_iff.mp noRoutine)
  | returns words | returnsValue words | printLine words | print words
  | exit words | loop words =>
      rw [StatementForm.of, kind, List.cons_append, headKind, words]
      rfl
  | expression only => exact opened only ahead
  | assign first | update first =>
      rw [List.append_assoc] at ahead
      exact opened first ahead

end

end Grammar

/-! ## Statements that were found -/

/-- A statement was read that is this one, up to places. -/
def Stmt.Found
    (statement : Stmt)
    (made? : Option Stmt) :
    Prop :=
  ∃ made, made? = some made ∧ Alike statement made

section

variable {rule : Rule Stmt} {tokens after : List Token} {statement : Stmt}

theorem takes_found (takes : Takes rule tokens after (Alike statement)) :
    Takes (some <$> rule) tokens after statement.Found :=
  takes.bind_last fun made alike => takes_pure ⟨made, rfl, alike⟩

theorem takes_terminated
    (takes : Takes rule tokens after (Alike statement))
    (ends : headKind after ≠ .semicolon) :
    Takes (terminated rule) tokens after statement.Found :=
  takes.bind_last fun made alike =>
    takes_eat_bind_of_ne ends (takes_pure ⟨made, rfl, alike⟩)

theorem takes_terminated_semicolon
    {semicolon : Token}
    (takes : Takes rule tokens (semicolon :: after) (Alike statement))
    (terminates : semicolon.kind = .semicolon) :
    Takes (terminated rule) (tokens ++ [semicolon]) after statement.Found :=
  takes.bind fun made alike =>
    takes_eat_bind terminates (takes_pure ⟨made, rfl, alike⟩)

end

end Clipper
