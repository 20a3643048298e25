import Clipper.Proofs.Grammar.CompoundReading
import Clipper.Proofs.Listing.Printable

/-!
# The tokens of a statement are read as the statement

The rule for each form of a statement takes the tokens of a printable statement
of this form and reads the statement, up to places, wherever what stands after
it does not go on with it.

What may stand behind a statement is bounded by two tests.  The token after a
simple statement must not go on with its last expression, as an operator, a
parenthesis or an assignment would.  A compound statement ends with its own
closing word, but the body in it has to end there too.  Both tests are in
`endsBefore`, which looks at the tokens that come after.
-/

namespace Clipper

open Grammar Rule
open Relabelled (relabel)

/-! ## What does not go on -/

theorem stops_of_not_goesOn
    {kind : TokenKind}
    (ends : goesOn kind = false) :
    Stops 1 kind := by
  simp only [goesOn, Bool.or_eq_false_iff, Option.isSome_eq_false_iff,
    Option.isNone_iff_eq_none]
    at ends
  exact stops_of_delimiter ends.1.1.1 ends.1.1.2 1

theorem ne_of_not_goesOn
    {kind other : TokenKind}
    (ends : goesOn kind = false)
    (prolongs : goesOn other = true) :
    kind ≠ other := by
  rintro rfl
  rw [prolongs] at ends
  cases ends

/--
A token that does not go on with an expression is no sign of an assignment.
-/
theorem assignmentForm_of_not_goesOn
    {kind : TokenKind}
    (ends : goesOn kind = false) :
    AssignmentForm.ofKind? kind = none := by
  have noUpdate : UpdateOperator.ofKind? kind = none := by
    simp only [goesOn, Bool.or_eq_false_iff, Option.isSome_eq_false_iff,
      Option.isNone_iff_eq_none] at ends
    exact ends.1.2
  rw [AssignmentForm.ofKind?, noUpdate]
  exact if_neg (ne_of_not_goesOn ends rfl)

theorem endsHead_of_not_goesOn
    {kind : TokenKind}
    (ends : goesOn kind = false) :
    EndsHead kind where
  stops := stops_of_not_goesOn ends
  noThen := ne_of_not_goesOn ends rfl
  noDo := ne_of_not_goesOn ends rfl
  noStep := ne_of_not_goesOn ends rfl

theorem goesOn_headKind_append
    {first second : List Token}
    (firstEnds : goesOn (headKind first) = false)
    (secondEnds : goesOn (headKind second) = false) :
    goesOn (headKind (first ++ second)) = false := by
  cases first with
  | nil => exact secondEnds
  | cons token rest => exact firstEnds

/-! ## Simple statements -/

section Simple

variable {levels : Nat} {after : List Token}

/--
A simple statement stops before what comes after it, if it ends there by the
test of the listing.
-/
theorem stopsBefore_of_endsBefore
    {statement : Stmt}
    (simple : statement.isSimple = true)
    (ends : statement.endsBefore after = true) :
    statement.StopsBefore (headKind after) := by
  have past (closed : (!goesOn (headKind after)) = true) :
      Stops 1 (headKind after) ∧
        AssignmentForm.ofKind? (headKind after) = none ∧
        headKind after ≠ .comma := by
    have closed : goesOn (headKind after) = false :=
      Bool.not_eq_eq_eq_not.mp closed
    exact ⟨stops_of_not_goesOn closed, assignmentForm_of_not_goesOn closed,
      ne_of_not_goesOn closed rfl⟩
  cases statement with
  | print _ values =>
      cases values with
      | nil =>
          rw [Stmt.endsBefore, Bool.and_eq_true] at ends
          exact Bool.not_eq_eq_eq_not.mp ends.1
      | cons => exact past ends
  | result value? =>
      cases value? with
      | none =>
          rw [Stmt.endsBefore, Bool.and_eq_true] at ends
          exact Bool.not_eq_eq_eq_not.mp ends.1
      | some => exact past ends
  | exit | loop => trivial
  | expression | assign | update | declare => exact past ends
  | conditional | whileLoop | forLoop | routine => cases simple

/--
The tokens of a printable declared name are a phrase for it, with its
first value or without.
-/
theorem Binding.phrase_tokens
    {binding : Binding}
    (printable : binding.isPrintable = true)
    (shallow : Expr.levelsInside binding.value?.toList ≤ levels) :
    BindingPhrase (ExpressionPhrase levels) binding.tokens binding := by
  obtain ⟨name, value?, span⟩ := binding
  rw [Binding.isPrintable, Bool.and_eq_true] at printable
  cases value? with
  | none => exact .binding (namePhrase_token name) .absent span
  | some value =>
      have printableValue : Expr.arePrintable [value] = true := by
        rw [Expr.arePrintable, Bool.and_eq_true]
        exact ⟨printable.2, rfl⟩
      have phrased := Expr.expressionPhrases [value] printableValue
        shallow value
        (List.mem_singleton.mpr rfl)
      exact .binding (namePhrase_token name) (.present rfl phrased) span

/--
The tokens of a simple statement that is
printable are a phrase for the statement.
-/
theorem Stmt.simplePhrase
    {statement : Stmt}
    (simple : statement.isSimple = true)
    (printable : statement.isPrintable = true)
    (shallow : statement.levels ≤ levels) :
    SimplePhrase (ExpressionPhrase levels) statement.tokens statement := by
  cases statement with
  | expression value span =>
      simp only [Stmt.levels, Expr.levelsInside_le_iff, List.forall_mem_cons]
        at shallow
      exact .expression (value.phrase_tokens printable shallow.1) span
  | assign target value span =>
      simp only [Stmt.levels, Expr.levelsInside_le_iff, List.forall_mem_cons]
        at shallow
      simp only [isPrintable, Bool.and_eq_true] at printable
      obtain ⟨⟨printableTarget, assignable⟩, printableValue⟩ := printable
      exact .assign (target.phrase_tokens printableTarget shallow.1)
        assignable rfl (value.phrase_tokens printableValue shallow.2.1) span
  | update target operator value span =>
      simp only [Stmt.levels, Expr.levelsInside_le_iff, List.forall_mem_cons]
        at shallow
      simp only [isPrintable, Bool.and_eq_true] at printable
      obtain ⟨⟨printableTarget, assignable⟩, printableValue⟩ := printable
      exact .update (target.phrase_tokens printableTarget shallow.1) assignable
        (UpdateOperator.ofKind?_kind operator)
        (value.phrase_tokens printableValue shallow.2.1) span
  | print newLine values span =>
      have listed := Expr.expressionList values printable shallow
      cases newLine with
      | true => exact .printLine rfl listed span
      | false => exact .print rfl listed span
  | declare storage bindings span =>
      simp only [isPrintable, Bool.and_eq_true, Bool.not_eq_true',
        List.isEmpty_eq_false_iff]
        at printable
      refine .declaration ?_
        (separatedPhrase_of_forall printable.1 fun binding among => ?_) span
      · cases storage <;> rfl
      · refine Binding.phrase_tokens
          (List.all_eq_true.mp printable.2 binding among) ?_
        rw [Stmt.levels, Expr.levelsInside_le_iff] at shallow
        rw [Expr.levelsInside_le_iff]
        intro value isValue
        exact shallow value
          (List.mem_filterMap.mpr
            ⟨binding, among, Option.mem_toList.mp isValue⟩)
  | result value? span =>
      cases value? with
      | none => exact .returns rfl span
      | some value =>
          simp only [Stmt.levels, Option.toList, Expr.levelsInside_le_iff,
            List.forall_mem_cons]
            at shallow
          exact .returnsValue rfl (value.phrase_tokens printable shallow.1) span
  | exit span => exact .exit rfl span
  | loop span => exact .loop rfl span
  | conditional | whileLoop | forLoop | routine => cases simple

end Simple

/-! ## Compound statements -/

section Compound

variable {levels : Nat} {block : List TokenKind → Rule Block}
    {after : List Token}

/-- The block of a compound statement does not go on with the head before it. -/
theorem Block.endsHead
    {body : Block}
    (ends : body.endsExpression = true)
    {others : List Token}
    (closed : goesOn (headKind others) = false) :
    EndsHead (headKind (body.tokens ++ others)) :=
  endsHead_of_not_goesOn
    (goesOn_headKind_append (Bool.not_eq_eq_eq_not.mp ends) closed)

/--
A conditional, with what stands between its first block and its closing word.
-/
theorem takes_tokens_conditional
    {condition : Expr}
    {positive : Block}
    {negative? : Option Block}
    {others : List Token}
    (span : Span)
    (printable : condition.isPrintable = true)
    (shallow : condition.levels < levels)
    (ends : positive.endsExpression = true)
    (closed : goesOn (headKind (others ++ .unplaced .endIf "ENDIF" :: after)) =
      false)
    (noElseIf : headKind (others ++ .unplaced .endIf "ENDIF" :: after) ≠
      .elseIf)
    (inside :
      Takes (block [.elseIf, .elseWord, .endIf]) positive.tokens
        (others ++ .unplaced .endIf "ENDIF" :: after) (Alike positive))
    (otherwise :
      Takes (optionalAfter .elseWord (block [.endIf])) others
        (.unplaced .endIf "ENDIF" :: after) (Alike negative?)) :
    Takes (conditional (expression levels) block)
      (.unplaced .ifWord "IF" ::
        (condition.tokens ++
          (positive.tokens ++ (others ++ [.unplaced .endIf "ENDIF"]))))
      after (Alike (.conditional condition positive negative? span)) := by
  have phrased := condition.phrase_tokens printable shallow
  rw [← List.append_assoc]
  exact takes_conditional _
    (takes_arm phrased .absent (Block.endsHead ends closed) inside)
    (takesAlternative_last noElseIf otherwise) rfl span

/--
The tokens of a loop with a condition are read as this loop, given that those
of its body are read as the body.
-/
theorem takes_tokens_whileLoop
    {condition : Expr}
    {body : Block}
    (span : Span)
    (printable : condition.isPrintable = true)
    (shallow : condition.levels < levels)
    (ends : body.endsExpression = true)
    (inside : Takes (block [.endDo]) body.tokens
      (.unplaced .endDo "ENDDO" :: after) (Alike body)) :
    Takes (whileLoop (expression levels) block)
      (Stmt.whileLoop condition body span).tokens after
      (Alike (.whileLoop condition body span)) :=
  takes_whileLoop .absent rfl (condition.phrase_tokens printable shallow)
    .absent (Block.endsHead ends rfl) Bool.noConfusion inside rfl span

/-- The tokens of a step are a phrase for it, where there is a step. -/
theorem stepPhrase_tokens
    {step? : Option Expr}
    (printable : step?.all Expr.isPrintable = true)
    (shallow : ∀ step ∈ step?, step.levels < levels) :
    OptionalPhrase .step (ExpressionPhrase levels)
      (stepTokens step?) step? := by
  cases step? with
  | none => exact .absent
  | some step =>
      exact .present rfl (step.phrase_tokens printable (shallow step rfl))

/--
The tokens of a counting loop are read as this loop, given that those of its
body are read as the body.  The step may be absent.
-/
theorem takes_tokens_forLoop
    {counter : Identifier}
    {first last : Expr}
    {step? : Option Expr}
    {body : Block}
    (span : Span)
    (printable : (Stmt.forLoop counter first last step? body span).isPrintable =
      true)
    (shallow : Expr.levelsInside (first :: last :: step?.toList) ≤ levels)
    (inside : Takes (block [.next]) body.tokens
      (.unplaced .next "NEXT" :: after) (Alike body))
    (ends : (Stmt.forLoop counter first last step? body span).endsBefore
      after = true) :
    Takes (forLoop (expression levels) block)
      (Stmt.forLoop counter first last step? body span).tokens after
      (Alike (.forLoop counter first last step? body span)) := by
  simp only [Stmt.isPrintable, Bool.and_eq_true] at printable
  obtain ⟨⟨⟨⟨⟨-, printableFirst⟩, printableLast⟩, printableStep⟩, endsInside⟩,
      -⟩ := printable
  simp only [Expr.levelsInside_le_iff, List.forall_mem_cons, Option.mem_toList]
    at shallow
  obtain ⟨shallowFirst, shallowLast, shallowStep⟩ := shallow
  have free : ∀ token ∈ after.head?,
      ¬(token.kind = .identifier ∧
        Source.sameIgnoringCase token.lexeme counter.name = true) := by
    rintro token isHead ⟨isName, isSame⟩
    simp [Stmt.endsBefore, Option.mem_def.mp isHead, isName, isSame] at ends
  exact takes_forLoop _ (namePhrase_token counter) (.inl rfl)
    (first.phrase_tokens printableFirst shallowFirst) rfl
    (last.phrase_tokens printableLast shallowLast)
    (stepPhrase_tokens printableStep shallowStep)
    (Block.endsHead endsInside rfl) inside rfl
    .absent free span

/-! ## Routines -/

/--
The tokens of a routine are read as this routine, given that those of its body
are read as the body.  Its head has a list of names, which may be empty.
-/
theorem takes_tokens_routine
    {body : Block}
    (head : RoutineHead)
    (span : Span)
    (inside :
      Takes (block [.endFunction, .endProcedure]) body.tokens
        (head.kind.closingToken :: after) (Alike body)) :
    Takes (routine block) (Stmt.routine head body span).tokens after
      (Alike (.routine head body span)) := by
  obtain ⟨kind, isStatic, name, names⟩ := head
  have statics : OptionalToken [.static]
      (if isStatic then [.unplaced .static "STATIC"] else []) isStatic := by
    cases isStatic with
    | true => exact .present (List.mem_singleton.mpr rfl)
    | false => exact .absent
  have words : kind.token.kind = routineWord kind := by cases kind <;> rfl
  have closes : kind.closingToken.kind = .endFunction ∨ kind.closingToken.kind =
      .endProcedure := by
    cases kind with
    | function => exact .inl rfl
    | procedure => exact .inr rfl
  have parameterized : ParametersPhrase
      (.unplaced .leftParenthesis "(" ::
        (commaTokens (names.map (fun name => [name.token])) ++
          [.unplaced .rightParenthesis ")"])) names :=
    .present rfl (listPhrase_of_forall names fun name _ =>
      namePhrase_token name) rfl
  rw [Stmt.tokens, RoutineHead.tokens, List.append_assoc]
  exact takes_routine statics words (namePhrase_token name) parameterized
    (fun none => absurd none (List.cons_ne_nil _ _)) inside closes span

end Compound

end Clipper
