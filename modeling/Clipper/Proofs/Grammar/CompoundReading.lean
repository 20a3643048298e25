import Clipper.Proofs.Grammar.SimpleReading

/-!
# Compound statements are read

The rule for each form of a compound statement takes the tokens of the
statement, given that the rules for its blocks take theirs.  What stands after a
condition, a bound or a step must not go on with it.

The statements are made in terms of the relation `Takes`: a rule takes some
tokens when they are ahead, whatever stands behind them apart from the next
token, and what it reads satisfies a property.  It composes along the monadic
form of a rule, so the proof for a form goes through its parts in their order.
Blocks enter as hypotheses, which an induction on the levels supplies.
-/

namespace Clipper

open Grammar Rule
open Relabelled (relabel)

/-! ## Trees up to places -/

theorem Alike.block
    {statements made : List Stmt}
    (alike : Alike statements made)
    (span madeSpan : Span) :
    Alike (Block.of statements span) (.of made madeSpan) := by
  rw [Alike, relabel_block, relabel_block, alike]
  rfl

/-- Conditionals with conditions and blocks that are alike are alike. -/
theorem Alike.conditional
    {condition madeCondition : Expr}
    {positive madePositive : Block}
    {negative? made? : Option Block}
    (conditions : Alike condition madeCondition)
    (positives : Alike positive madePositive)
    (negatives : Alike negative? made?)
    (span madeSpan : Span) :
    Alike (Stmt.conditional condition positive negative? span)
      (.conditional madeCondition madePositive made? madeSpan) := by
  rw [Alike, relabel_conditional, relabel_conditional, conditions,
    positives, negatives]
  rfl

section

variable {levels : Nat} {block : List TokenKind → Rule Block}
    {after : List Token}

/-! ## Heads -/

/--
A token of this kind goes neither on with
an expression nor with the head around it.
-/
structure EndsHead (kind : TokenKind) : Prop where
  stops : Stops 1 kind
  noThen : kind ≠ .thenWord
  noDo : kind ≠ .doWord
  noStep : kind ≠ .step

theorem endsHead_semicolon : EndsHead .semicolon where
  stops := stops_of_delimiter rfl rfl 1
  noThen := TokenKind.noConfusion
  noDo := TokenKind.noConfusion
  noStep := TokenKind.noConfusion

/--
A token that may be absent is taken if it is there; if it is not, the next
token must be of another kind.
-/
theorem takes_eat_optional
    {kind : TokenKind}
    {tokens : List Token}
    {present : Bool}
    (phrased : OptionalToken [kind] tokens present)
    (other : headKind after ≠ kind) :
    Takes (eat kind) tokens after (· = present) := by
  cases phrased with
  | absent => exact takes_eat_of_ne other
  | present same => exact takes_eat (List.mem_singleton.mp same)

/--
What comes before an optional token does not go on, if it does not go on with
the token and not with what comes after it.
-/
theorem stops_optional
    {kind : TokenKind}
    {tokens : List Token}
    {present : Bool}
    (phrased : OptionalToken [kind] tokens present)
    (atToken : Stops 1 kind)
    (stops : Stops 1 (headKind after)) :
    Stops 1 (headKind (tokens ++ after)) := by
  cases phrased with
  | absent => exact stops
  | present same =>
      rw [List.singleton_append, headKind, List.mem_singleton.mp same]
      exact atToken

theorem takes_close
    {token : Token}
    {closer opener : TokenKind}
    (same : token.kind = closer) :
    Takes (close closer opener) [token] after (fun _ => True) :=
  takes_eat_bind same (takes_pure trivial)

/-! ## Conditionals -/

/--
The condition, the optional word and the block of an arm are
taken in this order.
-/
theorem takes_arm
    {tokens thenTokens inner : List Token}
    {condition : Expr}
    {hasThen : Bool}
    {body : Block}
    (conditions : ExpressionPhrase levels tokens condition)
    (thens : OptionalToken [.thenWord] thenTokens hasThen)
    (ends : EndsHead (headKind (inner ++ after)))
    (inside : Takes (block [.elseIf, .elseWord, .endIf]) inner after
      (Alike body))
    (start : Nat) :
    Takes (arm (expression levels) block start)
      (tokens ++ (thenTokens ++ inner)) after
      (fun read => Alike condition read.condition ∧ Alike body read.block) := by
  have stops : Stops 1 (headKind (thenTokens ++ inner ++ after)) := by
    rw [List.append_assoc]
    exact stops_optional thens (stops_of_delimiter rfl rfl 1) ends.stops
  refine ((complete_expression_blind levels).takes conditions stops).bind
    fun result alike => ?_
  refine (takes_eat_optional thens ends.noThen).bind fun _ _ => ?_
  exact inside.bind_last fun made same => takes_pure ⟨alike, same⟩

/--
The tokens between the first block of a conditional and
its closing word: the further arms, and then what an
`ELSE` opens.  Together they are read as this other block.
-/
def TakesAlternative
    (levels : Nat)
    (block : List TokenKind → Rule Block)
    (tokens after : List Token)
    (negative? : Option Block) :
    Prop :=
  ∃ arms last last?,
    tokens = arms ++ last ∧
      Takes (many (furtherArm? (expression levels) block)) arms (last ++ after)
        (fun read => ∀ reached made?, Alike last? made? →
          Alike negative? (read.foldr (Arm.nest reached) made?)) ∧
      Takes (optionalAfter .elseWord (block [.endIf])) last after (Alike last?)

theorem furtherArm?_eq_none
    {token : Token}
    (other : token.kind ≠ .elseIf) :
    furtherArm? (expression levels) block token = none :=
  if_neg other

/-- Where no further arm opens, what an `ELSE` opens is the other block. -/
theorem takesAlternative_last
    {tokens : List Token}
    {negative? : Option Block}
    (noArm : headKind (tokens ++ after) ≠ .elseIf)
    (last : Takes (optionalAfter .elseWord (block [.endIf])) tokens after
      (Alike negative?)) :
    TakesAlternative levels block tokens after negative? := by
  refine ⟨[], tokens, negative?, rfl, takes_many_nil ?_ fun _ _ alike =>
    alike, last⟩
  intro token rest ahead
  rw [ahead] at noArm
  exact furtherArm?_eq_none noArm

/--
An arm with a condition of its own is taken, and the arms after it
stand in its other block.
-/
theorem takesAlternative_further
    {word : Token}
    {tokens others : List Token}
    {condition : Expr}
    {positive : Block}
    {negative? : Option Block}
    (words : word.kind = .elseIf)
    (first :
      ∀ start,
        Takes (arm (expression levels) block start) tokens (others ++ after)
        (fun read => Alike condition read.condition ∧
          Alike positive read.block))
    (rest : TakesAlternative levels block others after negative?)
    (span blockSpan : Span) :
    TakesAlternative levels block (word :: (tokens ++ others)) after
      (some (.of [.conditional condition positive negative? span]
        blockSpan)) := by
  obtain ⟨arms, last, last?, rfl, takesArms, takesLast⟩ := rest
  refine ⟨word :: (tokens ++ arms), last, last?, ?_, ?_, takesLast⟩
  · rw [List.cons_append, List.append_assoc]
  have atArms := first word.span.start
  rw [List.append_assoc] at atArms
  refine takes_many_cons (if_pos words) atArms fun read alike =>
    takesArms.mono ?_
  intro reads alikeOthers reached made? alikeLast
  have nested (madeSpan : Span) :
      Alike [Stmt.conditional condition positive negative? span]
        [.conditional read.condition read.block
          (reads.foldr (Arm.nest reached) made?) madeSpan] :=
    congrArg (fun only => [only])
      (alike.1.conditional alike.2 (alikeOthers reached made? alikeLast)
        span madeSpan)
  exact ((nested _).block blockSpan _).some

/--
A conditional is taken from its word to its closing word, given that its first
arm and what comes after this arm are taken.
-/
theorem takes_conditional
    (word : Token)
    {closing : Token}
    {tokens others : List Token}
    {condition : Expr}
    {positive : Block}
    {negative? : Option Block}
    (first :
      ∀ start,
        Takes (arm (expression levels) block start) tokens
          (others ++ closing :: after)
          (fun read => Alike condition read.condition ∧
            Alike positive read.block))
    (rest : TakesAlternative levels block others (closing :: after) negative?)
    (closes : closing.kind = .endIf)
    (span : Span) :
    Takes (conditional (expression levels) block)
      (word :: (tokens ++ (others ++ [closing]))) after
      (Alike (.conditional condition positive negative? span)) := by
  obtain ⟨arms, last, last?, rfl, takesArms, takesLast⟩ := rest
  have atFirst (start : Nat) := first start
  simp only [List.append_assoc] at atFirst ⊢
  refine takes_advance_bind (Takes.bind (by simpa using atFirst _) ?_)
  rintro ⟨start, madeCondition, madePositive⟩ ⟨alikeCondition, alikePositive⟩
  refine Takes.bind (by simpa using takesArms) fun made alikeArms => ?_
  refine takesLast.bind fun made? alikeLast =>
    takes_ask_bind fun state _ _ => ?_
  refine (takes_close closes).bind_last fun _ _ => takes_spanFrom_bind fun _ =>
    takes_pure ?_
  exact alikeCondition.conditional alikePositive
    (alikeArms _ _ alikeLast) span _

/-! ## Loops -/

/--
The word `DO` behind a condition is taken, unless it opens a loop of its own.
-/
theorem takes_trailingDo
    {tokens : List Token}
    {present : Bool}
    (phrased : OptionalToken [.doWord] tokens present)
    (ends : EndsHead (headKind after))
    (noWhile : present = true → headKind after ≠ .whileWord) :
    Takes trailingDo tokens after (fun _ => True) := by
  refine takes_askKind_bind (takes_ask_bind fun state _ ahead => ?_)
  cases phrased with
  | absent =>
      rw [if_neg fun both => ends.noDo both.1]
      exact takes_pure trivial
  | present same =>
      have second : state.secondKind = headKind after := by
        rw [State.secondKind, ahead]
        cases after <;> rfl
      rw [second, if_pos ⟨List.mem_singleton.mp same, noWhile rfl⟩]
      exact takes_advance_bind (takes_pure trivial)

/--
A loop with a condition is taken: the optional words, the condition, the body
and the closing word.
-/
theorem takes_whileLoop
    {word closing : Token}
    {before tokens doTokens inner : List Token}
    {condition : Expr}
    {doBefore doAfter : Bool}
    {body : Block}
    (dosBefore : OptionalToken [.doWord] before doBefore)
    (words : word.kind = .whileWord)
    (conditions : ExpressionPhrase levels tokens condition)
    (dosAfter : OptionalToken [.doWord] doTokens doAfter)
    (ends : EndsHead (headKind (inner ++ closing :: after)))
    (noWhile : doAfter = true →
      headKind (inner ++ closing :: after) ≠ .whileWord)
    (inside : Takes (block [.endDo]) inner (closing :: after) (Alike body))
    (closes : closing.kind = .endDo)
    (span : Span) :
    Takes (whileLoop (expression levels) block)
      (before ++ word :: (tokens ++ (doTokens ++ (inner ++ [closing])))) after
      (Alike (.whileLoop condition body span)) := by
  have stops : Stops 1
      (headKind (doTokens ++ (inner ++ [closing]) ++ after)) := by
    simp only [List.append_assoc, List.singleton_append]
    exact stops_optional dosAfter (stops_of_delimiter rfl rfl 1) ends.stops
  have noDo (others : List Token) : headKind (word :: others) ≠ .doWord := by
    rw [headKind, words]
    exact TokenKind.noConfusion
  refine takes_ask_bind fun _ _ _ => ?_
  refine Takes.bind (takes_eat_optional dosBefore (noDo _)) fun _ _ => ?_
  refine takes_advance_bind ?_
  refine ((complete_expression_blind levels).takes conditions stops).bind
    fun result alike => ?_
  refine (takes_trailingDo dosAfter (by simpa using ends)
    (by simpa using noWhile)).bind ?_
  refine fun _ _ => inside.bind fun made same =>
    (takes_close closes).bind_last fun _ _ => ?_
  exact takes_spanFrom_bind fun _ =>
    takes_pure (congrArg₂ (Stmt.whileLoop · · (Span.empty 0)) alike same)

theorem takes_counterSign
    {sign : Token}
    (signs : sign.kind = .assign ∨ sign.kind = .equal) :
    Takes counterSign [sign] after (fun _ => True) := by
  obtain isAssign | isEqual := signs
  · exact takes_eat_bind isAssign (takes_pure trivial)
  · refine takes_eat_bind_of_ne ?_ (takes_eat_bind isEqual (takes_pure trivial))
    rw [List.singleton_append, headKind, isEqual]
    exact TokenKind.noConfusion

/-- The step of a counting loop is taken if there is one. -/
theorem takes_step
    {tokens : List Token}
    {step? : Option Expr}
    (stepped : OptionalPhrase .step (ExpressionPhrase levels) tokens step?)
    (ends : EndsHead (headKind after)) :
    Takes (optionalAfter .step (expression levels)) tokens after
      (Alike step?) := by
  cases stepped with
  | absent => exact takes_optionalAfter_none ends.noStep rfl
  | present same phrased =>
      have takes := (complete_expression_blind levels).takes phrased ends.stops
      exact takes_optionalAfter same
        (takes.mono fun _ alike => congrArg some alike)

/--
Behind the closing word of a counting loop its counter may stand again, in
any case of letters.
-/
theorem takes_counterAgain
    {counter again : Identifier}
    {tokens : List Token}
    (counters : CounterAgain counter tokens)
    (same : again.name = counter.name)
    (ends :
      ∀ token ∈ after.head?,
        ¬(token.kind = .identifier ∧
          Source.sameIgnoringCase token.lexeme counter.name = true)) :
    Takes (counterAgain again) tokens after (fun _ => True) := by
  refine takes_ask_bind fun state _ ahead => ?_
  rw [same]
  cases counters with
  | absent =>
      rw [if_neg]
      · exact takes_pure trivial
      rintro ⟨isName, isSame⟩
      rw [List.nil_append] at ahead
      cases after with
      | nil =>
          rw [State.current, ahead] at isName
          cases isName
      | cons token rest =>
          rw [State.current_of_rest ahead] at isName isSame
          exact ends token rfl ⟨isName, isSame⟩
  | present kind sameName =>
      rw [State.current_of_rest ahead, if_pos ⟨kind, sameName⟩]
      exact takes_advance_bind (takes_pure trivial)

/--
A counting loop is taken: the counter, the bounds, the step, the body and the
closing word, behind which the counter may stand again.
-/
theorem takes_forLoop
    (word : Token)
    {sign toToken closing : Token}
    {names firsts lasts steps inner again : List Token}
    {counter : Identifier}
    {first last : Expr}
    {step? : Option Expr}
    {body : Block}
    (named : NamePhrase names counter)
    (signs : sign.kind = .assign ∨ sign.kind = .equal)
    (begins : ExpressionPhrase levels firsts first)
    (tos : toToken.kind = .toWord)
    (lastPhrase : ExpressionPhrase levels lasts last)
    (stepped : OptionalPhrase .step (ExpressionPhrase levels) steps step?)
    (ends : EndsHead (headKind (inner ++ closing :: (again ++ after))))
    (inside : Takes (block [.next]) inner (closing :: (again ++ after))
      (Alike body))
    (closes : closing.kind = .next)
    (counters : CounterAgain counter again)
    (free :
      ∀ token ∈ after.head?,
        ¬(token.kind = .identifier ∧
          Source.sameIgnoringCase token.lexeme counter.name = true))
    (span : Span) :
    Takes (forLoop (expression levels) block)
      (word :: (names ++ sign ::
        (firsts ++ toToken :: (lasts ++ (steps ++ (inner ++
          closing :: again)))))) after
      (Alike (.forLoop counter first last step? body span)) := by
  have complete := complete_expression_blind levels
  have atTo : Stops 1
      (headKind (toToken :: (lasts ++ (steps ++ (inner ++ closing :: again))) ++
        after)) := by
    rw [List.cons_append, headKind, tos]
    exact stops_of_delimiter rfl rfl 1
  have atStep : Stops 1
      (headKind (steps ++ (inner ++ closing :: again) ++ after)) := by
    cases stepped with
    | absent => simpa using ends.stops
    | present same =>
        rw [List.cons_append, List.cons_append, headKind, same]
        exact stops_of_delimiter rfl rfl 1
  cases named with
  | name isName nameSpan =>
      rw [List.singleton_append]
      refine takes_advance_bind (takes_expectName_bind isName ?_)
      refine (takes_counterSign signs).bind fun _ _ => ?_
      refine (complete.takes begins atTo).bind fun firstRead alikeFirst => ?_
      refine takes_expect_bind tos ?_
      refine (complete.takes lastPhrase atStep).bind fun lastRead alikeLast =>
        ?_
      refine (takes_step stepped (by simpa using ends)).bind
        fun stepRead alikeStep => ?_
      refine Takes.bind (by simpa using inside) fun bodyRead alikeBody => ?_
      have closed : Takes (closeFor ⟨_, _⟩) (closing :: again) after
          (fun _ => True) :=
        takes_eat_bind closes (takes_counterAgain counters rfl free)
      refine closed.bind_last fun _ _ => takes_spanFrom_bind fun _ =>
        takes_pure ?_
      rw [Alike, relabel_forLoop, relabel_forLoop, alikeFirst, alikeLast,
        alikeStep, alikeBody]
      rfl

/-! ## Routines -/

/--
The parameters of a routine are taken between their parentheses; where there
are none, no parenthesis may follow.
-/
theorem takes_parameters
    {tokens : List Token}
    {names : List Identifier}
    (phrased : ParametersPhrase tokens names)
    (noParenthesis : tokens = [] → headKind after ≠ .leftParenthesis) :
    Takes parameters tokens after (Alike names) := by
  have begins : Begins NamePhrase (fun kind => kind ≠ .rightParenthesis) := by
    intro tokens name phrased
    cases phrased with
    | name kind =>
        refine ⟨List.cons_ne_nil _ _, ?_⟩
        rw [headKind, kind]
        decide
  cases phrased with
  | absent => exact takes_eat_bind_of_ne (noParenthesis rfl) (takes_pure rfl)
  | present opens between closes =>
      rw [← closes] at begins
      refine takes_eat_bind opens ?_
      rw [if_pos rfl, ← closes]
      exact takes_enclosed (complete_expectName _) trivial trivial
        (by rw [closes]; decide) begins _ between

/-- The closing word of a routine is taken, whichever of the two it is. -/
theorem takes_closeRoutine
    {closing : Token}
    (closes : closing.kind = .endFunction ∨ closing.kind = .endProcedure) :
    Takes closeRoutine [closing] after (fun _ => True) := by
  obtain isFunction | isProcedure := closes
  · exact takes_eat_bind isFunction (takes_pure trivial)
  · refine takes_eat_bind_of_ne ?_
      (takes_eat_bind isProcedure (takes_pure trivial))
    rw [List.singleton_append, headKind, isProcedure]
    exact TokenKind.noConfusion

/--
A routine is taken: its words, its name, its parameters, its body
and its closing word.
-/
theorem takes_routine
    {word closing : Token}
    {before names tokens inner : List Token}
    {kind : RoutineKind}
    {isStatic : Bool}
    {name : Identifier}
    {parameters : List Identifier}
    {body : Block}
    (statics : OptionalToken [.static] before isStatic)
    (words : word.kind = routineWord kind)
    (named : NamePhrase names name)
    (parameterized : ParametersPhrase tokens parameters)
    (noParenthesis : tokens = [] →
      headKind (inner ++ closing :: after) ≠ .leftParenthesis)
    (inside :
      Takes (block [.endFunction, .endProcedure]) inner (closing :: after)
        (Alike body))
    (closes : closing.kind = .endFunction ∨ closing.kind = .endProcedure)
    (span : Span) :
    Takes (routine block)
      (before ++ word :: (names ++ (tokens ++ (inner ++ [closing])))) after
      (Alike (.routine ⟨kind, isStatic, name, parameters⟩ body span)) := by
  have noStatic (others : List Token) :
      headKind (word :: others) ≠ .static := by
    rw [headKind, words]
    cases kind <;> exact TokenKind.noConfusion
  refine takes_ask_bind fun _ _ _ => ?_
  refine Takes.bind (takes_eat_optional statics (noStatic _)) ?_
  rintro _ rfl
  cases named with
  | name isName nameSpan =>
      refine takes_advance_bind (takes_expectName_bind isName ?_)
      refine (takes_parameters parameterized
        (by simpa using noParenthesis)).bind ?_
      refine fun namesRead alikeNames =>
        inside.bind fun bodyRead alikeBody => ?_
      refine (takes_closeRoutine closes).bind_last fun _ _ =>
        takes_spanFrom_bind fun _ => ?_
      refine takes_pure ?_
      rw [Alike, relabel_routine, relabel_routine, alikeBody,
        relabel_routineHead, relabel_routineHead, alikeNames, words]
      cases kind with
      | function => rfl
      | procedure => rfl

/-! ## Blocks -/

/-- A block is taken as the statements in it. -/
theorem takes_blockOf
    {statement : Rule (Option Stmt)}
    {closers : List TokenKind}
    {tokens : List Token}
    {statements : List Stmt}
    (lines : Takes (sequence (endsBlock closers) statement) tokens after
      (Alike statements))
    (span : Span) :
    Takes (blockOf statement closers) tokens after
      (Alike (.of statements span)) := by
  refine takes_ask_bind fun _ _ _ => lines.bind_last fun made alike => ?_
  exact takes_recovered_bind
    (takes_spanFrom_bind fun _ => takes_pure (Alike.block alike span _))

/-- A statement is read by the rule for its form. -/
theorem takes_statementOf
    {expression : Rule Expr}
    {tokens : List Token}
    {statement : Stmt}
    (formed :
      ∀ state : State, state.rest = tokens ++ after →
        StatementForm.of state = statement.form)
    (takes :
      Takes (statementOfForm expression block statement.form) tokens after
        statement.Found) :
    Takes (statementOf expression block) tokens after statement.Found := by
  refine takes_recovered_bind (takes_ask_bind fun state _ ahead => ?_)
  rw [formed state ahead]
  exact takes

end

end Clipper
