import Clipper.Grammar.Program
import Clipper.Proofs.Grammar.ExpressionSound
import Clipper.Proofs.Grammar.StatementPhrase

/-!
# Statements are read by their grammar

What a rule for statements takes without a report are the tokens of a phrase,
and its value is the tree of the phrase.  A statement takes at least one token;
therefore the loop over the statements of a block never drops one.

The form of the statement is known by its first tokens, and so is the rule to
be looked at.  For each form the phrase is put together from the phrases of
the parts, in the order of the rule.  Semicolons are phrases of their own,
which stand for no statement; so a simple statement and the semicolon behind
it are two phrases.  The induction over the levels goes through blocks, since
the expressions of a statement are covered already.
-/

namespace Clipper.Grammar

open Rule

/-! ## Optional parts -/

theorem sound_eat
    {kind : TokenKind}
    (isToken : kind ≠ .endOfFile) :
    Sound (eat kind) (OptionalToken [kind]) := by
  intro state eaten next reads
  rcases reads_eat.mp reads with ⟨-, ⟨same, rfl, rfl⟩ | ⟨-, rfl, rfl⟩⟩
  · exact ⟨[state.current], State.rest_of_kind same isToken,
      .present (List.mem_singleton.mpr same)⟩
  · exact ⟨[], rfl, .absent⟩

/--
An optional part behind a word is absent, or it is the word
and a phrase of the rule.
-/
theorem Rule.Sound.optionalAfter
    {α : Type}
    {rule : Rule α}
    {phrase : Phrase α}
    (sound : Sound rule phrase)
    {kind : TokenKind}
    (isToken : kind ≠ .endOfFile) :
    Sound (optionalAfter kind rule) (OptionalPhrase kind phrase) := by
  intro state value? next reads
  rw [Rule.optionalAfter, reads_eat_ite] at reads
  rcases reads with ⟨same, continued⟩ | ⟨-, ended⟩
  · rcases reads_map.mp continued with ⟨value, read, rfl⟩
    rcases sound _ _ _ read with ⟨tokens, taken, phrased⟩
    refine ⟨state.current :: tokens, ?_, .present same phrased⟩
    rw [State.rest_of_kind same isToken, taken, List.cons_append]
  · rcases reads_pure.mp ended with ⟨-, rfl, rfl⟩
    exact ⟨[], rfl, .absent⟩

section

variable {expression : Rule Expr} {phrase : Phrase Expr}

/-! ## Simple statements -/

/-- What is read as a declared name is one. -/
theorem sound_binding
    (sound : Sound expression phrase)
    (place : NamePlace) :
    Sound (binding expression place) (BindingPhrase phrase) := by
  intro state made next reads
  rw [binding, reads_expectName_bind, reads_eat_ite] at reads
  rcases reads with ⟨named, ⟨signs, continued⟩ | ⟨-, ended⟩⟩
  · have taken := State.rest_of_kind named (by decide)
    rcases reads_bind.mp continued with ⟨value, _, read, ended⟩
    rcases reads_pure.mp ended with ⟨-, rfl, rfl⟩
    rcases sound _ _ _ read with ⟨tokens, further, phrased⟩
    refine ⟨[state.current] ++ state.advance.current :: tokens, ?_,
      .binding (.name named _) (.present signs phrased) _⟩
    rw [taken, State.rest_of_kind signs (by decide), further]
    simp
  · rcases reads_pure.mp ended with ⟨-, rfl, rfl⟩
    exact ⟨[state.current] ++ [], State.rest_of_kind named (by decide),
      .binding (.name named _) .absent _⟩

/-- What is read from `LOCAL` or `STATIC` on is a declaration. -/
theorem sound_declaration
    (sound : Sound expression phrase)
    {state next : State}
    {statement : Stmt}
    (words : state.kind = .localWord ∨ state.kind = .static)
    (reads : Reads (declaration expression) state statement next) :
    ∃ tokens, state.rest = tokens ++ next.rest ∧
      SimplePhrase phrase tokens statement := by
  rw [declaration, reads_advance_bind] at reads
  rcases reads_bind.mp reads with ⟨bindings, _, read, reads⟩
  rw [spanFrom, reads_ask_bind, reads_pure] at reads
  rcases reads with ⟨-, rfl, rfl⟩
  rcases (sound_binding sound _).separated _ _ _ read
    with ⟨tokens, taken, phrased⟩
  refine ⟨state.current :: tokens, ?_, ?_⟩
  · rw [State.rest_of_either words (by decide) (by decide), taken,
      List.cons_append]
  · rcases words with word | word
    · have kind : state.current.kind = .localWord := word
      rw [kind]
      exact .declaration kind phrased _
    · have kind : state.current.kind = .static := word
      rw [kind]
      exact .declaration kind phrased _

/--
What is read from `RETURN` on is a statement that returns,
with a value or without.
-/
theorem sound_resultStatement
    (sound : Sound expression phrase)
    {state next : State}
    {statement : Stmt}
    (words : state.kind = .returnWord)
    (reads : Reads (resultStatement expression) state statement next) :
    ∃ tokens, state.rest = tokens ++ next.rest ∧
      SimplePhrase phrase tokens statement := by
  have taken := State.rest_of_kind words (by decide)
  rw [resultStatement, reads_advance_bind, reads_ask_bind] at reads
  split at reads
  · rcases reads_bind.mp reads with ⟨value, _, read, reads⟩
    rw [spanFrom, reads_ask_bind, reads_pure] at reads
    rcases reads with ⟨-, rfl, rfl⟩
    rcases sound _ _ _ read with ⟨tokens, further, phrased⟩
    refine ⟨state.current :: tokens, ?_, .returnsValue words phrased _⟩
    rw [taken, further, List.cons_append]
  · rw [spanFrom, reads_ask_bind, reads_pure] at reads
    rcases reads with ⟨-, rfl, rfl⟩
    exact ⟨[state.current], taken, .returns words _⟩

/-- What is read at `EXIT` or `LOOP` is that word alone. -/
theorem sound_loopControl
    {state next : State}
    {statement : Stmt}
    (words : state.kind = .exit ∨ state.kind = .loop)
    (reads : Reads loopControl state statement next) :
    ∃ tokens, state.rest = tokens ++ next.rest ∧
      SimplePhrase phrase tokens statement := by
  rw [loopControl, reads_advance_bind, reads_pure] at reads
  rcases reads with ⟨-, rfl, rfl⟩
  refine ⟨[state.current], State.rest_of_either words (by decide) (by decide),
    ?_⟩
  rcases words with word | word
  · have kind : state.current.kind = .exit := word
    rw [kind, if_pos rfl]
    exact .exit kind _
  · have kind : state.current.kind = .loop := word
    rw [kind, if_neg (by decide)]
    exact .loop kind _

theorem sound_printedValues (sound : Sound expression phrase) :
    Sound (printedValues expression) (ListPhrase phrase) := by
  intro state values next reads
  rw [printedValues, reads_ask_bind] at reads
  split at reads
  · rcases sound.separated _ _ _ reads with ⟨tokens, taken, phrased⟩
    exact ⟨tokens, taken, .some phrased⟩
  · rcases reads_pure.mp reads with ⟨-, rfl, rfl⟩
    exact ⟨[], rfl, .none⟩

/-- What is read from one question mark or two on is a statement that prints. -/
theorem sound_printStatement
    (sound : Sound expression phrase)
    {state next : State}
    {statement : Stmt}
    (words : state.kind = .question ∨ state.kind = .doubleQuestion)
    (reads : Reads (printStatement expression) state statement next) :
    ∃ tokens, state.rest = tokens ++ next.rest ∧
      SimplePhrase phrase tokens statement := by
  rw [printStatement, reads_advance_bind] at reads
  rcases reads_bind.mp reads with ⟨values, _, read, reads⟩
  rw [spanFrom, reads_ask_bind, reads_pure] at reads
  rcases reads with ⟨-, rfl, rfl⟩
  rcases sound_printedValues sound _ _ _ read with ⟨tokens, taken, phrased⟩
  refine ⟨state.current :: tokens, ?_, ?_⟩
  · rw [State.rest_of_either words (by decide) (by decide), taken,
      List.cons_append]
  · rcases words with word | word
    · have kind : state.current.kind = .question := word
      rw [kind]
      exact .printLine kind phrased _
    · have kind : state.current.kind = .doubleQuestion := word
      rw [kind]
      exact .print kind phrased _

theorem sound_standalone
    {state next : State}
    {start : Nat}
    {value : Expr}
    {statement : Stmt}
    (reads : Reads (standalone start value) state statement next) :
    (∃ span, statement = .expression value span) ∧ next = state := by
  rw [standalone, spanFrom, reads_ask_bind, reads_pure] at reads
  rcases reads with ⟨-, rfl, rfl⟩
  exact ⟨⟨_, rfl⟩, rfl⟩

/-- The form of an assignment tells what its sign is. -/
theorem AssignmentForm.statement_phrase
    {before after : List Token}
    {sign : Token}
    {target value : Expr}
    {form : AssignmentForm}
    (first : phrase before target)
    (assignable : target.isAssignable = true)
    (signs : AssignmentForm.ofKind? sign.kind = some form)
    (last : phrase after value)
    (span : Span) :
    SimplePhrase phrase (before ++ sign :: after)
      (form.statement target value span) := by
  unfold AssignmentForm.ofKind? at signs
  split at signs
  · next operator updates =>
      cases signs
      exact .update first assignable updates last span
  · split at signs
    · next assigns =>
        cases signs
        exact .assign first assignable assigns last span
    · cases signs

/--
Behind a target that can be assigned, a sign and an
expression make an assignment.
-/
theorem sound_assignment
    (sound : Sound expression phrase)
    {before : List Token}
    {target : Expr}
    {form : AssignmentForm}
    {start : Nat}
    {state next : State}
    {statement : Stmt}
    (first : phrase before target)
    (signs : AssignmentForm.ofKind? state.kind = some form)
    (reads : Reads (assignment expression start target form) state
      statement next) :
    ∃ tokens, state.rest = tokens ++ next.rest ∧
      SimplePhrase phrase (before ++ tokens) statement := by
  have isToken : state.kind ≠ .endOfFile := by
    intro ended
    rw [ended] at signs
    cases signs
  have ahead := State.rest_of_kind rfl isToken
  rw [assignment] at reads
  rcases reads_bind.mp reads with ⟨_, middle, checked, continued⟩
  rw [checkTarget] at checked
  split at checked
  · next assignable =>
      rcases reads_pure.mp checked with ⟨-, -, rfl⟩
      rw [reads_advance_bind] at continued
      rcases reads_bind.mp continued with ⟨value, _, read, ended⟩
      rw [spanFrom, reads_ask_bind, reads_pure] at ended
      rcases ended with ⟨-, rfl, rfl⟩
      rcases sound _ _ _ read with ⟨after, taken, last⟩
      refine ⟨middle.current :: after, ?_, ?_⟩
      · rw [ahead, taken, List.cons_append]
      · exact AssignmentForm.statement_phrase first assignable signs last _
  · exact absurd checked not_reads_report

/--
What is read as a statement that begins as an expression is an
expression or an assignment.
-/
theorem sound_expressionStatement (sound : Sound expression phrase) :
    Sound (expressionStatement expression) (SimplePhrase phrase) := by
  intro state statement next reads
  rw [expressionStatement, reads_ask_bind] at reads
  rcases reads_bind.mp reads with ⟨target, middle, read, continued⟩
  rcases sound _ _ _ read with ⟨tokens, taken, phrased⟩
  rw [reads_ask_bind, read.calm_next.steady, if_neg Bool.false_ne_true,
    reads_ask_bind] at continued
  split at continued
  · rcases sound_standalone continued with ⟨⟨span, rfl⟩, rfl⟩
    exact ⟨tokens, taken, .expression phrased span⟩
  · next form signs =>
      rcases sound_assignment sound phrased signs continued
        with ⟨further, furtherTaken, all⟩
      refine ⟨tokens ++ further, ?_, all⟩
      rw [taken, furtherTaken, List.append_assoc]

/--
A simple statement is read as its form, and a semicolon behind it
belongs to its tokens.
-/
theorem sound_terminated
    {rule : Rule Stmt}
    {block : Phrase Block}
    {state next : State}
    {statement? : Option Stmt}
    (simple :
      ∀ statement middle, Reads rule state statement middle →
        ∃ tokens, state.rest = tokens ++ middle.rest ∧
          SimplePhrase phrase tokens statement)
    (reads : Reads (terminated rule) state statement? next) :
    ∃ statement tokens, statement? = some statement ∧
      state.rest = tokens ++ next.rest ∧
      StatementFormPhrase phrase block tokens statement := by
  rw [terminated] at reads
  rcases reads_bind.mp reads with ⟨statement, middle, read, continued⟩
  rcases reads_bind.mp continued with ⟨eaten, _, ate, ended⟩
  rcases reads_pure.mp ended with ⟨-, rfl, rfl⟩
  rcases simple _ _ read with ⟨tokens, taken, phrased⟩
  rcases sound_eat (by decide) _ _ _ ate with ⟨ending, endingTaken, ends⟩
  refine ⟨statement, tokens ++ ending, rfl, ?_, .simple phrased ends⟩
  rw [taken, endingTaken, List.append_assoc]

/-! ## Compound statements -/

/--
If a rule goes on behind a closing word without a report, the word was ahead.
-/
theorem reads_close_bind
    {β : Type}
    {closer opener : TokenKind}
    {continuation : Unit → Rule β}
    {result : β}
    {state next : State}
    (reads : Reads (close closer opener >>= continuation) state result next) :
    state.kind = closer ∧
    Reads (continuation ()) state.advance result next := by
  rcases reads_bind.mp reads with ⟨_, middle, closed, continued⟩
  rw [close, reads_eat_ite] at closed
  rcases closed with ⟨same, ended⟩ | ⟨-, unclosed⟩
  · rcases reads_pure.mp ended with ⟨-, -, rfl⟩
    exact ⟨same, continued⟩
  · rw [reads_ask_bind, unclosed.calm.whole, if_neg Bool.false_ne_true]
      at unclosed
    exact absurd unclosed not_reads_reportHere

variable {block : List TokenKind → Rule Block} {blockPhrase : Phrase Block}

/-- What is read as an arm is a condition, an optional `THEN`, and a block. -/
theorem sound_arm
    (sound : Sound expression phrase)
    (soundBlock : ∀ closers, Sound (block closers) blockPhrase)
    {start : Nat}
    {state next : State}
    {made : Arm}
    (reads : Reads (arm expression block start) state made next) :
    ∃ tokens thenTokens inner hasThen,
      state.rest = tokens ++ (thenTokens ++ (inner ++ next.rest)) ∧
        phrase tokens made.condition ∧
          OptionalToken [.thenWord] thenTokens hasThen ∧
          blockPhrase inner made.block := by
  rw [arm] at reads
  rcases reads_bind.mp reads with ⟨condition, _, read, afterCondition⟩
  rcases reads_bind.mp afterCondition with ⟨hasThen, _, ate, afterThen⟩
  rcases reads_bind.mp afterThen with ⟨positive, _, blockRead, ended⟩
  rcases reads_pure.mp ended with ⟨-, rfl, rfl⟩
  rcases sound _ _ _ read with ⟨tokens, taken, phrased⟩
  rcases sound_eat (by decide) _ _ _ ate with ⟨thenTokens, thenTaken, thens⟩
  rcases soundBlock _ _ _ _ blockRead with ⟨inner, innerTaken, positives⟩
  refine ⟨tokens, thenTokens, inner, hasThen, ?_, phrased, thens, positives⟩
  rw [taken, thenTaken, innerTaken]

/--
The further arms and the last block make one alternative, from the inside out.
-/
theorem sound_alternative
    (sound : Sound expression phrase)
    (soundBlock : ∀ closers, Sound (block closers) blockPhrase)
    (reached : Nat)
    (arms : List Arm) :
    ∀ {state middle next : State} {last? : Option Block},
      Reads (many (furtherArm? expression block)) state arms middle →
        Reads (optionalAfter .elseWord (block [.endIf])) middle last? next →
          ∃ tokens, state.rest = tokens ++ next.rest ∧
            AlternativePhrase phrase blockPhrase tokens
              (arms.foldr (Arm.nest reached) last?) := by
  induction arms with
  | nil =>
      intro state middle next last? looped lastRead
      rcases reads_many_nil.mp looped with ⟨-, -, rfl⟩
      rcases (soundBlock [.endIf]).optionalAfter (by decide) _ _ _ lastRead with
        ⟨tokens, taken, phrased⟩
      refine ⟨tokens, taken, ?_⟩
      cases phrased with
      | absent => exact .nothing
      | present words after => exact .otherwise words after
  | cons made arms hypothesis =>
      intro state middle next last? looped lastRead
      rcases reads_many_cons.mp looped with
        ⟨token, rest, rule, between, shape, opened, once, again⟩
      unfold furtherArm? at opened
      split at opened
      · next words =>
          cases opened
          rcases sound_arm sound soundBlock once with
            ⟨tokens, thenTokens, inner, hasThen, taken, conditions,
              thens, positives⟩
          rcases hypothesis again lastRead
            with ⟨others, othersTaken, alternatives⟩
          refine ⟨token :: (tokens ++ (thenTokens ++ (inner ++ others))), ?_,
            .further words conditions thens positives alternatives _ _⟩
          rw [shape, ← State.rest_advance shape, taken, othersTaken]
          simp
      · cases opened

/--
What is read from `IF` on is a conditional, with its further arms
nested in one another.
-/
theorem sound_conditional
    (sound : Sound expression phrase)
    (soundBlock : ∀ closers, Sound (block closers) blockPhrase)
    {state next : State}
    {statement : Stmt}
    (words : state.kind = .ifWord)
    (reads : Reads (conditional expression block) state statement next) :
    ∃ tokens, state.rest = tokens ++ next.rest ∧
      StatementFormPhrase phrase blockPhrase tokens statement := by
  rw [conditional, reads_advance_bind] at reads
  rcases reads_bind.mp reads with ⟨first, _, firstRead, afterFirst⟩
  rcases reads_bind.mp afterFirst with ⟨arms, _, looped, afterArms⟩
  rcases reads_bind.mp afterArms with ⟨last?, last, lastRead, afterLast⟩
  rw [reads_ask_bind] at afterLast
  rcases reads_close_bind afterLast with ⟨closes, ended⟩
  rw [spanFrom, reads_ask_bind, reads_pure] at ended
  rcases ended with ⟨-, rfl, rfl⟩
  rcases sound_arm sound soundBlock firstRead with
    ⟨tokens, thenTokens, inner, hasThen, taken, conditions, thens, positives⟩
  rcases sound_alternative sound soundBlock last.reached arms looped lastRead
    with
      ⟨others, othersTaken, alternatives⟩
  refine ⟨_, ?_, .conditional words conditions thens positives
    alternatives closes _⟩
  rw [State.rest_of_kind words (by decide), taken, othersTaken,
    State.rest_of_kind closes (by decide)]
  simp

/-- What may stand behind a condition is one word, or nothing. -/
theorem sound_trailingDo :
    Sound trailingDo (fun tokens _ =>
      ∃ present, OptionalToken [.doWord] tokens present) := by
  intro state _ next reads
  rw [trailingDo, reads_ask_bind, reads_ask_bind] at reads
  split at reads
  · next isDo =>
      rw [reads_advance_bind, reads_pure] at reads
      rcases reads with ⟨-, -, rfl⟩
      exact ⟨[state.current], State.rest_of_kind isDo.1 (by decide), true,
        .present (List.mem_singleton.mpr isDo.1)⟩
  · rcases reads_pure.mp reads with ⟨-, -, rfl⟩
    exact ⟨[], rfl, false, .absent⟩

/--
A loop with a condition opens with its word, or with a `DO` before the word.
-/
theorem kind_of_eatDo
    {state opened : State}
    {hasDo : Bool}
    (words : state.kind = .whileWord ∨ state.kind = .doWord ∧
      state.secondKind = .whileWord)
    (ate : Reads (eat .doWord) state hasDo opened) :
    opened.kind = .whileWord := by
  rcases reads_eat.mp ate with ⟨-, ⟨isDo, -, rfl⟩ | ⟨noDo, -, rfl⟩⟩
  · rw [State.kind_advance]
    rcases words with isWhile | isDoWhile
    · rw [isWhile] at isDo
      cases isDo
    · exact isDoWhile.2
  · rcases words with isWhile | isDoWhile
    · exact isWhile
    · exact absurd isDoWhile.1 noDo

/-- What is read from `WHILE` or `DO WHILE` on is a loop with a condition. -/
theorem sound_whileLoop
    (sound : Sound expression phrase)
    (soundBlock : ∀ closers, Sound (block closers) blockPhrase)
    {state next : State}
    {statement : Stmt}
    (words : state.kind = .whileWord ∨ state.kind = .doWord ∧
      state.secondKind = .whileWord)
    (reads : Reads (whileLoop expression block) state statement next) :
    ∃ tokens, state.rest = tokens ++ next.rest ∧
      StatementFormPhrase phrase blockPhrase tokens statement := by
  rw [whileLoop, reads_ask_bind] at reads
  rcases reads_bind.mp reads with ⟨hasDo, opened, ate, afterDo⟩
  have word := kind_of_eatDo words ate
  rw [reads_advance_bind] at afterDo
  rcases reads_bind.mp afterDo with ⟨condition, _, read, afterCondition⟩
  rcases reads_bind.mp afterCondition with ⟨_, _, trailing, afterTrailing⟩
  rcases reads_bind.mp afterTrailing with ⟨body, _, blockRead, afterBody⟩
  rcases reads_close_bind afterBody with ⟨closes, ended⟩
  rw [spanFrom, reads_ask_bind, reads_pure] at ended
  rcases ended with ⟨-, rfl, rfl⟩
  rcases sound_eat (by decide) _ _ _ ate with ⟨before, beforeTaken, dosBefore⟩
  rcases sound _ _ _ read with ⟨tokens, taken, conditions⟩
  rcases sound_trailingDo _ _ _ trailing with ⟨after, afterTaken, _, dosAfter⟩
  rcases soundBlock _ _ _ _ blockRead with ⟨inner, innerTaken, bodies⟩
  refine ⟨_, ?_, .whileLoop dosBefore word conditions dosAfter bodies closes _⟩
  rw [beforeTaken, State.rest_of_kind word (by decide), taken,
    afterTaken, innerTaken, State.rest_of_kind closes (by decide)]
  simp

/--
If a counting loop goes on behind the sign of its counter without a report,
one of the two signs was ahead.
-/
theorem reads_counterSign_bind
    {β : Type}
    {continuation : Unit → Rule β}
    {result : β}
    {state next : State}
    (reads : Reads (counterSign >>= continuation) state result next) :
    (state.kind = .assign ∨ state.kind = .equal) ∧
      Reads (continuation ()) state.advance result next := by
  rcases reads_bind.mp reads with ⟨_, middle, signed, continued⟩
  rw [counterSign, reads_eat_ite, reads_eat_ite] at signed
  rcases signed with ⟨assigns, ended⟩ | ⟨-, ⟨equals, ended⟩ | ⟨-, failed⟩⟩
  · rcases reads_pure.mp ended with ⟨-, -, rfl⟩
    exact ⟨Or.inl assigns, continued⟩
  · rcases reads_pure.mp ended with ⟨-, -, rfl⟩
    exact ⟨Or.inr equals, continued⟩
  · exact absurd failed not_reads_fail

/--
The name that is taken behind `NEXT` is the counter again, in
any case of letters.
-/
theorem sound_counterAgain (counter : Identifier) :
    Sound (counterAgain counter)
      (fun tokens _ => CounterAgain counter tokens) := by
  intro state _ next reads
  rw [counterAgain, reads_ask_bind] at reads
  split at reads
  · next again =>
      rw [reads_advance_bind, reads_pure] at reads
      rcases reads with ⟨-, -, rfl⟩
      exact ⟨[state.current], State.rest_of_kind again.1 (by decide),
        .present again.1 again.2⟩
  · rcases reads_pure.mp reads with ⟨-, -, rfl⟩
    exact ⟨[], rfl, .absent⟩

/--
A counting loop is closed by its word, behind which its
counter may stand once more.
-/
theorem sound_closeFor
    {counter : Identifier}
    {state next : State}
    (reads : Reads (closeFor counter) state () next) :
    ∃ again, state.kind = .next ∧ state.advance.rest = again ++ next.rest ∧
      CounterAgain counter again := by
  rw [closeFor, reads_eat_ite] at reads
  rcases reads with ⟨closes, continued⟩ | ⟨-, unclosed⟩
  · rcases sound_counterAgain counter _ _ _ continued
      with ⟨again, taken, counters⟩
    exact ⟨again, closes, taken, counters⟩
  · rw [reads_ask_bind, unclosed.calm.whole, if_neg Bool.false_ne_true]
      at unclosed
    exact absurd unclosed not_reads_reportHere

/-- What is read from `FOR` on is a counting loop. -/
theorem sound_forLoop
    (sound : Sound expression phrase)
    (soundBlock : ∀ closers, Sound (block closers) blockPhrase)
    {state next : State}
    {statement : Stmt}
    (words : state.kind = .forWord)
    (reads : Reads (forLoop expression block) state statement next) :
    ∃ tokens, state.rest = tokens ++ next.rest ∧
      StatementFormPhrase phrase blockPhrase tokens statement := by
  rw [forLoop, reads_advance_bind, reads_expectName_bind] at reads
  rcases reads with ⟨named, afterName⟩
  rcases reads_counterSign_bind afterName with ⟨signs, afterSign⟩
  rcases reads_bind.mp afterSign with ⟨first, _, firstRead, afterFirst⟩
  rw [reads_expect_bind] at afterFirst
  rcases afterFirst with ⟨tos, afterTo⟩
  rcases reads_bind.mp afterTo with ⟨last, _, lastRead, afterLast⟩
  rcases reads_bind.mp afterLast with ⟨step?, _, stepRead, afterStep⟩
  rcases reads_bind.mp afterStep with ⟨body, _, blockRead, afterBody⟩
  rcases reads_bind.mp afterBody with ⟨_, _, closed, ended⟩
  rw [spanFrom, reads_ask_bind, reads_pure] at ended
  rcases ended with ⟨-, rfl, rfl⟩
  rcases sound _ _ _ firstRead with ⟨firsts, firstTaken, begins⟩
  rcases sound _ _ _ lastRead with ⟨lasts, lastTaken, ends⟩
  rcases sound.optionalAfter (by decide) _ _ _ stepRead
    with ⟨steps, stepTaken, stepped⟩
  rcases soundBlock _ _ _ _ blockRead with ⟨inner, innerTaken, bodies⟩
  rcases sound_closeFor closed with ⟨again, closes, againTaken, counters⟩
  refine ⟨_, ?_, .forLoop words (.name named _) signs begins tos ends stepped
    bodies closes
    counters _⟩
  rw [State.rest_of_kind words (by decide),
    State.rest_of_kind named (by decide), State.rest_of_either signs (by decide)
      (by decide), firstTaken, State.rest_of_kind tos (by decide), lastTaken,
    stepTaken, innerTaken, State.rest_of_kind closes (by decide), againTaken]
  simp

/-! ## Routines -/

theorem opensRoutine_rest (state : State) :
    opensRoutine state.rest =
      (isRoutineWord state.kind ||
        (state.kind == .static && isRoutineWord state.secondKind)) := by
  rcases state with ⟨_ | ⟨token, _ | ⟨next, others⟩⟩, _, _, _, _, _, _⟩
  · rfl
  · simp [opensRoutine, State.kind, State.current, State.secondKind,
      isRoutineWord]
  · rfl

theorem routineWord_of_isRoutineWord
    {kind : TokenKind}
    (isWord : isRoutineWord kind = true) :
    kind = routineWord
      (if kind = .function then .function else .procedure) := by
  by_cases isFunction : kind = .function
  · rw [if_pos isFunction, isFunction, routineWord]
  · rw [if_neg isFunction, routineWord]
    simpa [isRoutineWord, isFunction] using isWord

/-- A routine opens with its word, or with a `STATIC` before the word. -/
theorem isRoutineWord_of_eatStatic
    {state opened : State}
    {isStatic : Bool}
    (opens : opensRoutine state.rest = true)
    (ate : Reads (eat .static) state isStatic opened) :
    isRoutineWord opened.kind = true := by
  rw [opensRoutine_rest, Bool.or_eq_true, Bool.and_eq_true, beq_iff_eq] at opens
  rcases reads_eat.mp ate with ⟨-, ⟨statics, -, rfl⟩ | ⟨noStatic, -, rfl⟩⟩
  · rw [State.kind_advance]
    rcases opens with isWord | isStatic
    · rw [statics] at isWord
      cases isWord
    · exact isStatic.2
  · rcases opens with isWord | isStatic
    · exact isWord
    · exact absurd isStatic.1 noStatic

theorem rest_of_isRoutineWord
    {state : State}
    (isWord : isRoutineWord state.kind = true) :
    state.rest = state.current :: state.advance.rest := by
  refine State.rest_of_kind rfl ?_
  intro ended
  rw [ended] at isWord
  cases isWord

/--
What is read as parameters is a list of names between parentheses, or nothing.
-/
theorem sound_parameters : Sound parameters ParametersPhrase := by
  intro state names next reads
  rw [parameters, reads_eat_ite] at reads
  rcases reads with ⟨opens, continued⟩ | ⟨-, ended⟩
  · rcases (Sound.expectName .openingParenthesis).enclosed
      (by decide) _ _ _ _ continued with
        ⟨_, taken, tokens, closing, rfl, between, closes⟩
    refine ⟨_, ?_, .present opens between closes⟩
    rw [State.rest_of_kind opens (by decide), taken]
    simp
  · rcases reads_pure.mp ended with ⟨-, rfl, rfl⟩
    exact ⟨[], rfl, .absent⟩

/-- What closes a routine is one of the two words for it, or nothing. -/
theorem sound_closeRoutine :
    Sound closeRoutine
      (fun tokens _ => ∃ present, OptionalToken [.endFunction, .endProcedure]
        tokens present) := by
  intro state _ next reads
  rw [closeRoutine, reads_eat_ite] at reads
  rcases reads with ⟨ends, ended⟩ | ⟨-, continued⟩
  · rcases reads_pure.mp ended with ⟨-, -, rfl⟩
    have kind : state.current.kind = .endFunction := ends
    exact ⟨[state.current], State.rest_of_kind ends (by decide), true,
      .present (by simp [kind])⟩
  · rcases reads_bind.mp continued with ⟨eaten, _, ate, ended⟩
    rcases reads_pure.mp ended with ⟨-, -, rfl⟩
    rcases sound_eat (by decide) _ _ _ ate with ⟨tokens, taken, phrased⟩
    refine ⟨tokens, taken, eaten, ?_⟩
    cases phrased with
    | absent => exact .absent
    | present kind => exact .present (List.mem_cons_of_mem _ kind)

/--
What is read at the head of a routine is a routine, with its
closing word or without.
-/
theorem sound_routine
    (soundBlock : ∀ closers, Sound (block closers) blockPhrase)
    {state next : State}
    {statement : Stmt}
    (opens : opensRoutine state.rest = true)
    (reads : Reads (routine block) state statement next) :
    ∃ tokens, state.rest = tokens ++ next.rest ∧
      RoutineFormPhrase blockPhrase tokens statement := by
  rw [routine, reads_ask_bind] at reads
  rcases reads_bind.mp reads with ⟨isStatic, opened, ate, afterStatic⟩
  have isWord := isRoutineWord_of_eatStatic opens ate
  have word := routineWord_of_isRoutineWord isWord
  have opening := rest_of_isRoutineWord isWord
  rw [reads_advance_bind, reads_expectName_bind] at afterStatic
  rcases afterStatic with ⟨named, afterName⟩
  rcases reads_bind.mp afterName with ⟨names, _, namesRead, afterNames⟩
  rcases reads_bind.mp afterNames with ⟨body, _, blockRead, afterBody⟩
  rcases reads_bind.mp afterBody with ⟨_, _, closed, ended⟩
  rw [spanFrom, reads_ask_bind, reads_pure] at ended
  rcases ended with ⟨-, rfl, rfl⟩
  rcases sound_eat (by decide) _ _ _ ate with ⟨before, beforeTaken, statics⟩
  rcases sound_parameters _ _ _ namesRead with ⟨tokens, taken, parameterized⟩
  rcases soundBlock _ _ _ _ blockRead with ⟨inner, innerTaken, bodies⟩
  rcases sound_closeRoutine _ _ _ closed with ⟨ending, endTaken, _, ends⟩
  refine ⟨_, ?_, .routine statics word (.name named _) parameterized
    bodies ends _⟩
  rw [beforeTaken, opening, State.rest_of_kind named (by decide), taken,
    innerTaken, endTaken]
  simp

/-! ## Statements -/

/-- What is ahead where a statement of a form begins. -/
def StatementForm.Ahead (state : State) : StatementForm → Prop
  | .empty => state.kind = .semicolon
  | .strayCloser | .expression => True
  | .conditional => state.kind = .ifWord
  | .whileLoop =>
      state.kind = .whileWord ∨ state.kind = .doWord ∧
      state.secondKind = .whileWord
  | .forLoop => state.kind = .forWord
  | .routine => opensRoutine state.rest = true
  | .declaration => state.kind = .localWord ∨ state.kind = .static
  | .result => state.kind = .returnWord
  | .control => state.kind = .exit ∨ state.kind = .loop
  | .print => state.kind = .question ∨ state.kind = .doubleQuestion

/--
The form of a statement says what is ahead: this is how the first tokens
are known in each case.
-/
theorem StatementForm.ahead_of (state : State) :
    (StatementForm.of state).Ahead state := by
  have routineAhead (isWord : isRoutineWord state.kind = true) :
      opensRoutine state.rest = true := by
    rw [opensRoutine_rest, isWord, Bool.true_or]
  unfold StatementForm.of
  split
  case h_11 isDo =>
    split
    · next isWhile => exact Or.inr ⟨isDo, isWhile⟩
    · trivial
  case h_15 isStatic =>
    split
    · next opens => exact opens
    · exact Or.inr isStatic
  all_goals
    next kind =>
      first
      | trivial
      | exact kind
      | exact Or.inl kind
      | exact Or.inr kind
      | (apply routineAhead; rw [kind]; rfl)

/--
What one round of the loop over statements
takes, and the statement it makes, if any.
-/
inductive ItemPhrase (statement : Phrase Stmt) :
    List Token → Option Stmt → Prop where
  | semicolon
      {token : Token}
      (kind : token.kind = .semicolon) :
      ItemPhrase statement [token] none
  | statement
      {tokens : List Token}
      {made : Stmt}
      (only : statement tokens made) :
      ItemPhrase statement tokens (some made)

theorem ItemPhrase.mono
    {statement other : Phrase Stmt}
    (implies : ∀ tokens made, statement tokens made → other tokens made)
    {tokens : List Token}
    {made? : Option Stmt}
    (phrased : ItemPhrase statement tokens made?) :
    ItemPhrase other tokens made? := by
  cases phrased with
  | semicolon kind => exact .semicolon kind
  | statement only => exact .statement (implies _ _ only)

/-- A round takes a statement, or a routine where a routine opens. -/
def ItemRead
    (statement routine : Phrase Stmt)
    (state : State)
    (made? : Option Stmt)
    (next : State) : Prop :=
  ∃ tokens, state.rest = tokens ++ next.rest ∧
    (ItemPhrase statement tokens made? ∨
      opensRoutine state.rest = true ∧ ItemPhrase routine tokens made?)

/-- A simple statement that was read has its tokens and ends with its line. -/
theorem itemRead_simple
    {routine : Phrase Stmt}
    {rule : Rule Stmt}
    {state next : State}
    {made? : Option Stmt}
    (sound :
      ∀ statement middle, Reads rule state statement middle →
        ∃ tokens, state.rest = tokens ++ middle.rest ∧
          SimplePhrase phrase tokens statement)
    (reads : Reads (terminated rule) state made? next) :
    ItemRead (StatementFormPhrase phrase blockPhrase) routine state
      made? next := by
  rcases sound_terminated sound reads
    with ⟨statement, tokens, rfl, taken, phrased⟩
  exact ⟨tokens, taken, Or.inl (.statement phrased)⟩

/--
A statement that closes itself has its tokens; no end of the
line is needed behind it.
-/
theorem itemRead_compound
    {statement routine : Phrase Stmt}
    {rule : Rule Stmt}
    {state next : State}
    {made? : Option Stmt}
    (sound :
      ∀ made, Reads rule state made next →
        ∃ tokens, state.rest = tokens ++ next.rest ∧ statement tokens made)
    (reads : Reads (some <$> rule) state made? next) :
    ItemRead statement routine state made? next := by
  rcases reads_map.mp reads with ⟨made, read, rfl⟩
  rcases sound made read with ⟨tokens, taken, phrased⟩
  exact ⟨tokens, taken, Or.inl (.statement phrased)⟩

/-- A statement of any form; it is a routine only where a routine opens. -/
theorem sound_statementOf
    (sound : Sound expression phrase)
    (soundBlock : ∀ closers, Sound (block closers) blockPhrase)
    {state next : State}
    {made? : Option Stmt}
    (reads : Reads (statementOf expression block) state made? next) :
    ItemRead (StatementFormPhrase phrase blockPhrase)
      (RoutineFormPhrase blockPhrase) state made?
      next := by
  rw [statementOf, reads_recovered_bind, reads_ask_bind] at reads
  have ahead := StatementForm.ahead_of state
  cases form : StatementForm.of state with
  | empty =>
      rw [form] at reads ahead
      rw [statementOfForm, reads_advance_bind, reads_pure] at reads
      rcases reads with ⟨-, rfl, rfl⟩
      exact ⟨[state.current], State.rest_of_kind ahead (by decide),
        Or.inl (.semicolon ahead)⟩
  | strayCloser =>
      rw [form, statementOfForm, strayCloser, reads_ask_bind] at reads
      rcases reads_bind.mp reads with ⟨_, _, reported, -⟩
      exact absurd reported not_reads_reportHere
  | conditional =>
      rw [form] at reads ahead
      exact itemRead_compound
        (fun _ read => sound_conditional sound soundBlock ahead read) reads
  | whileLoop =>
      rw [form] at reads ahead
      exact itemRead_compound
        (fun _ read => sound_whileLoop sound soundBlock ahead read) reads
  | forLoop =>
      rw [form] at reads ahead
      exact itemRead_compound
        (fun _ read => sound_forLoop sound soundBlock ahead read) reads
  | routine =>
      rw [form] at reads ahead
      rcases reads_map.mp reads with ⟨statement, read, rfl⟩
      rcases sound_routine soundBlock ahead read with ⟨tokens, taken, phrased⟩
      exact ⟨tokens, taken, Or.inr ⟨ahead, .statement phrased⟩⟩
  | declaration =>
      rw [form] at reads ahead
      exact itemRead_simple (fun _ _ read => sound_declaration sound ahead read)
        reads
  | result =>
      rw [form] at reads ahead
      exact itemRead_simple
        (fun _ _ read => sound_resultStatement sound ahead read) reads
  | control =>
      rw [form] at reads ahead
      exact itemRead_simple (fun _ _ read => sound_loopControl ahead read) reads
  | print =>
      rw [form] at reads ahead
      exact itemRead_simple
        (fun _ _ read => sound_printStatement sound ahead read) reads
  | expression =>
      rw [form] at reads
      exact itemRead_simple (sound_expressionStatement sound state) reads

end

/-! ## Blocks -/

/--
The loop over statements takes statements and lone
semicolons, and stops where the file ends or the loop
closes.  As every round takes a token, none is dropped.
-/
theorem sound_sequence
    {closes : State → Bool}
    {item : Rule (Option Stmt)}
    {phrase : Phrase Stmt}
    (nonempty : ∀ tokens statement, phrase tokens statement → tokens ≠ [])
    (round :
      ∀ {state made? next}, closes state = false → Reads item state made? next →
        ∃ tokens, state.rest = tokens ++ next.rest ∧
          ItemPhrase phrase tokens made?)
    {state next : State}
    {statements : List Stmt}
    (reads : Reads (sequence closes item) state statements next) :
    ∃ tokens, state.rest = tokens ++ next.rest ∧
      StatementsPhrase phrase tokens statements ∧
      (next.rest = [] ∨ closes next = true) := by
  induction bound : state.rest.length using Nat.strongRecOn
    generalizing state statements with
  | ind length hypothesis =>
      rcases reads.of_sequence with
        ⟨ended, rfl, rfl⟩ | ⟨made?, middle, others, opened, once, again, rfl⟩
      · exact ⟨[], rfl, .none, ended⟩
      · rcases round opened once with ⟨tokens, taken, phrased⟩
        have some : tokens ≠ [] := by
          cases phrased with
          | semicolon => exact List.cons_ne_nil _ _
          | statement only => exact nonempty _ _ only
        have shorter : middle.rest.length < state.rest.length := by
          rw [taken, List.length_append]
          exact Nat.lt_add_of_pos_left (List.length_pos_iff.mpr some)
        have kept : state.forward middle = middle := by
          rw [State.forward, if_neg]
          intro same
          rw [eq_of_beq same] at shorter
          exact Nat.lt_irrefl _ shorter
        rw [kept] at again
        rcases hypothesis _ (bound ▸ shorter) again rfl
          with ⟨further, furtherTaken, all, ended⟩
        refine ⟨tokens ++ further, ?_, ?_, ended⟩
        · rw [taken, furtherTaken, List.append_assoc]
        · cases phrased with
          | semicolon kind => exact .semicolon kind all
          | statement only => exact .further only all

theorem sound_blockTooDeep : Sound blockTooDeep .never := by
  intro state block next reads
  rw [blockTooDeep, reads_ask_bind] at reads
  rcases reads_bind.mp reads with ⟨_, _, cut, -⟩
  exact absurd cut not_reads_cutOff

/-- A block ends before a routine, so no statement in it is one. -/
theorem sound_blockOf
    {statement : Rule (Option Stmt)}
    {phrase routinePhrase : Phrase Stmt}
    (nonempty : ∀ tokens made, phrase tokens made → tokens ≠ [])
    (sound :
      ∀ {state made? next}, Reads statement state made? next →
        ItemRead phrase routinePhrase state made? next)
    (closers : List TokenKind) :
    Sound (blockOf statement closers) (BlockFormPhrase phrase) := by
  intro state block next reads
  rw [blockOf, reads_ask_bind] at reads
  rcases reads_bind.mp reads with ⟨statements, _, looped, continued⟩
  rw [reads_recovered_bind, spanFrom, reads_ask_bind, reads_pure] at continued
  rcases continued with ⟨-, rfl, rfl⟩
  have round {state : State} {made? : Option Stmt} {next : State}
      (inside : endsBlock closers state = false)
      (read : Reads statement state made? next) :
      ∃ tokens, state.rest = tokens ++ next.rest ∧
        ItemPhrase phrase tokens made? := by
    rw [endsBlock, Bool.or_eq_false_iff] at inside
    rcases sound read with ⟨tokens, taken, phrased | ⟨opens, -⟩⟩
    · exact ⟨tokens, taken, phrased⟩
    · rw [inside.2] at opens
      cases opens
  rcases sound_sequence nonempty round looped with ⟨tokens, taken, phrased, -⟩
  exact ⟨tokens, taken, .block phrased _⟩

/-- A simple statement has a token. -/
theorem nonempty_simple
    {expression : Phrase Expr}
    (nonempty : ∀ tokens tree, expression tokens tree → tokens ≠ [])
    {tokens : List Token}
    {statement : Stmt}
    (phrased : SimplePhrase expression tokens statement) :
    tokens ≠ [] := by
  cases phrased with
  | expression only => exact nonempty _ _ only
  | assign | update =>
      exact List.append_ne_nil_of_right_ne_nil _ (List.cons_ne_nil _ _)
  | _ => exact List.cons_ne_nil _ _

/-- A statement of any form has a token. -/
theorem nonempty_statementForm
    {expression : Phrase Expr}
    {block : Phrase Block}
    (nonempty : ∀ tokens tree, expression tokens tree → tokens ≠ [])
    {tokens : List Token}
    {statement : Stmt}
    (phrased : StatementFormPhrase expression block tokens statement) :
    tokens ≠ [] := by
  cases phrased with
  | simple simple =>
      exact List.append_ne_nil_of_left_ne_nil
        (nonempty_simple nonempty simple) _
  | whileLoop =>
      exact List.append_ne_nil_of_right_ne_nil _ (List.cons_ne_nil _ _)
  | conditional | forLoop => exact List.cons_ne_nil _ _

/--
A statement has a token, so the loop over statements takes one in every round.
-/
theorem nonempty_statement
    (levels : Nat)
    (tokens : List Token)
    (statement : Stmt)
    (phrased : StatementPhrase levels tokens statement) :
    tokens ≠ [] := by
  have nonempty (levels : Nat) (tokens : List Token) (tree : Expr)
      (phrased : ExpressionPhrase levels tokens tree) :
      tokens ≠ [] :=
    (begins_expression levels tokens tree phrased).1
  cases levels with
  | zero => exact nonempty_statementForm (nonempty 0) phrased
  | succ levels => exact nonempty_statementForm (nonempty (levels + 1)) phrased

theorem nonempty_routineForm
    {block : Phrase Block}
    {tokens : List Token}
    {statement : Stmt}
    (phrased : RoutineFormPhrase block tokens statement) :
    tokens ≠ [] := by
  cases phrased with
  | routine => exact List.append_ne_nil_of_right_ne_nil _ (List.cons_ne_nil _ _)

/-- What is read as a statement without a report spells the statement. -/
theorem sound_statement (levels : Nat) :
    ∀ {state : State} {made? : Option Stmt} {next : State},
      Reads (statement levels) state made? next →
        ItemRead (StatementPhrase levels)
          (RoutineFormPhrase (BlockPhrase levels)) state made?
          next := by
  induction levels with
  | zero =>
      intro state made? next reads
      exact sound_statementOf (sound_expression 0)
        (fun _ => sound_blockTooDeep) reads
  | succ levels hypothesis =>
      intro state made? next reads
      exact sound_statementOf (sound_expression (levels + 1))
        (sound_blockOf (nonempty_statement levels) hypothesis) reads

/-! ## Programs -/

/-- What is read without a report is read from the first token on. -/
theorem reads_of_clean
    {tokens : List Token}
    (clean : (readProgram tokens).reports = []) :
    ∃ next,
      Reads (sequence (fun _ => false) (statement nestingLimit))
        (State.ofTokens tokens) (readProgram tokens).value.statements next :=
  ⟨_, State.calm_ofTokens tokens, rfl, List.reverse_eq_nil_iff.mp clean⟩

/--
What is read is the statements up to the end, with the reports that were made.
-/
theorem readProgram_of_run
    {tokens : List Token}
    {statements : List Stmt}
    {next : State}
    (run :
      (sequence (fun _ => false) (statement nestingLimit)).run
        (State.ofTokens tokens) =
          (statements, next)) :
    (readProgram tokens).reports = next.reports.reverse ∧
      (readProgram tokens).value.statements = statements := by
  have whole : program.run (State.ofTokens tokens) = _ := congrArg
    (fun made : List Stmt × State =>
      (Program.mk made.1 ⟨0, made.2.current.span.stop⟩, made.2)) run
  rw [readProgram, Rule.readTokens, whole]
  exact ⟨rfl, rfl⟩

/--
When nothing is reported, the tokens before the first end of the file spell the
program that is read: each of them has its place in a statement, in order.
-/
theorem readProgram_sound
    (tokens : List Token)
    (clean : (readProgram tokens).reports = []) :
    ProgramPhrase (tokens.takeWhile (fun token => token.kind != .endOfFile))
      (readProgram tokens).value.statements := by
  have reads : Reads (sequence (fun _ => false) (statement nestingLimit))
      (State.ofTokens tokens) (readProgram tokens).value.statements
      ((sequence (fun _ => false) (statement nestingLimit)).run
        (State.ofTokens tokens)).2 :=
    ⟨State.calm_ofTokens tokens, rfl, List.reverse_eq_nil_iff.mp clean⟩
  have nonempty (tokens : List Token) (statement : Stmt)
      (phrased : StatementPhrase nestingLimit tokens statement ∨
        RoutineFormPhrase (BlockPhrase nestingLimit) tokens statement) :
      tokens ≠ [] := by
    rcases phrased with isStatement | isRoutine
    · exact nonempty_statement nestingLimit _ _ isStatement
    · exact nonempty_routineForm isRoutine
  have round {state : State} {made? : Option Stmt} {next : State}
      (_ : false = false)
      (read : Reads (statement nestingLimit) state made? next) :
      ∃ tokens, state.rest = tokens ++ next.rest ∧
        ItemPhrase
          (fun tokens statement =>
            StatementPhrase nestingLimit tokens statement ∨
              RoutineFormPhrase (BlockPhrase nestingLimit) tokens statement)
          tokens made? := by
    rcases sound_statement nestingLimit read
      with ⟨tokens, taken, phrased | ⟨-, phrased⟩⟩
    · exact ⟨tokens, taken,
        phrased.mono (fun _ _ isStatement => Or.inl isStatement)⟩
    · exact ⟨tokens, taken,
        phrased.mono (fun _ _ isRoutine => Or.inr isRoutine)⟩
  rcases sound_sequence nonempty round reads
    with ⟨taken, shape, phrased, atEnd | impossible⟩
  · have all : (State.ofTokens tokens).rest = taken := by
      rw [shape, atEnd, List.append_nil]
    rw [← all] at phrased
    exact phrased
  · cases impossible

/-- `WHILE n < 9`, `n += 1` and `ENDDO` are read without a report. -/
theorem readProgram_sound_whileLoop :
    let token := fun kind lexeme => Token.mk kind (Span.empty 0) lexeme
    let tokens :=
      [token .whileWord "WHILE", token .identifier "n", token .less "<",
        token .number "9", token .identifier "n", token .plusEqual "+=",
        token .number "1", token .endDo "ENDDO"]
    (readProgram tokens).reports = [] ∧
      ProgramPhrase tokens (readProgram tokens).value.statements := by
  intro token tokens
  have clean : (readProgram tokens).reports = [] := by decide +kernel
  exact ⟨clean, readProgram_sound tokens clean⟩

end Clipper.Grammar
