import Clipper.Proofs.Grammar.CompoundReading
import Clipper.Proofs.Grammar.StatementForms
import Clipper.Proofs.Grammar.TerminatedPhrase

/-!
# Terminated programs are read

Tokens that spell a terminated program are read without a report, and what is
read is the program, up to places.

A semicolon goes on with nothing, so each rule stops exactly where its phrase is
over. The statements of a block and of a program are read one after the other:
what is read of tokens that stand after a terminated statement is read with this
statement before it.

The proof goes through the forms of statements twice: for the phrases that
begin a block and for those behind one.  What decides a form is the first
token, or the first two, and the form of a terminated statement is therefore
known without a look at the rest of the program.
-/

namespace Clipper.Grammar

open Rule
open Relabelled (relabel)

/-! ## Forms -/

/--
The form of statement that a state has ahead is told by the first tokens of a
terminated statement, whatever comes behind it.
-/
theorem TerminatedForm.form_ahead
    {expression : Phrase Expr}
    {block : Phrase Block}
    (begins : Begins expression (fun kind => opensExpression kind = true))
    {tokens after : List Token}
    {statement : Stmt}
    (phrased : TerminatedForm expression block tokens statement)
    {state : State}
    (ahead : state.rest = tokens ++ after) :
    StatementForm.of state = statement.form := by
  have kind : state.kind = headKind (tokens ++ after) := by
    rw [State.kind_eq_headKind, ahead]
  cases phrased with
  | simple simple terminates =>
      rw [List.append_assoc] at ahead
      exact simple.form_ahead begins ahead
  | conditional words | forLoop words =>
      rw [StatementForm.of, kind, List.cons_append, headKind, words]
      rfl
  | whileLoop dosBefore words =>
      cases dosBefore with
      | absent =>
          rw [StatementForm.of, kind, List.nil_append, List.cons_append,
            headKind, words]
          rfl
      | present isDo =>
          have second : state.secondKind = .whileWord := by
            rw [State.secondKind, ahead]
            exact words
          rw [StatementForm.of, kind, List.singleton_append,
            List.cons_append, headKind, List.mem_singleton.mp isDo]
          exact if_pos second

/--
The tokens of a terminated routine begin as a routine does, with or without
the word for a static one.
-/
theorem opensRoutine_terminated
    {block : Phrase Block}
    {tokens after : List Token}
    {statement : Stmt}
    (phrased : TerminatedRoutine block tokens statement) :
    opensRoutine (tokens ++ after) = true := by
  cases phrased with
  | @routine word closing before names parameters inner kind isStatic name
      listed body statics words named =>
      have isWord : isRoutineWord word.kind = true := by
        rw [words]
        cases kind <;> rfl
      cases named with
      | name =>
          cases statics with
          | absent => simp [opensRoutine, isWord]
          | present isStatic =>
              simp [opensRoutine, List.mem_singleton.mp isStatic, isWord]

/-! ## One line after the other -/

section Lines

variable {levels : Nat} {closes : State → Bool} {others after : List Token}

/-- A semicolon alone is taken, and makes no statement. -/
theorem takes_empty
    {semicolon : Token}
    (kind : semicolon.kind = .semicolon) :
    Takes (statement levels) [semicolon] after (· = none) := by
  rw [statement_eq]
  refine takes_recovered_bind (takes_ask_bind fun state _ ahead => ?_)
  have isEmpty : StatementForm.of state = .empty := by
    rw [StatementForm.of, State.kind_of_rest ahead, kind]
  rw [isEmpty]
  exact takes_advance_bind (takes_pure rfl)

/-- A lone semicolon is passed over. -/
theorem takes_lines_semicolon
    (opened : ∀ state, StatementForm.of state = .empty → closes state = false)
    {semicolon : Token}
    (kind : semicolon.kind = .semicolon)
    {statements : List Stmt}
    (rest : Takes (sequence closes (statement levels)) others after
      (Alike statements)) :
    Takes (sequence closes (statement levels)) (semicolon :: others) after
      (Alike statements) := by
  have isOpen (state : State)
      (ahead : state.rest = [semicolon] ++ (others ++ after)) :
      closes state = false := by
    refine opened state ?_
    rw [StatementForm.of, State.kind_of_rest ahead, kind]
  have passed (value? : Option Stmt) (isNone : value? = none) :
      Takes (sequence closes (statement levels)) others after
        (fun values => Alike statements (value?.toList ++ values)) := by
    rw [isNone]
    exact rest
  exact takes_sequence_round (List.cons_ne_nil semicolon []) isOpen
    (takes_empty kind) passed

/--
A statement is taken in front of others if the sequence is
open at its first token.
-/
theorem takes_lines_cons
    {tokens : List Token}
    {first : Stmt}
    {statements : List Stmt}
    (nonempty : tokens ≠ [])
    (opened : ∀ state : State, state.rest = tokens ++ (others ++ after) →
      closes state = false)
    (takes : Takes (statement levels) tokens (others ++ after) first.Found)
    (rest : Takes (sequence closes (statement levels)) others after
      (Alike statements)) :
    Takes (sequence closes (statement levels)) (tokens ++ others) after
      (Alike (first :: statements)) :=
  takes_sequence_cons nonempty opened takes fun _ alike =>
    rest.mono fun _ same => congrArg₂ List.cons alike same

/-- A block and a program are not over before a statement that is no routine. -/
def OpenToStatements (closes : State → Bool) : Prop :=
  ∀ state, StatementForm.of state ≠ .strayCloser →
    StatementForm.of state ≠ .routine →
    closes state = false

theorem OpenToStatements.empty
    (opened : OpenToStatements closes)
    (state : State)
    (isEmpty : StatementForm.of state = .empty) :
    closes state = false := by
  refine opened state ?_ ?_
  · rw [isEmpty]
    exact StatementForm.noConfusion
  · rw [isEmpty]
    exact StatementForm.noConfusion

/--
A statement that is no routine is taken in front of others as soon as the rule
of its form takes it.
-/
theorem takes_lines_form
    (opened : OpenToStatements closes)
    {tokens : List Token}
    {first : Stmt}
    {statements : List Stmt}
    (nonempty : tokens ≠ [])
    (notRoutine : first.isRoutine = false)
    (formed :
      ∀ state : State, state.rest = tokens ++ (others ++ after) →
        StatementForm.of state = first.form)
    (takes :
      Takes (statementOfForm (expression levels) (blocks levels) first.form)
        tokens (others ++ after) first.Found)
    (rest : Takes (sequence closes (statement levels)) others after
      (Alike statements)) :
    Takes (sequence closes (statement levels)) (tokens ++ others) after
      (Alike (first :: statements)) := by
  refine takes_lines_cons nonempty
    (fun state ahead => opened state ?_ ?_) ?_ rest
  · rw [formed state ahead]
    exact first.form_ne_strayCloser
  · rw [formed state ahead]
    exact Stmt.form_ne_routine notRoutine
  · rw [statement_eq]
    exact takes_statementOf formed takes

/-- Before statements that are read, the tokens are read as this statement. -/
def Heads
    (levels : Nat)
    (closes : State → Bool)
    (tokens : List Token)
    (first : Stmt) :
    Prop :=
  ∀ ⦃others after : List Token⦄ ⦃rest : List Stmt⦄,
    Takes (sequence closes (statement levels)) others after (Alike rest) →
      Takes (sequence closes (statement levels)) (tokens ++ others) after
        (Alike (first :: rest))

/--
Terminated statements are taken one after the other, given that each of them
is.  What comes after them is read as if they were not there.
-/
theorem takes_lines
    (opened : ∀ state, StatementForm.of state = .empty → closes state = false)
    {phrase : Phrase Stmt}
    (heads : ∀ tokens statement, phrase tokens statement →
      Heads levels closes tokens statement)
    {tokens : List Token}
    {statements : List Stmt}
    (phrased : StatementsPhrase phrase tokens statements)
    (closed : ∀ state : State, state.rest = after →
      after = [] ∨ closes state = true) :
    Takes (sequence closes (statement levels)) tokens after
      (Alike statements) := by
  induction phrased with
  | none => exact takes_sequence_nil closed rfl
  | semicolon kind _ hypothesis =>
      exact takes_lines_semicolon opened kind hypothesis
  | further head _ hypothesis => exact heads _ _ head hypothesis

end Lines

/-! ## Statements and routines, given their blocks -/

theorem SemicolonPhrase.headKind_append
    {α : Type}
    {part : Phrase α}
    {tokens : List Token}
    {value : α}
    (phrased : SemicolonPhrase part tokens value)
    (others : List Token) :
    headKind (tokens ++ others) = .semicolon := by
  cases phrased with
  | semicolon kind => exact kind

/-- The rules for the blocks of these levels take the terminated blocks. -/
def BlocksRead (levels : Nat) : Prop :=
  ∀ ⦃tokens : List Token⦄ ⦃body : Block⦄, TerminatedBlock levels tokens body →
    ∀ ⦃closers : List TokenKind⦄, (∀ kind ∈ closers, kind.isCloser = true) →
      ∀ ⦃after : List Token⦄, closers.contains (headKind after) = true →
        Takes (blocks levels closers) tokens after (Alike body)

section Forms

variable {levels : Nat} (reads : BlocksRead levels)

include reads

/--
A block behind a semicolon is taken up to its closing word.  What comes before
it ends at the semicolon.
-/
theorem BlocksRead.semicolon
    {inner after : List Token}
    {body : Block}
    (phrased : SemicolonPhrase (TerminatedBlock levels) inner body)
    {closers : List TokenKind}
    (areClosers : ∀ kind ∈ closers, kind.isCloser = true)
    (closes : closers.contains (headKind after) = true) :
    Takes (blocks levels closers) inner after (Alike body) ∧
      EndsHead (headKind (inner ++ after)) := by
  refine ⟨reads (absorbs_terminatedBlock levels _ _ phrased) areClosers closes,
    ?_⟩
  rw [phrased.headKind_append]
  exact endsHead_semicolon

/--
What comes after the first arm of a conditional is taken.  The
induction follows the arms.
-/
theorem takes_alternative
    {tokens after : List Token}
    {negative? : Option Block}
    (phrased :
      TerminatedAlternative (ExpressionPhrase levels) (TerminatedBlock levels)
        tokens negative?)
    (closes : headKind after = .endIf) :
    TakesAlternative levels (blocks levels) tokens after negative? ∧
      [TokenKind.elseIf, .elseWord, .endIf].contains
      (headKind (tokens ++ after)) = true := by
  induction phrased with
  | nothing =>
      have ends (kind : TokenKind) (other : TokenKind.endIf ≠ kind) :
          headKind ([] ++ after) ≠ kind := by
        rw [List.nil_append, closes]
        exact other
      refine ⟨takesAlternative_last (ends _ TokenKind.noConfusion) ?_, ?_⟩
      · exact takes_optionalAfter_none (ends _ TokenKind.noConfusion) rfl
      · rw [List.nil_append, closes]
        rfl
  | @otherwise word tokens negative words negatives =>
      have atWord : headKind (word :: tokens ++ after) = .elseWord := words
      have inside := reads negatives
        (by decide : ∀ kind ∈ [TokenKind.endIf], kind.isCloser = true)
        (by rw [closes]; rfl : [TokenKind.endIf].contains
          (headKind after) = true)
      refine ⟨takesAlternative_last ?_ ?_, ?_⟩
      · rw [atWord]
        exact TokenKind.noConfusion
      · exact takes_optionalAfter words (inside.mono fun _ alike => alike.some)
      · rw [atWord]
        rfl
  | @further word tokens thenTokens inner others condition hasThen positive
      negative? words conditions thens positives _ span blockSpan hypothesis =>
      obtain ⟨rest, closesFirst⟩ := hypothesis
      obtain ⟨inside, ends⟩ := reads.semicolon positives (by decide) closesFirst
      have whole := takesAlternative_further words
        (takes_arm conditions thens ends inside) rest
        span blockSpan
      simp only [List.append_assoc] at whole
      refine ⟨whole, ?_⟩
      rw [List.cons_append, headKind, words]
      rfl

/-- A terminated statement is read before the statements that follow it. -/
theorem TerminatedForm.heads
    {tokens : List Token}
    {first : Stmt}
    (phrased : TerminatedForm (ExpressionPhrase levels) (TerminatedBlock levels)
      tokens first)
    {closes : State → Bool}
    (opened : OpenToStatements closes) :
    Heads levels closes tokens first := by
  intro others after rest takesRest
  have formed {first others : List Token}
      (split : tokens = first ++ others)
      (more : List Token)
      (state : State)
      (ahead : state.rest = first ++ (others ++ more)) :
      StatementForm.of state = _ :=
    phrased.form_ahead (begins_expression levels)
      (by rw [split, List.append_assoc]; exact ahead)
  cases phrased with
  | @simple semicolon tokens _ simple terminates =>
      have notRoutine : first.isRoutine = false := by cases simple <;> rfl
      have stops : first.StopsBefore
          (headKind (semicolon :: (others ++ after))) := by
        rw [headKind, terminates]
        exact first.stopsBefore_semicolon
      obtain ⟨rule, isRule, takes⟩ := simple.takes stops (blocks levels)
      have whole := takes_terminated_semicolon takes terminates
      rw [← isRule] at whole
      exact takes_lines_form opened (List.concat_ne_nil _ _) notRoutine
        (formed (List.append_nil _).symm _) whole takesRest
  | @conditional word closing tokens thenTokens inner arms _ _ _ _ words
      conditions thens positives alternatives closes span =>
      obtain ⟨further, atFurther⟩ := takes_alternative reads alternatives
        (by exact closes : headKind (closing :: (others ++ after)) = .endIf)
      obtain ⟨inside, ends⟩ := reads.semicolon positives (by decide) atFurther
      have whole :=
        takes_conditional word (takes_arm conditions thens ends inside)
          further closes span
      simp only [List.append_assoc] at whole
      exact takes_lines_form opened (List.cons_ne_nil _ _) rfl
        (formed (List.append_nil _).symm _) (takes_found whole) takesRest
  | @whileLoop word closing _ _ _ inner _ _ _ _ dosBefore words conditions
      dosAfter bodies closes span =>
      obtain ⟨inside, ends⟩ := reads.semicolon bodies
        (by decide : ∀ kind ∈ [TokenKind.endDo], kind.isCloser = true)
        (by rw [headKind, closes]; rfl :
          [TokenKind.endDo].contains (headKind (closing :: (others ++ after))) =
            true)
      have noWhile : headKind (inner ++ closing :: (others ++ after)) ≠
          .whileWord := by
        rw [bodies.headKind_append]
        exact TokenKind.noConfusion
      have whole := takes_whileLoop dosBefore words conditions dosAfter ends
        (fun _ => noWhile) inside closes span
      exact takes_lines_form opened
        (List.append_ne_nil_of_right_ne_nil _ (List.cons_ne_nil _ _))
        rfl (formed (List.append_nil _).symm _) (takes_found whole) takesRest
  | @forLoop word sign toToken closing semicolon names firsts lasts steps inner
      again counter _ _ _ _ words named signs begins tos lastPhrase stepped
      bodies closes counters
        terminates span =>
      obtain ⟨inside, ends⟩ := reads.semicolon bodies
        (by decide : ∀ kind ∈ [TokenKind.next], kind.isCloser = true)
        (by rw [headKind, closes]; rfl :
          [TokenKind.next].contains
            (headKind (closing :: (again ++ semicolon :: (others ++ after)))) =
              true)
      have free : ∀ token ∈ (semicolon :: (others ++ after)).head?,
          ¬(token.kind = .identifier ∧
            Source.sameIgnoringCase token.lexeme counter.name = true) := by
        rintro token isHead ⟨isName, -⟩
        obtain rfl := Option.some_inj.mp isHead
        rw [terminates] at isName
        cases isName
      have whole := takes_forLoop word named signs begins tos lastPhrase
        stepped ends
        inside closes counters free span
      -- The loop leaves its semicolon, which makes no statement.
      have passed := takes_lines_semicolon opened.empty terminates takesRest
      have split : word ::
          (names ++ sign :: (firsts ++ toToken :: (lasts ++ (steps ++ (inner ++
            closing :: (again ++ [semicolon])))))) =
          (word :: (names ++ sign ::
            (firsts ++ toToken :: (lasts ++ (steps ++ (inner ++
              closing :: again)))))) ++ [semicolon] := by
        simp
      rw [split, List.append_assoc]
      exact takes_lines_form opened (List.cons_ne_nil _ _) rfl (formed split _)
        (takes_found whole) passed

/-- A routine is read before the statements that follow it. -/
theorem TerminatedRoutine.heads
    {tokens : List Token}
    {first : Stmt}
    (phrased : TerminatedRoutine (TerminatedBlock levels) tokens first) :
    Heads levels (fun _ => false) tokens first := by
  intro others after rest takesRest
  have formed (state : State)
      (ahead : state.rest = tokens ++ (others ++ after)) :
      StatementForm.of state = .routine := by
    refine form_eq_routine ?_
    rw [ahead]
    exact opensRoutine_terminated phrased
  cases phrased with
  | @routine word closing _ _ _ inner _ _ _ _ _ statics words named
      parameterized bodies closes span =>
      have atCloser : [TokenKind.endFunction, .endProcedure].contains
          (headKind (closing :: (others ++ after))) = true := by
        obtain isFunction | isProcedure := closes
        · rw [headKind, isFunction]
          rfl
        · rw [headKind, isProcedure]
          rfl
      obtain ⟨inside, ends⟩ := reads.semicolon bodies (by decide) atCloser
      have noParenthesis : headKind (inner ++ closing :: (others ++ after)) ≠
          .leftParenthesis := by
        rw [bodies.headKind_append]
        exact TokenKind.noConfusion
      have whole := takes_routine statics words named parameterized
        (fun _ => noParenthesis) inside closes span
      refine takes_lines_cons
        (List.append_ne_nil_of_right_ne_nil _ (List.cons_ne_nil _ _))
        (fun _ _ => rfl) ?_ takesRest
      rw [statement_eq]
      exact takes_statementOf formed (takes_found whole)

end Forms

/-! ## Blocks and programs -/

theorem openToStatements_endsBlock
    {closers : List TokenKind}
    (areClosers : ∀ kind ∈ closers, kind.isCloser = true) :
    OpenToStatements (endsBlock closers) :=
  fun _ notStray notRoutine => endsBlock_eq_false areClosers notStray notRoutine

/--
The blocks of all levels are read: those inside a statement have one level less.
-/
theorem blocksRead (levels : Nat) : BlocksRead levels := by
  induction levels with
  | zero => exact fun _ _ impossible => impossible.elim
  | succ levels hypothesis =>
      intro tokens body phrased closers areClosers after closes
      have opened := openToStatements_endsBlock areClosers
      cases phrased with
      | block inside span =>
          refine takes_blockOf (takes_lines opened.empty ?_ inside ?_) span
          · intro tokens first form
            rw [terminatedStatement_eq] at form
            exact form.heads hypothesis opened
          · intro state ahead
            rw [endsBlock, State.kind_eq_headKind, ahead, closes]
            exact .inr rfl

/--
A terminated program is taken, and it is read as it was meant, up to places.
-/
theorem TerminatedProgram.takes
    {tokens : List Token}
    {statements : List Stmt}
    (phrased : TerminatedProgram tokens statements) :
    Takes program tokens [] (fun read => Alike statements read.statements) := by
  have opened : OpenToStatements (fun _ => false) := fun _ _ _ => rfl
  have lines : Takes (sequence (fun _ => false) (statement nestingLimit)) tokens
      [] (Alike statements) := by
    refine takes_lines opened.empty ?_ phrased fun _ _ => .inl rfl
    intro tokens first form
    obtain form | routine := form
    · rw [terminatedStatement_eq] at form
      exact form.heads (blocksRead nestingLimit) opened
    · exact routine.heads (blocksRead nestingLimit)
  exact lines.bind_last fun read alike => takes_ask_bind fun _ _ _ =>
    takes_pure alike

/--
Tokens that spell a terminated program up to the end of
the file are read without a report, and the statements
that are read are those of the program, up to places.
-/
theorem readProgram_terminated
    {tokens : List Token}
    {statements : List Stmt}
    (phrased : TerminatedProgram tokens statements)
    {ending : List Token}
    (ends : headKind ending = .endOfFile) :
    (readProgram (tokens ++ ending)).reports = [] ∧
      Alike statements (readProgram (tokens ++ ending)).value.statements := by
  have spelled : ∀ token ∈ tokens, (token.kind != .endOfFile) = true := by
    intro token among
    have isSpelled := spelled_program.all phrased.phrase token among
    refine bne_iff_ne.mpr fun isEnd => ?_
    rw [isEnd] at isSpelled
    exact absurd isSpelled (by decide)
  have rest : (State.ofTokens (tokens ++ ending)).rest = tokens ++ [] := by
    change List.takeWhile (fun token : Token => token.kind != .endOfFile) _ = _
    rw [List.takeWhile_append_of_pos spelled]
    cases ending with
    | nil => rfl
    | cons token more =>
        rw [List.takeWhile_cons_of_neg (by simpa [headKind] using ends)]
  obtain ⟨read, next, reads, -, alike⟩ :=
    phrased.takes (State.calm_ofTokens _) rest
  rw [readProgram, Rule.readTokens, reads.run]
  refine ⟨?_, alike⟩
  change next.reports.reverse = []
  rw [reads.quiet]
  rfl

/--
The tokens of a function with a counting
loop, in which a conditional has two arms.
-/
theorem readProgram_terminated_loop :
    let name (text : String) : Token := .unplaced .identifier text
    let semicolon : Token := .unplaced .semicolon ";"
    let arms :=
      [.unplaced .ifWord "IF", name "a", semicolon,
        .unplaced .exit "EXIT", semicolon, .unplaced .elseIf "ELSEIF", name "b",
        .unplaced .thenWord "THEN", semicolon, .unplaced .returnWord "RETURN",
        semicolon, .unplaced .endIf "ENDIF"]
    let loop :=
      [.unplaced .forWord "FOR", name "i", .unplaced .equal "=", name "a",
        .unplaced .toWord "TO", name "b", semicolon] ++
        (arms ++ [.unplaced .next "NEXT", name "I", semicolon])
    let tokens :=
      [.unplaced .function "FUNCTION", name "f", semicolon] ++
        (loop ++ [.unplaced .endFunction "ENDFUNCTION"])
    let none := Span.empty 0
    let value (text : String) : Expr := .name ⟨text, none⟩ none
    let other : Block :=
      .of [.conditional (value "b") (.of [.result .none none] none) .none none]
        none
    let inner : Block :=
      .of [.conditional (value "a") (.of [.exit none] none) (some other) none]
        none
    let body : Block :=
      .of [.forLoop ⟨"i", none⟩ (value "a") (value "b") .none inner none] none
    let statements :=
      [Stmt.routine ⟨.function, false, ⟨"f", none⟩, []⟩ body none]
    TerminatedProgram tokens statements ∧ headKind [.unplaced .endOfFile ""] =
      .endOfFile ∧
      (readProgram (tokens ++ [.unplaced .endOfFile ""])).reports = [] ∧
      Alike statements (readProgram
        (tokens ++ [.unplaced .endOfFile ""])).value.statements := by
  intro name semicolon arms loop tokens none value other inner body statements
  have named (levels : Nat) (text : String) :
      ExpressionPhrase (levels + 1) [name text] (value text) :=
    expressionPhrase_of_operand
      (operandPhrase_of_suffixed (.primary (.name (.name rfl _) _)))
  have single {levels : Nat} {tokens : List Token} {statement : Stmt}
      (form : TerminatedStatement levels tokens statement) :
      TerminatedBlock (levels + 1) tokens (.of [statement] none) := by
    rw [← List.append_nil tokens]
    exact .block (.further form .none) none
  have simple {levels : Nat} {word : Token} {statement : Stmt}
      (phrased : SimplePhrase (ExpressionPhrase levels) [word] statement) :
      SemicolonPhrase (TerminatedBlock (levels + 1))
        [semicolon, word, semicolon] (.of [statement] none) := by
    refine .semicolon rfl (single ?_)
    rw [terminatedStatement_eq]
    exact .simple phrased rfl
  have further (levels : Nat) :
      TerminatedAlternative (ExpressionPhrase (levels + 1))
        (TerminatedBlock (levels + 1))
        [.unplaced .elseIf "ELSEIF", name "b",
          .unplaced .thenWord "THEN", semicolon, .unplaced .returnWord "RETURN",
          semicolon] (some other) :=
    .further rfl (named levels "b") (.present (List.mem_singleton.mpr rfl))
      (simple (.returns rfl none)) .nothing none none
  have conditional (levels : Nat) : TerminatedBlock (levels + 2) arms inner :=
    single (.conditional rfl (named levels "a") .absent
      (simple (.exit rfl none)) (further levels)
      rfl none)
  have counting (levels : Nat) : TerminatedBlock (levels + 3) loop body :=
    single (.forLoop rfl (.name rfl none) (.inr rfl)
      (named _ "a") rfl (named _ "b") .absent
      (.semicolon rfl (conditional levels))
        rfl (.present rfl (by decide +kernel)) rfl none)
  have phrased : TerminatedProgram tokens statements := by
    rw [← List.append_nil tokens]
    refine .further (.inr ?_) .none
    exact .routine .absent rfl (.name rfl none) .absent
      (.semicolon rfl (counting 97)) (.inl rfl) none
  exact ⟨phrased, rfl, readProgram_terminated phrased rfl⟩

end Clipper.Grammar
