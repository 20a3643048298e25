import Mathlib.Data.List.Permutation
import Clipper.Proofs.Grammar.HeaderRecovery
import Clipper.Proofs.Grammar.SpareLevels

/-!
# Compound statements without their headers

A reading that recovers from a missing header takes words of the header where
they stand, but no statement begins with any of them, so the body of the
statement stays whole.  The parenthesis is the exception: it opens the
parameters of a routine, and an expression too.

The five compound statements are one family: each has its words, the cause
that is reported, the words that could be taken in the recovery and the word
that closes it.  The theorem speaks of the family and proves its members by
cases.  That a routine with a parenthesis behind its missing name is different
is stated, and an example shows what is lost there.
-/

namespace Clipper

open Grammar Rule

namespace Grammar

/-! ## Bodies with their closing words -/

section

variable
  {block : List TokenKind → Rule Block}
  {closing : Token}
  {inner after : List Token}
  {body : Block}

/--
Behind a missing condition, the block of a conditional and its
closing word are taken.
-/
theorem takes_conditionalBody
    (expression : Rule Expr)
    (inside : Takes (block armClosers) inner (closing :: after) (Alike body))
    (closes : closing.kind = .endIf)
    (start place : Nat) :
    Takes (conditionalBody expression block start (.placeholder place))
      (inner ++ [closing]) after
      (Alike (.conditional (.placeholder 0) body none (Span.empty 0))) := by
  have noArms :
      Takes (many (furtherArm? expression block)) [] (closing :: after)
        (· = []) := by
    refine takes_many_nil ?_ rfl
    rintro _ _ ⟨⟩
    exact if_neg (by rw [closes]; exact TokenKind.noConfusion)
  have noOther :
      Takes (optionalAfter .elseWord (block [.endIf])) [] (closing :: after)
        (· = none) := by
    refine takes_optionalAfter_none ?_ rfl
    rw [headKind, closes]
    exact TokenKind.noConfusion
  refine inside.bind fun made alike => noArms.bind_first fun others isNil => ?_
  refine noOther.bind_first fun last? isNone => takes_ask_bind fun _ _ _ => ?_
  refine (takes_close closes).bind_last fun _ _ => ?_
  refine takes_spanFrom_bind fun _ => takes_pure ?_
  rw [isNil, isNone, List.foldr_nil, Alike, relabel_conditional,
    relabel_conditional, alike]
  simp

/--
Behind a missing condition, the body of a loop and its closing word are taken.
-/
theorem takes_whileBody
    (inside : Takes (block [.endDo]) inner (closing :: after) (Alike body))
    (closes : closing.kind = .endDo)
    (start place : Nat) :
    Takes (whileBody block start (.placeholder place))
      (inner ++ [closing]) after
      (Alike (.whileLoop (.placeholder 0) body (Span.empty 0))) := by
  refine inside.bind fun made alike =>
    (takes_close closes).bind_last fun _ _ => ?_
  refine takes_spanFrom_bind fun _ => takes_pure ?_
  rw [Alike, relabel_whileLoop, relabel_whileLoop, alike]
  simp

/--
Behind a missing head, the body of a counting loop and its
closing word are taken.
-/
theorem takes_forBody
    (inside : Takes (block [.next]) inner (closing :: after) (Alike body))
    (closes : closing.kind = .next)
    (ended : after = [])
    (start counter first last : Nat) :
    Takes
      (forBody block start (.placeholder counter) (.placeholder first)
        (.placeholder last) none)
      (inner ++ [closing]) after
      (Alike (.forLoop (.placeholder 0) (.placeholder 0)
        (.placeholder 0) none body
        (Span.empty 0))) := by
  have closed : Takes (closeFor (.placeholder counter)) [closing] after
      (fun _ => True) := by
    refine takes_eat_bind closes (takes_counterAgain .absent rfl ?_)
    rw [ended]
    rintro _ ⟨⟩
  refine inside.bind fun made alike => closed.bind_last fun _ _ => ?_
  refine takes_spanFrom_bind fun _ => takes_pure ?_
  rw [Alike, relabel_forLoop, relabel_forLoop, alike]
  simp

/--
Behind a missing name, the body of a routine and its closing word are taken.
-/
theorem takes_routineBody
    (inside : Takes (block [.endFunction, .endProcedure]) inner
      (closing :: after) (Alike body))
    (closes : closing.kind = .endFunction ∨ closing.kind = .endProcedure)
    (kind : RoutineKind)
    (isStatic : Bool)
    (start place : Nat) :
    Takes (routineBody block start ⟨kind, isStatic, .placeholder place, []⟩)
      (inner ++ [closing])
      after
        (Alike (.routine ⟨kind, isStatic, .placeholder 0, []⟩ body
          (Span.empty 0))) := by
  refine inside.bind fun made alike =>
    (takes_closeRoutine closes).bind_last fun _ _ => ?_
  refine takes_spanFrom_bind fun _ => takes_pure ?_
  rw [Alike, relabel_routine, relabel_routine, alike]
  simp [Span.mergeAll]

end

/-! ## How statements begin -/

/-- A closing word out of place is not read without a report. -/
theorem not_reads_strayCloser
    {levels : Nat}
    {state next : State}
    {made? : Option Stmt}
    (stray : StatementForm.of state = .strayCloser) :
    ¬ Reads (statement levels) state made? next := by
  intro reads
  rw [statement_eq, statementOf, reads_recovered_bind, reads_ask_bind, stray,
    statementOfForm, strayCloser, reads_ask_bind] at reads
  obtain ⟨_, _, reported, -⟩ := reads_bind.mp reads
  exact not_reads_reportHere reported

/--
Without routines, the statements of a program
are those of a block that ends with it.
-/
theorem reads_lines_of_program
    {levels : Nat}
    {closers : List TokenKind}
    (words : ∀ kind ∈ closers, kind.isCloser = true)
    {state next : State}
    {statements : List Stmt}
    (noRoutine : ∀ token ∈ state.rest, isRoutineWord token.kind = false)
    (reads : Reads (sequence (fun _ => false) (statement levels)) state
      statements next) :
    Reads (sequence (endsBlock closers) (statement levels)) state
      statements next ∧ next.rest = [] := by
  induction bound : state.rest.length using Nat.strongRecOn
    generalizing state statements with
  | ind length hypothesis =>
      rcases reads.of_sequence with
        ⟨ended | impossible, rfl, rfl⟩ | ⟨made?, middle, others, -,
          once, again, rfl⟩
      · exact ⟨reads_sequence_of_closed reads.calm (.inl ended), ended⟩
      · cases impossible
      · have taken := Curtailment.takes_statement once
        rw [State.forward_of_taken taken] at again
        have within := Curtailment.suffix_of_reads once
        obtain ⟨later, ended⟩ :=
          hypothesis _ (bound ▸ taken)
            (fun token among => noRoutine token (within.subset among)) again rfl
        have opened : endsBlock closers state = false := by
          refine endsBlock_eq_false words
            (fun stray => not_reads_strayCloser stray once) ?_
          intro isRoutine
          have opens := StatementForm.ahead_of state
          rw [isRoutine] at opens
          exact Bool.false_ne_true
            ((opensRoutine_eq_false noRoutine).symm.trans opens)
        exact ⟨reads_sequence_of_round opened once taken later, ended⟩

/--
A statement begins as an expression does where it is none of the other forms.
-/
theorem opens_of_reads_program
    {levels : Nat}
    {state next : State}
    {statements : List Stmt}
    (reads : Reads (sequence (fun _ => false) (statement levels)) state
      statements next)
    (ahead : state.rest ≠ [])
    (form : StatementForm.of state = .expression) :
    opensExpression state.kind = true := by
  rcases reads.of_sequence
    with ⟨ended | impossible, -⟩ | ⟨made?, middle, others, -, once, -, -⟩
  · exact absurd ended ahead
  · cases impossible
  · rw [← Bool.not_eq_false]
    exact fun closed => not_reads_statement_of_closed form closed once

/-- The words of a header after its first expression or name. -/
def headerWords : List TokenKind :=
  [.thenWord, .assign, .equal, .toWord, .step]

section

variable
  {levels : Nat}
  {state next : State}
  {statements : List Stmt}
  (reads : Reads (sequence (fun _ => false) (statement levels)) state
    statements next)
  {closing : Token}
  (closes : closing.kind.isCloser = true)

include reads closes

/-- No program without errors begins with a word of a header. -/
theorem headKind_notMem_headerWords :
    headKind (state.rest ++ [closing]) ∉ headerWords := by
  cases rest : state.rest with
  | nil =>
      intro among
      have words : ∀ kind ∈ headerWords, kind.isCloser = false := by decide
      have isWord := words _ among
      rw [List.nil_append, headKind, closes] at isWord
      cases isWord
  | cons token others =>
      intro among
      have among : token.kind ∈ headerWords := among
      have isKind : state.kind = token.kind := State.kind_of_rest rest
      have ahead : state.rest ≠ [] := by
        rw [rest]
        exact List.cons_ne_nil _ _
      have form : StatementForm.of state = .expression := by
        rw [StatementForm.of, isKind]
        simp only [headerWords, List.mem_cons, List.not_mem_nil, or_false]
          at among
        rcases among with word | word | word | word | word <;> rw [word]
      have words : ∀ kind ∈ headerWords, opensExpression kind = false := by
        decide
      have opens := opens_of_reads_program reads ahead form
      rw [isKind, words _ among] at opens
      cases opens

/-- Where a program without errors begins with `DO`, it begins with a loop. -/
theorem secondKind_of_doWord
    {other : State}
    (shape : other.rest = state.rest ++ [closing])
    (isDo : other.kind = .doWord) :
    other.secondKind = .whileWord := by
  cases rest : state.rest with
  | nil =>
      rw [rest, List.nil_append] at shape
      rw [State.kind_of_rest shape] at isDo
      rw [isDo] at closes
      cases closes
  | cons token others =>
      rw [rest, List.cons_append] at shape
      rw [State.kind_of_rest shape, ← State.kind_of_rest rest] at isDo
      have isLoop : state.secondKind = .whileWord := by
        by_contra noLoop
        have ahead : state.rest ≠ [] := by
          rw [rest]
          exact List.cons_ne_nil _ _
        have form : StatementForm.of state = .expression := by
          rw [StatementForm.of, isDo]
          exact if_neg noLoop
        have opens := opens_of_reads_program reads ahead form
        rw [isDo] at opens
        cases opens
      rw [State.secondKind, rest] at isLoop
      cases others with
      | nil => cases isLoop
      | cons second others =>
          rw [State.secondKind, shape]
          exact isLoop

end

/-! ## Statements -/

/--
One thing was reported, and one statement
was made of all tokens that were ahead.
-/
structure MadeReporting
    (report : Report)
    (statement : Stmt)
    (reports : List Report)
    (outcome : Option Stmt × State) : Prop where
  made : ∃ made, outcome.1 = some made ∧ Alike statement made
  rest : outcome.2.rest = []
  reports : outcome.2.reports = report :: reports

/-- A calm reading of a statement is that of the rule of its form. -/
theorem run_statement_of_form
    {levels : Nat}
    {state : State}
    (calm : state.Calm)
    {rule : Rule Stmt}
    (form :
      statementOfForm (expression levels) (blocks levels)
        (StatementForm.of state) = some <$> rule) :
    (statement levels).run state =
      (some (rule.run state).1, (rule.run state).2) := by
  have calmed : { state with recovering := false } = state := by
    rw [← calm.steady]
  rw [statement_eq]
  change (statementOfForm _ _
    (StatementForm.of { state with recovering := false })).run
    { state with recovering := false } = _
  rw [calmed, form]
  rfl

/--
A statement recovers before a block and
takes its body as if nothing were missing.
-/
theorem madeReporting_of_recovers
    {levels : Nat}
    {state after : State}
    (calm : state.Calm)
    {rule body : Rule Stmt}
    (form :
      statementOfForm (expression levels) (blocks levels)
        (StatementForm.of state) = some <$> rule)
    {report : Report}
    {rest : List Token}
    (recovers : Recovers report rest state.reports after)
    (run : rule.run state = body.run after)
    (ends : body.EndsRecovery)
    {statement : Stmt}
    (takes : Takes body rest [] (Alike statement)) :
    MadeReporting report statement state.reports
      ((Grammar.statement levels).run state) := by
  have calmAfter : { after with recovering := false }.Calm :=
    ⟨rfl, recovers.whole⟩
  have ahead : after.rest = rest ++ [] :=
    recovers.rest.trans (List.append_nil rest).symm
  obtain ⟨made, next, reads, atEnd, alike⟩ := takes calmAfter ahead
  rw [run_statement_of_form calm form, run, ← ends after false, reads.run]
  exact ⟨⟨made, rfl, alike⟩, atEnd, reads.quiet.trans recovers.reports⟩

/--
The words of a routine tell its form, with `STATIC` before them or without.
-/
theorem form_of_routine
    {state : State}
    {before after : List Token}
    {word : Token}
    {isStatic : Bool}
    (statics : OptionalToken [.static] before isStatic)
    (shape : state.rest = before ++ word :: after)
    {kind : RoutineKind}
    (isWord : word.kind = routineWord kind) :
    StatementForm.of state = .routine := by
  cases statics with
  | absent =>
      rw [StatementForm.of, State.kind_of_rest shape, isWord]
      cases kind <;> rfl
  | present isStatic =>
      have opens : opensRoutine state.rest = true := by
        rw [shape, List.singleton_append, opensRoutine,
          List.mem_singleton.mp isStatic, isWord]
        cases kind <;> rfl
      rw [StatementForm.of, State.kind_of_rest shape,
        List.mem_singleton.mp isStatic]
      exact if_pos opens

end Grammar

/-- A compound statement of which the header is missing. -/
inductive Headless where
  | conditional
  | whileLoop
  | forLoop
  | routine (kind : RoutineKind) (isStatic : Bool)
deriving DecidableEq

namespace Headless

/-- The words before the header. -/
def opening : Headless → List TokenKind
  | conditional => [.ifWord]
  | whileLoop => [.whileWord]
  | forLoop => [.forWord]
  | routine kind true => [.static, routineWord kind]
  | routine kind false => [routineWord kind]

/-- The words that close the statement. -/
def closers : Headless → List TokenKind
  | conditional => [.endIf]
  | whileLoop => [.endDo]
  | forLoop => [.next]
  | routine _ _ => [.endFunction, .endProcedure]

/-- The words that end the block after the header. -/
def blockClosers : Headless → List TokenKind
  | conditional => armClosers
  | other => other.closers

/-- What is reported at a semicolon in the place of the header. -/
def cause : Headless → Cause
  | conditional | whileLoop => .expectedExpression .semicolon
  | forLoop => .expectedName .forWord
  | routine kind _ => .expectedName (routinePlace kind)

/-- The statement with placeholders for its header, up to places. -/
def statement (body : Block) : Headless → Stmt
  | conditional => .conditional (.placeholder 0) body none (Span.empty 0)
  | whileLoop => .whileLoop (.placeholder 0) body (Span.empty 0)
  | forLoop =>
      .forLoop (.placeholder 0) (.placeholder 0) (.placeholder 0) none body
        (Span.empty 0)
  | routine kind isStatic =>
      .routine ⟨kind, isStatic, .placeholder 0, []⟩ body (Span.empty 0)

/-- Whether a parenthesis may stand in the header, after a name. -/
def hasParameters : Headless → Bool
  | routine _ _ => true
  | _ => false

variable {kind : Headless}

/-- Each word that closes the statement ends its block. -/
theorem mem_blockClosers
    {word : TokenKind}
    (closes : word ∈ kind.closers) :
    word ∈ kind.blockClosers := by
  cases kind with
  | conditional =>
      rw [List.mem_singleton.mp closes]
      decide
  | _ => exact closes

theorem isCloser_of_mem_blockClosers :
    ∀ word ∈ kind.blockClosers, word.isCloser = true := by
  cases kind with
  | conditional | whileLoop | forLoop => decide
  | routine =>
      have words : ∀ word ∈ [TokenKind.endFunction, .endProcedure],
          word.isCloser = true := by
        decide
      exact words

/-- The words of a compound statement do not end the tokens. -/
theorem noEnd_of_opening
    {words : List Token}
    (opens : words.map Token.kind = kind.opening) :
    ∀ token ∈ words, token.kind ≠ .endOfFile := by
  intro token among isEnd
  have isWord : token.kind ∈ kind.opening := opens ▸ List.mem_map_of_mem among
  rw [isEnd] at isWord
  cases kind with
  | routine kind isStatic =>
      revert isWord
      cases kind <;> cases isStatic <;> decide
  | _ => cases List.mem_singleton.mp isWord

/--
The words of the statement, the last of which may be the word of a routine.
-/
theorem exists_routineWord
    {routineKind : RoutineKind}
    {isStatic : Bool}
    {words : List Token}
    (opens : words.map Token.kind = (routine routineKind isStatic).opening) :
    ∃ before word, words = before ++ [word] ∧
      OptionalToken [.static] before isStatic ∧
      word.kind = routineWord routineKind := by
  cases isStatic with
  | false =>
      obtain ⟨word, rfl, isWord⟩ := List.map_eq_singleton_iff.mp opens
      exact ⟨[], word, rfl, .absent, isWord⟩
  | true =>
      obtain ⟨first, others, rfl, isFirst, rest⟩ :=
        List.map_eq_cons_iff.mp opens
      obtain ⟨word, rfl, isWord⟩ := List.map_eq_singleton_iff.mp rest
      exact ⟨[first], word, rfl, .present (List.mem_singleton.mpr isFirst),
        isWord⟩

/--
A statement without its header reports this
and has the body that stands after it.
-/
theorem madeReporting
    {levels : Nat}
    {state : State}
    (calm : state.Calm)
    {words inner : List Token}
    {semicolon closing : Token}
    (opens : words.map Token.kind = kind.opening)
    (isSemicolon : semicolon.kind = .semicolon)
    (shape : state.rest = words ++ semicolon :: (inner ++ [closing]))
    (closes : closing.kind ∈ kind.closers)
    (noHeader : headKind (inner ++ [closing]) ∉ headerWords)
    (noDo : ∀ state : State, state.rest = inner ++ [closing] →
      state.kind = .doWord →
      state.secondKind = .whileWord)
    (noParenthesis : kind.hasParameters = true →
      headKind (inner ++ [closing]) ≠ .leftParenthesis)
    {body : Block}
    (inside : Takes (blocks (levels + 1) kind.blockClosers) inner [closing]
      (Alike body)) :
    MadeReporting ⟨kind.cause, semicolon.span⟩ (kind.statement body)
      state.reports ((Grammar.statement (levels + 1)).run state) := by
  have absent {word : TokenKind} (isWord : word ∈ headerWords) :
      headKind (inner ++ [closing]) ≠ word :=
    fun same => noHeader (same ▸ isWord)
  have ends (closers : List TokenKind) :
      (blocks (levels + 1) closers).EndsRecovery :=
    endsRecovery_blockOf levels closers
  cases kind with
  | conditional =>
      obtain ⟨word, rfl, isIf⟩ := List.map_eq_singleton_iff.mp opens
      have form : StatementForm.of state = .conditional := by
        rw [StatementForm.of, State.kind_of_rest shape, isIf]
      obtain ⟨start, place, after, recovers, run⟩ :=
        run_conditional_missing calm shape isSemicolon levels
          (blocks (levels + 1)) (absent (by decide))
      refine madeReporting_of_recovers calm (by rw [form]; rfl) recovers run
        ((ends _).bind _) ?_
      exact takes_conditionalBody _ inside
        (List.mem_singleton.mp closes) start place
  | whileLoop =>
      obtain ⟨word, rfl, isWhile⟩ := List.map_eq_singleton_iff.mp opens
      have form : StatementForm.of state = .whileLoop := by
        rw [StatementForm.of, State.kind_of_rest shape, isWhile]
      obtain ⟨start, place, after, recovers, run⟩ :=
        run_whileLoop_missing calm shape isSemicolon levels
          (blocks (levels + 1)) isWhile noDo
      refine madeReporting_of_recovers calm (by rw [form]; rfl) recovers run
        ((ends _).bind _) ?_
      exact takes_whileBody inside (List.mem_singleton.mp closes) start place
  | forLoop =>
      obtain ⟨word, rfl, isFor⟩ := List.map_eq_singleton_iff.mp opens
      have form : StatementForm.of state = .forLoop := by
        rw [StatementForm.of, State.kind_of_rest shape, isFor]
      obtain ⟨start, counter, first, last, after, recovers, run⟩ :=
        run_forLoop_missing calm shape isSemicolon levels (blocks (levels + 1))
          (absent (by decide)) (absent (by decide)) (absent (by decide))
          (absent (by decide))
      refine madeReporting_of_recovers calm (by rw [form]; rfl) recovers run
        ((ends _).bind _) ?_
      exact takes_forBody inside (List.mem_singleton.mp closes) rfl start
        counter first last
  | routine kind isStatic =>
      obtain ⟨before, word, rfl, statics, isWord⟩ := exists_routineWord opens
      rw [List.append_assoc, List.singleton_append] at shape
      have form : StatementForm.of state = .routine :=
        form_of_routine statics shape isWord
      have closesEither : closing.kind = .endFunction ∨
          closing.kind = .endProcedure := by
        simpa [closers] using closes
      obtain ⟨start, place, after, recovers, run⟩ :=
        run_routine_missing calm isSemicolon isWord statics shape
          (blocks (levels + 1))
      have closed : after.kind ≠ .leftParenthesis := by
        rw [State.kind_eq_headKind, recovers.rest]
        exact noParenthesis rfl
      rw [run_parameters_elsewhere closed] at run
      refine madeReporting_of_recovers calm (by rw [form]; rfl) recovers run
        ((ends _).bind _) ?_
      exact takes_routineBody inside closesEither kind isStatic start place

end Headless

/-! ## Programs -/

/-- A statement that is made of all tokens is the whole program. -/
theorem readProgram_of_madeReporting
    {tokens : List Token}
    (nonempty : (State.ofTokens tokens).rest ≠ [])
    {report : Report}
    {statement : Stmt}
    (made :
      MadeReporting report statement []
        ((Grammar.statement nestingLimit).run (State.ofTokens tokens))) :
    (readProgram tokens).reports = [report] ∧
      Alike [statement] (readProgram tokens).value.statements := by
  obtain ⟨read, isRead, alike⟩ := made.made
  generalize outcome :
    (Grammar.statement nestingLimit).run (State.ofTokens tokens) = ran
    at made isRead
  obtain ⟨only, next⟩ := ran
  cases isRead
  have taken : next.rest.length < (State.ofTokens tokens).rest.length := by
    rw [made.rest]
    exact List.length_pos_iff.mpr nonempty
  have lines :
      (sequence (fun _ => false) (Grammar.statement nestingLimit)).run
        (State.ofTokens tokens) =
          ([read], next) := by
    have opened : runSequence (fun _ => false)
        (Grammar.statement nestingLimit) _ = _ :=
      runSequence_opened nonempty rfl
    rw [outcome, State.forward_of_taken taken,
      runSequence_closed (.inl made.rest)] at opened
    exact opened
  obtain ⟨reports, statements⟩ := readProgram_of_run lines
  rw [reports, statements, made.reports]
  exact ⟨rfl, congrArg (fun statement => [statement]) alike⟩

section

variable
  {tokens : List Token}
  (clean : (readProgram tokens).reports = [])
  {levels : Nat}
  (spare : levels < nestingLimit)
  (shallow : ((sequence (fun _ => false) (statement levels)).readTokens
    tokens).Shallow)

include clean spare shallow

/--
The statements of a program without errors are
read with fewer levels, if these are enough.
-/
theorem reads_of_shallow :
    ∃ next,
      Reads (sequence (fun _ => false) (statement levels))
        (State.ofTokens tokens) (readProgram tokens).value.statements next := by
  obtain ⟨next, atLimit⟩ := reads_of_clean clean
  have same := (persists_statement spare.le).sequence
      (fun _ => false) _ shallow.whole
  exact ⟨next, atLimit.calm, same.symm.trans atLimit.run, atLimit.quiet⟩

/--
With a level to spare, a program without errors or routines is taken as a block.
-/
theorem takes_block_of_program
    (noEnd : ∀ token ∈ tokens, token.kind ≠ .endOfFile)
    (noRoutine : ∀ token ∈ tokens, isRoutineWord token.kind = false)
    {closers : List TokenKind}
    (words : ∀ word ∈ closers, word.isCloser = true)
    {after : List Token}
    (closed : headKind after ∈ closers) :
    Takes (blocks nestingLimit closers) tokens after
      (Alike (Block.of (readProgram tokens).value.statements
        (Span.empty 0))) := by
  have rest : (State.ofTokens tokens).rest = tokens := by
    rw [ofTokens_of_noEnd noEnd]
  obtain ⟨next, reads⟩ := reads_of_shallow clean spare shallow
  obtain ⟨lines, atEnd⟩ := reads_lines_of_program words (by rwa [rest]) reads
  obtain ⟨span, block⟩ := reads_blockOf_of_lines lines
  have inside : Reads (blocks (levels + 1) closers) _ _ _ := block
  have shape : (State.ofTokens tokens).rest = tokens ++ next.rest := by
    rw [rest, atEnd, List.append_nil]
  refine (takes_blocks_of_reads spare inside shape words closed).mono
    fun made alike => ?_
  exact alike.trans (Alike.block rfl _ _)

end

/--
Where a semicolon stands in the place of a header, this is all that is reported,
and the statement has the body that its tokens are as a program, which needs a
level to spare.  The body of a routine must not begin with a parenthesis, which
would open parameters.
-/
theorem readProgram_missingHeader
    (kind : Headless)
    {words body : List Token}
    {semicolon closing : Token}
    (opens : words.map Token.kind = kind.opening)
    (isSemicolon : semicolon.kind = .semicolon)
    (closes : closing.kind ∈ kind.closers)
    (noEnd : ∀ token ∈ body, token.kind ≠ .endOfFile)
    (noRoutine : ∀ token ∈ body, isRoutineWord token.kind = false)
    (clean : (readProgram body).reports = [])
    {levels : Nat}
    (spare : levels < nestingLimit)
    (shallow : ((sequence (fun _ => false) (statement levels)).readTokens
      body).Shallow)
    (noParenthesis : kind.hasParameters = true →
      headKind body ≠ .leftParenthesis) :
    let tokens := words ++ semicolon :: (body ++ [closing])
    let block := Block.of (readProgram body).value.statements (Span.empty 0)
    (readProgram tokens).reports = [⟨kind.cause, semicolon.span⟩] ∧
      Alike [kind.statement block] (readProgram tokens).value.statements := by
  intro tokens block
  have ends : headKind [closing] ∈ kind.blockClosers :=
    Headless.mem_blockClosers closes
  have areClosers : ∀ word ∈ kind.blockClosers, word.isCloser = true :=
    Headless.isCloser_of_mem_blockClosers
  have isCloser : closing.kind.isCloser = true := areClosers _ ends
  have inside : Takes (blocks nestingLimit kind.blockClosers) body [closing]
      (Alike block) :=
    takes_block_of_program clean spare shallow noEnd noRoutine areClosers ends
  -- The reading tries the words of the header, but the body begins with none of
  -- them.
  obtain ⟨next, reads⟩ := reads_of_clean clean
  have noHeader := headKind_notMem_headerWords reads isCloser
  have noDo (state : State) (ahead : state.rest = _) :=
    secondKind_of_doWord reads isCloser ahead
  rw [ofTokens_of_noEnd noEnd] at noHeader noDo
  have noParenthesis (isRoutine : kind.hasParameters = true) :
      headKind (body ++ [closing]) ≠ .leftParenthesis := by
    cases body with
    | nil =>
        intro isParenthesis
        rw [List.nil_append, headKind] at isParenthesis
        rw [isParenthesis] at isCloser
        cases isCloser
    | cons token others => exact noParenthesis isRoutine
  have noEnds : ∀ token ∈ tokens, token.kind ≠ .endOfFile := by
    simp only [tokens, List.forall_mem_append, List.forall_mem_cons]
    refine ⟨Headless.noEnd_of_opening opens,
      noEnd_word isSemicolon (by decide), noEnd, ?_, List.forall_mem_nil _⟩
    intro isEnd
    rw [isEnd] at isCloser
    cases isCloser
  have shape : (State.ofTokens tokens).rest = tokens := by
    rw [ofTokens_of_noEnd noEnds]
  refine readProgram_of_madeReporting (by rw [shape]; simp [tokens]) ?_
  exact Headless.madeReporting (State.calm_ofTokens tokens) opens isSemicolon
    shape closes noHeader noDo noParenthesis inside

/-- `STATIC PROCEDURE`, a semicolon, a loop of its own and `ENDPROC`. -/
theorem readProgram_missingHeader_loop :
    let words : List Token :=
      [.unplaced .static "STATIC", .unplaced .procedure "PROCEDURE"]
    let semicolon : Token := .unplaced .semicolon ";"
    let body : List Token :=
      [.unplaced .doWord "DO", .unplaced .whileWord "WHILE",
        .unplaced .identifier "a", .unplaced .identifier "x",
        .unplaced .endDo "ENDDO"]
    let closing : Token := .unplaced .endProcedure "ENDPROC"
    let kind := Headless.routine .procedure true
    let tokens := words ++ semicolon :: (body ++ [closing])
    let place := Span.empty 0
    let value (text : String) : Expr := .name ⟨text, place⟩ place
    let loop : Stmt :=
      .whileLoop (value "a") (.of [.expression (value "x") place] place) place
    ((∀ token ∈ body, token.kind ≠ .endOfFile) ∧
        (∀ token ∈ body, isRoutineWord token.kind = false) ∧
          (readProgram body).reports = [] ∧
          ((sequence (fun _ => false) (statement 98)).readTokens body).Shallow ∧
            headKind body ≠ .leftParenthesis) ∧
      (readProgram tokens).reports = [⟨.expectedName .procedureWord, place⟩] ∧
        Alike [kind.statement (.of [loop] place)]
          (readProgram tokens).value.statements := by
  intro words semicolon body closing kind tokens place value loop
  have clean : (readProgram body).reports = [] := by decide +kernel
  have shallow :
      ((sequence (fun _ => false) (statement 98)).readTokens body).Shallow := by
    decide +kernel
  have statements : (readProgram body).value.statements = [loop] := by cbv
  have missing :=
    readProgram_missingHeader kind
      (show words.map Token.kind = kind.opening from rfl)
      (show semicolon.kind = .semicolon from rfl)
      (show closing.kind ∈ kind.closers by decide)
      (show ∀ token ∈ body, _ by decide) (by decide)
      clean (show 98 < nestingLimit by decide) shallow (fun _ => by decide)
  rw [statements] at missing
  exact ⟨⟨by decide, by decide, clean, shallow, by decide⟩, missing⟩

set_option maxRecDepth 2000 in
/--
The parenthesis at the beginning of a routine's body opens
parameters, although the reading recovers: after `FUNCTION`
and a semicolon, the statement `(a)` is not in the body.
-/
theorem readProgram_missingHeader_parameters :
    let word : Token := .unplaced .function "FUNCTION"
    let semicolon : Token := .unplaced .semicolon ";"
    let body : List Token :=
      [.unplaced .leftParenthesis "(", .unplaced .identifier "a",
        .unplaced .rightParenthesis ")"]
    let closing : Token := .unplaced .endFunction "ENDFUNCTION"
    let kind := Headless.routine .function false
    let tokens := word :: semicolon :: (body ++ [closing])
    let place := Span.empty 0
    ((∀ token ∈ body, token.kind ≠ .endOfFile) ∧
        (∀ token ∈ body, isRoutineWord token.kind = false) ∧
          (readProgram body).reports = [] ∧
          ((sequence (fun _ => false) (statement 98)).readTokens
            body).Shallow) ∧
      (readProgram body).value.statements =
          [.expression (.name ⟨"a", place⟩ place) place] ∧
        (readProgram tokens).value.statements =
          [.routine ⟨.function, false, .placeholder 0, [⟨"a", place⟩]⟩
            (.of [] place) place] ∧
          ¬ Alike [kind.statement
            (.of (readProgram body).value.statements place)]
            (readProgram tokens).value.statements := by
  intro word semicolon body closing kind tokens place
  have made : (readProgram tokens).value.statements =
      [.routine ⟨.function, false, .placeholder 0, [⟨"a", place⟩]⟩
        (.of [] place) place] := by
    cbv
  refine ⟨⟨by decide, by decide, by decide +kernel, by decide +kernel⟩, by cbv,
    made, ?_⟩
  intro alike
  rw [made] at alike
  cases alike

/-- Whatever else stands in such a body, the routine has parameters. -/
theorem parameters_of_missingHeader
    {kind : RoutineKind}
    {isStatic : Bool}
    {words rest : List Token}
    {semicolon parenthesis : Token}
    (opens : words.map Token.kind = (Headless.routine kind isStatic).opening)
    (isSemicolon : semicolon.kind = .semicolon)
    (isParenthesis : parenthesis.kind = .leftParenthesis)
    (unclosed : headKind rest ≠ .rightParenthesis)
    (noEnd : ∀ token ∈ rest, token.kind ≠ .endOfFile) :
    ∃ head body span others,
      (readProgram
        (words ++ semicolon :: parenthesis :: rest)).value.statements =
          .routine head body span :: others ∧
        head.parameters ≠ [] := by
  have noEnds : ∀ token ∈ words ++ semicolon :: parenthesis :: rest,
      token.kind ≠ .endOfFile := by
    simp only [List.forall_mem_append, List.forall_mem_cons]
    exact ⟨Headless.noEnd_of_opening opens, noEnd_word isSemicolon (by decide),
      noEnd_word isParenthesis (by decide), noEnd⟩
  obtain ⟨before, word, rfl, statics, isWord⟩ :=
    Headless.exists_routineWord opens
  have shape :
      (State.ofTokens (before ++ [word] ++ semicolon :: parenthesis ::
        rest)).rest =
      before ++ word :: semicolon :: parenthesis :: rest := by
    rw [ofTokens_of_noEnd noEnds, List.append_assoc, List.singleton_append]
  have calm := State.calm_ofTokens
      (before ++ [word] ++ semicolon :: parenthesis :: rest)
  have form : StatementForm.of (State.ofTokens _) = .routine :=
    form_of_routine statics shape isWord
  obtain ⟨start, place, after, recovers, run⟩ :=
    run_routine_missing calm isSemicolon isWord statics shape
      (blocks nestingLimit)
  have atParenthesis : after.kind = .leftParenthesis := by
    rw [State.kind_eq_headKind, recovers.rest]
    exact isParenthesis
  have notClosed : after.advance.kind ≠ .rightParenthesis := by
    rwa [State.kind_eq_headKind, State.rest_advance recovers.rest]
  have made : (statement nestingLimit).run _ = _ :=
    run_statement_of_form calm (by rw [form]; rfl)
  rw [run] at made
  have opened : runSequence (fun _ => false) (statement nestingLimit) _ = _ :=
    runSequence_opened (by rw [shape]; simp) rfl
  rw [made] at opened
  obtain ⟨-, statements⟩ := readProgram_of_run opened
  exact ⟨_, _, _, _, statements, run_parameters_ne_nil atParenthesis notClosed⟩

end Clipper
