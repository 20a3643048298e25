import Clipper.Proofs.Grammar.SpelledPhrase

/-!
# Programs in which the statements are terminated

A line's end does not separate two statements, so a rule goes on wherever the
token ahead can prolong what it reads.  In these phrases a semicolon stands
wherever that could happen: after each simple statement, after the head of each
block that an expression or a name could run into, and after `NEXT`.  A routine
has its closing word.

They are phrases of the statement grammar, in which these semicolons may stand
or not.
-/

namespace Clipper.Grammar

variable {α : Type}

/-- A part after a semicolon. -/
inductive SemicolonPhrase (part : Phrase α) : List Token → α → Prop where
  | semicolon
      {token : Token}
      {tokens : List Token}
      {value : α}
      (kind : token.kind = .semicolon)
      (after : part tokens value) :
      SemicolonPhrase part (token :: tokens) value

/-! ## Statements -/

section

variable (expression : Phrase Expr) (block : Phrase Block)

/--
What follows the block of an `IF` or `ELSEIF`,
with a semicolon after each condition.
-/
inductive TerminatedAlternative : List Token → Option Block → Prop where
  | nothing : TerminatedAlternative [] none
  | otherwise
      {word : Token}
      {tokens : List Token}
      {negative : Block}
      (words : word.kind = .elseWord)
      (after : block tokens negative) :
      TerminatedAlternative (word :: tokens) (some negative)
  | further
      {word : Token}
      {tokens thenTokens inner others : List Token}
      {condition : Expr}
      {hasThen : Bool}
      {positive : Block}
      {negative? : Option Block}
      (words : word.kind = .elseIf)
      (conditions : expression tokens condition)
      (thens : OptionalToken [.thenWord] thenTokens hasThen)
      (positives : SemicolonPhrase block inner positive)
      (alternatives : TerminatedAlternative others negative?)
      (span blockSpan : Span) :
      TerminatedAlternative
        (word :: (tokens ++ (thenTokens ++ (inner ++ others))))
        (some (.of [.conditional condition positive negative? span] blockSpan))

/--
A statement other than a routine, with the semicolons that separate its parts.
-/
inductive TerminatedForm : List Token → Stmt → Prop where
  | simple
      {semicolon : Token}
      {tokens : List Token}
      {statement : Stmt}
      (simple : SimplePhrase expression tokens statement)
      (terminates : semicolon.kind = .semicolon) :
      TerminatedForm (tokens ++ [semicolon]) statement
  | conditional
      {word closing : Token}
      {tokens thenTokens inner others : List Token}
      {condition : Expr}
      {hasThen : Bool}
      {positive : Block}
      {negative? : Option Block}
      (words : word.kind = .ifWord)
      (conditions : expression tokens condition)
      (thens : OptionalToken [.thenWord] thenTokens hasThen)
      (positives : SemicolonPhrase block inner positive)
      (alternatives : TerminatedAlternative expression block others negative?)
      (closes : closing.kind = .endIf)
      (span : Span) :
      TerminatedForm
        (word :: (tokens ++ (thenTokens ++ (inner ++ (others ++ [closing])))))
        (.conditional condition positive negative? span)
  | whileLoop
      {word closing : Token}
      {before tokens after inner : List Token}
      {condition : Expr}
      {doBefore doAfter : Bool}
      {body : Block}
      (dosBefore : OptionalToken [.doWord] before doBefore)
      (words : word.kind = .whileWord)
      (conditions : expression tokens condition)
      (dosAfter : OptionalToken [.doWord] after doAfter)
      (bodies : SemicolonPhrase block inner body)
      (closes : closing.kind = .endDo)
      (span : Span) :
      TerminatedForm
        (before ++ word :: (tokens ++ (after ++ (inner ++ [closing]))))
        (.whileLoop condition body span)
  | forLoop
      {word sign toToken closing semicolon : Token}
      {names firsts lasts steps inner again : List Token}
      {counter : Identifier}
      {first last : Expr}
      {step? : Option Expr}
      {body : Block}
      (words : word.kind = .forWord)
      (named : NamePhrase names counter)
      (signs : sign.kind = .assign ∨ sign.kind = .equal)
      (begins : expression firsts first)
      (tos : toToken.kind = .toWord)
      (ends : expression lasts last)
      (stepped : OptionalPhrase .step expression steps step?)
      (bodies : SemicolonPhrase block inner body)
      (closes : closing.kind = .next)
      (counters : CounterAgain counter again)
      (terminates : semicolon.kind = .semicolon)
      (span : Span) :
      TerminatedForm
        (word :: (names ++ sign ::
          (firsts ++ toToken :: (lasts ++ (steps ++ (inner ++
            closing :: (again ++ [semicolon])))))))
        (.forLoop counter first last step? body span)

/-- A routine with a semicolon after its head, and with its closing word. -/
inductive TerminatedRoutine : List Token → Stmt → Prop where
  | routine
      {word closing : Token}
      {before names tokens inner : List Token}
      {kind : RoutineKind}
      {isStatic : Bool}
      {name : Identifier}
      {parameters : List Identifier}
      {body : Block}
      (statics : OptionalToken [.static] before isStatic)
      (words : word.kind = routineWord kind)
      (named : NamePhrase names name)
      (parameterized : ParametersPhrase tokens parameters)
      (bodies : SemicolonPhrase block inner body)
      (closes : closing.kind = .endFunction ∨ closing.kind = .endProcedure)
      (span : Span) :
      TerminatedRoutine
        (before ++ word :: (names ++ (tokens ++ (inner ++ [closing]))))
        (.routine ⟨kind, isStatic, name, parameters⟩ body span)

end

/-! ## Blocks and programs -/

/--
A terminated statement other than a routine,
with a number of levels left below it.
-/
def TerminatedStatement : Nat → Phrase Stmt
  | 0 => TerminatedForm (ExpressionPhrase 0) .never
  | levels + 1 =>
      TerminatedForm (ExpressionPhrase (levels + 1))
        (BlockFormPhrase (TerminatedStatement levels))

/-- A block of terminated statements, with a number of levels left for it. -/
def TerminatedBlock : Nat → Phrase Block
  | 0 => .never
  | levels + 1 => BlockFormPhrase (TerminatedStatement levels)

/-- A program of terminated statements and routines. -/
def TerminatedProgram : List Token → List Stmt → Prop :=
  StatementsPhrase
    (fun tokens statement =>
      TerminatedStatement nestingLimit tokens statement ∨
        TerminatedRoutine (TerminatedBlock nestingLimit) tokens statement)

theorem terminatedStatement_eq (levels : Nat) :
    TerminatedStatement levels =
      TerminatedForm (ExpressionPhrase levels) (TerminatedBlock levels) := by
  cases levels <;> rfl

theorem statementPhrase_eq (levels : Nat) :
    StatementPhrase levels =
      StatementFormPhrase (ExpressionPhrase levels) (BlockPhrase levels) := by
  cases levels <;> rfl

/-! ## They are phrases of the statement grammar -/

theorem StatementsPhrase.append_semicolon
    {statement : Phrase Stmt}
    {tokens : List Token}
    {first : Stmt}
    {semicolon : Token}
    (head : statement tokens first)
    (terminates : semicolon.kind = .semicolon) :
    StatementsPhrase statement (tokens ++ [semicolon]) [first] :=
  .further head (.semicolon terminates .none)

/-- Statements and further statements are statements. -/
theorem StatementsPhrase.append
    {statement : Phrase Stmt}
    {tokens others : List Token}
    {first second : List Stmt}
    (head : StatementsPhrase statement tokens first)
    (rest : StatementsPhrase statement others second) :
    StatementsPhrase statement (tokens ++ others) (first ++ second) := by
  induction head with
  | none => exact rest
  | semicolon kind _ hypothesis => exact .semicolon kind hypothesis
  | further head _ hypothesis =>
      rw [List.append_assoc]
      exact .further head hypothesis

/--
What each phrase of one kind makes alone, several make one after the other.
-/
theorem StatementsPhrase.flatten
    {inner outer : Phrase Stmt}
    (each : ∀ tokens statement, inner tokens statement →
      StatementsPhrase outer tokens [statement])
    {tokens : List Token}
    {statements : List Stmt}
    (phrased : StatementsPhrase inner tokens statements) :
    StatementsPhrase outer tokens statements := by
  induction phrased with
  | none => exact .none
  | semicolon kind _ hypothesis => exact .semicolon kind hypothesis
  | further head _ hypothesis => exact (each _ _ head).append hypothesis

/-- Whatever the first phrase spells, the second one spells. -/
def Within (inner outer : Phrase α) : Prop :=
  ∀ tokens value, inner tokens value → outer tokens value

section

variable {expression : Phrase Expr} {inner outer : Phrase Block}
variable (within : Within inner outer)
    (absorbs : Within (SemicolonPhrase outer) outer)

include within absorbs

theorem within_semicolonPhrase : Within (SemicolonPhrase inner) outer := by
  intro tokens body phrased
  cases phrased with
  | semicolon kind after =>
      exact absorbs _ _ (.semicolon kind (within _ _ after))

/--
What comes after the first arm of a terminated conditional is an
alternative of the grammar.
-/
theorem within_alternative :
    ∀ tokens negative?,
      TerminatedAlternative expression inner tokens negative? →
      AlternativePhrase expression outer tokens negative? := by
  intro tokens negative? phrased
  have opened := within_semicolonPhrase within absorbs
  induction phrased with
  | nothing => exact .nothing
  | otherwise words after => exact .otherwise words (within _ _ after)
  | further words conditions thens positives _ span blockSpan hypothesis =>
      exact .further words conditions thens (opened _ _ positives) hypothesis
        span blockSpan

/--
A terminated statement is a statement, after which a semicolon may be left.
-/
theorem TerminatedForm.statements
    {tokens : List Token}
    {statement : Stmt}
    (phrased : TerminatedForm expression inner tokens statement) :
    StatementsPhrase (StatementFormPhrase expression outer) tokens
      [statement] := by
  have alone {tokens : List Token} {statement : Stmt}
      (form : StatementFormPhrase expression outer tokens statement) :
      StatementsPhrase (StatementFormPhrase expression outer) tokens
        [statement] := by
    rw [← List.append_nil tokens]
    exact .further form .none
  have opened := within_semicolonPhrase within absorbs
  cases phrased with
  | simple simple terminates =>
      exact alone (.simple simple
        (.present (List.mem_singleton.mpr terminates)))
  | conditional words conditions thens positives alternatives closes span =>
      exact alone (.conditional words conditions thens (opened _ _ positives)
        (within_alternative within absorbs _ _ alternatives) closes span)
  | whileLoop dosBefore words conditions dosAfter bodies closes span =>
      exact alone (.whileLoop dosBefore words conditions dosAfter
        (opened _ _ bodies) closes span)
  | forLoop words named signs begins tos ends stepped bodies closes counters
      terminates span =>
      have loop := StatementsPhrase.append_semicolon
        (StatementFormPhrase.forLoop words named signs begins tos ends stepped
          (opened _ _ bodies) closes counters span) terminates
      simpa only [List.cons_append, List.append_assoc] using loop

theorem within_routineForm :
    Within (TerminatedRoutine inner) (RoutineFormPhrase outer) := by
  intro tokens statement phrased
  have opened := within_semicolonPhrase within absorbs
  cases phrased with
  | routine statics words named parameterized bodies closes span =>
      refine .routine statics words named parameterized (opened _ _ bodies)
        (.present ?_) span
      simpa only [List.mem_cons, List.not_mem_nil, or_false] using closes

end

/-- A block takes a semicolon before its statements. -/
theorem absorbs_blockForm (statement : Phrase Stmt) :
    Within (SemicolonPhrase (BlockFormPhrase statement))
      (BlockFormPhrase statement) := by
  intro tokens body phrased
  cases phrased with
  | semicolon kind after =>
      cases after with
      | block inside span => exact .block (.semicolon kind inside) span

theorem absorbs_never :
    Within (SemicolonPhrase Phrase.never) (Phrase.never : Phrase α) := by
  intro tokens value phrased
  cases phrased with
  | semicolon _ impossible => exact impossible

theorem absorbs_block (levels : Nat) :
    Within (SemicolonPhrase (BlockPhrase levels)) (BlockPhrase levels) := by
  cases levels with
  | zero => exact absorbs_never
  | succ levels => exact absorbs_blockForm _

theorem absorbs_terminatedBlock (levels : Nat) :
    Within (SemicolonPhrase (TerminatedBlock levels))
      (TerminatedBlock levels) := by
  cases levels with
  | zero => exact absorbs_never
  | succ levels => exact absorbs_blockForm _

/--
A terminated block is a block of the grammar, whose
semicolons are optional there.
-/
theorem within_block (levels : Nat) :
    Within (TerminatedBlock levels) (BlockPhrase levels) := by
  induction levels with
  | zero => exact fun _ _ impossible => impossible
  | succ levels hypothesis =>
      intro tokens body phrased
      cases phrased with
      | block inside span =>
          refine .block (inside.flatten fun tokens statement form => ?_) span
          rw [terminatedStatement_eq] at form
          rw [statementPhrase_eq]
          exact form.statements hypothesis (absorbs_block levels)

/-- A terminated program is a program. -/
theorem TerminatedProgram.phrase
    {tokens : List Token}
    {statements : List Stmt}
    (phrased : TerminatedProgram tokens statements) :
    ProgramPhrase tokens statements := by
  refine phrased.flatten fun tokens statement form => ?_
  obtain form | routine := form
  · rw [terminatedStatement_eq] at form
    have single := form.statements (within_block nestingLimit)
        (absorbs_block nestingLimit)
    refine single.flatten fun tokens statement inside => ?_
    rw [← List.append_nil tokens]
    refine .further (.inl ?_) .none
    rwa [statementPhrase_eq]
  · have whole :=
      within_routineForm (within_block nestingLimit)
        (absorbs_block nestingLimit) _ _ routine
    rw [← List.append_nil tokens]
    exact .further (.inr whole) .none

theorem spelled_program : Spelled ProgramPhrase := by
  refine Spelled.statements fun tokens statement phrased => ?_
  obtain form | routine := phrased
  · exact (spelled_statement nestingLimit).all form
  · exact (spelled_routineForm (spelled_block nestingLimit)).all routine

end Clipper.Grammar
