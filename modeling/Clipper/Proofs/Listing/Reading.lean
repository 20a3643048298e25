import Clipper.Proofs.Listing.StatementReading
import Clipper.Proofs.Listing.StatementText
import Clipper.Proofs.Grammar.RelabelledReadings

/-!
# A printed program is read back

The text of a printable program is read without a report, and the program that
is read has the outline of the one that was printed.

A block is read by induction on its statements.  The reader stops before the
token that closes the block, since no statement begins with it, and a
statement ends before the next one, since the program is printable.  So the
text of the whole is read without a report, and the outlines agree, as an
outline does not tell spans and a listing keeps every name, literal and
operator.
-/

namespace Clipper

open Grammar Rule Lexeme
open Relabelled (relabel)

/-! ## Forms -/

/-- The form of a printable statement shows in its first tokens. -/
theorem Stmt.form_ahead
    {statement : Stmt}
    (printable : statement.isPrintable = true)
    {after : List Token}
    {state : State}
    (ahead : state.rest = statement.tokens ++ after) :
    StatementForm.of state = statement.form := by
  have kind : state.kind = headKind (statement.tokens ++ after) := by
    rw [State.kind_eq_headKind, ahead]
  cases simple : statement.isSimple with
  | true =>
      exact (Stmt.simplePhrase simple printable le_rfl).form_ahead
        (begins_expression _) ahead
  | false =>
      cases statement with
      | conditional _ _ negative? =>
          cases negative? <;> (rw [StatementForm.of, kind]; rfl)
      | routine head =>
          obtain ⟨routineKind, isStatic, name, names⟩ := head
          refine form_eq_routine ?_
          rw [ahead]
          cases isStatic <;> cases routineKind <;> rfl
      | whileLoop | forLoop =>
          rw [StatementForm.of, kind]
          rfl
      | _ => cases simple

/-! ## What ends a statement -/

/-- What ends every statement before it, and opens none. -/
structure Concludes (after : List Token) : Prop where
  ends : goesOn (headKind after) = false
  noValue : opensExpression (headKind after) = false

/--
Before a token that closes a block, or at the end, every statement ends: none
of the signs that go on with an expression stands there.
-/
theorem Concludes.endsBefore
    {after : List Token}
    (concludes : Concludes after)
    (statement : Stmt) :
    statement.endsBefore after = true := by
  have noSemicolon : headKind after ≠ .semicolon :=
    ne_of_not_goesOn concludes.ends rfl
  cases statement with
  | print _ values =>
      cases values with
      | nil => simp [Stmt.endsBefore, concludes.noValue, noSemicolon]
      | cons => simp [Stmt.endsBefore, concludes.ends]
  | result value? =>
      cases value? with
      | none => simp [Stmt.endsBefore, concludes.noValue, noSemicolon]
      | some => simp [Stmt.endsBefore, concludes.ends]
  | forLoop =>
      cases after with
      | nil => rfl
      | cons token rest =>
          have noName : token.kind ≠ .identifier := by
            intro isName
            have noValue := concludes.noValue
            rw [headKind, isName] at noValue
            cases noValue
          simp [Stmt.endsBefore, noName]
  | exit | loop => simp [Stmt.endsBefore, noSemicolon]
  | expression | assign | update | declare =>
      simp [Stmt.endsBefore, concludes.ends]
  | conditional | whileLoop | routine => rfl

/-- Only the token that follows a statement matters for its end. -/
theorem Concludes.endsBefore_append
    {after : List Token}
    (concludes : Concludes after)
    {statement : Stmt}
    {rest : List Token}
    (ends : statement.endsBefore rest = true) :
    statement.endsBefore (rest ++ after) = true := by
  cases rest with
  | nil => exact concludes.endsBefore statement
  | cons token rest =>
      cases statement with
      | print _ values => cases values <;> exact ends
      | result value? => cases value? <;> exact ends
      | _ => exact ends

/-- A closing word ends the statements before it. -/
theorem concludes_of_isCloser
    {after : List Token}
    (closer : (headKind after).isCloser = true) :
    Concludes after := by
  have both : goesOn (headKind after) = false ∧
      opensExpression (headKind after) = false := by
    cases kind : headKind after with
    | endIf | elseWord | elseIf | endDo | next | endFunction | endProcedure =>
        exact ⟨rfl, rfl⟩
    | _ =>
        rw [kind] at closer
        cases closer
  exact ⟨both.1, both.2⟩

/-- A simple statement does not end before a semicolon, which it would take. -/
theorem Stmt.not_semicolon_of_endsBefore
    {statement : Stmt}
    (simple : statement.isSimple = true)
    {after : List Token}
    (ends : statement.endsBefore after = true) :
    headKind after ≠ .semicolon := by
  intro isSemicolon
  have prolongs : goesOn .semicolon = true := rfl
  cases statement with
  | print _ values =>
      cases values <;> simp [endsBefore, isSemicolon, prolongs] at ends
  | result value? =>
      cases value? <;> simp [endsBefore, isSemicolon, prolongs] at ends
  | expression | assign | update | declare =>
      simp [endsBefore, isSemicolon, prolongs] at ends
  | exit | loop => simp [endsBefore, isSemicolon] at ends
  | conditional | whileLoop | forLoop | routine => cases simple

/-! ## Statements and blocks -/

/--
A printable statement has a token, so every round of the reader takes one.
-/
theorem Stmt.tokens_ne_nil
    {statement : Stmt}
    (printable : statement.isPrintable = true) :
    statement.tokens ≠ [] := by
  cases statement with
  | expression value => exact (Expr.opens_tokens printable).1
  | assign | update =>
      exact List.append_ne_nil_of_right_ne_nil _ (List.cons_ne_nil _ _)
  | routine head =>
      rw [tokens, RoutineHead.tokens, List.append_assoc]
      exact List.append_ne_nil_of_right_ne_nil _ (List.cons_ne_nil _ _)
  | result value? => cases value? <;> exact List.cons_ne_nil _ _
  | conditional _ _ negative? => cases negative? <;> exact List.cons_ne_nil _ _
  | print | declare | whileLoop | forLoop | exit | loop =>
      exact List.cons_ne_nil _ _

section

variable {levels : Nat} {after : List Token}

/--
A printable statement is read from its tokens if its form reads it: the reader
finds the form by looking at one or two tokens.
-/
theorem takes_statement
    {statement : Stmt}
    {block : List TokenKind → Rule Block}
    (isForm : Grammar.statement levels = statementOf (expression levels) block)
    (printable : statement.isPrintable = true)
    (formed :
      Takes (statementOfForm (expression levels) block statement.form)
        statement.tokens after statement.Found) :
    Takes (Grammar.statement levels) statement.tokens after
      statement.Found := by
  rw [isForm]
  exact takes_statementOf (fun _ ahead => Stmt.form_ahead printable ahead)
    formed

/-- The simple statements. -/
theorem Stmt.takes_simple
    {statement : Stmt}
    (block : List TokenKind → Rule Block)
    (simple : statement.isSimple = true)
    (printable : statement.isPrintable = true)
    (shallow : statement.levels ≤ levels)
    (ends : statement.endsBefore after = true) :
    Takes (statementOfForm (Grammar.expression levels) block statement.form)
      statement.tokens after statement.Found := by
  have stops := stopsBefore_of_endsBefore simple ends
  obtain ⟨rule, isRule, takes⟩ :=
    (Stmt.simplePhrase simple printable shallow).takes stops block
  rw [isRule]
  exact takes_terminated takes (not_semicolon_of_endsBefore simple ends)

end

/-- A block takes at least one level. -/
theorem Block.exists_levels
    {block : Block}
    {levels : Nat}
    (shallow : block.levels ≤ levels) :
    ∃ inner, levels = inner + 1 ∧ block.levels ≤ inner + 1 := by
  cases block with
  | of statements =>
      obtain ⟨inner, rfl⟩ :=
        Nat.exists_eq_succ_of_ne_zero (Nat.ne_zero_of_lt shallow)
      exact ⟨inner, rfl, shallow⟩

mutual

/--
The tokens of a printable statement are read as the statement, where it ends.
-/
theorem Stmt.takes
    (statement : Stmt)
    (printable : statement.isPrintable = true)
    {levels : Nat}
    (shallow : statement.levels ≤ levels)
    {after : List Token}
    (ends : statement.endsBefore after = true) :
    Takes (Grammar.statement levels) statement.tokens after
      statement.Found := by
  cases statement with
  | conditional condition positive negative? span =>
      cases negative? with
      | none =>
          have isPrintable := printable
          simp only [Stmt.isPrintable, Bool.and_eq_true] at isPrintable
          obtain ⟨⟨printableCondition, endsInside⟩, printableInside⟩ :=
            isPrintable
          rw [Stmt.levels, Nat.max_le, Expr.levelsInside_le_iff] at shallow
          obtain ⟨inner, rfl, shallowInside⟩ := Block.exists_levels shallow.2
          refine takes_statement rfl printable (takes_found ?_)
          exact takes_tokens_conditional span printableCondition
            (shallow.1 condition List.mem_cons_self) endsInside
              rfl TokenKind.noConfusion
            (positive.takes printableInside shallowInside (by decide) rfl)
            (takes_optionalAfter_none TokenKind.noConfusion rfl)
      | some negative =>
          have isPrintable := printable
          simp only [Stmt.isPrintable, Bool.and_eq_true] at isPrintable
          obtain ⟨⟨⟨printableCondition, endsInside⟩, printableInside⟩,
              printableOther⟩ :=
            isPrintable
          rw [Stmt.levels, Nat.max_le, Expr.levelsInside_le_iff, Nat.max_le]
            at shallow
          obtain ⟨inner, rfl, shallowInside⟩ := Block.exists_levels shallow.2.1
          have other :
              Takes (blockOf (Grammar.statement inner) [.endIf]) negative.tokens
                (.unplaced .endIf "ENDIF" :: after) (Alike negative) :=
            negative.takes printableOther shallow.2.2 (by decide) rfl
          refine takes_statement rfl printable (takes_found ?_)
          exact takes_tokens_conditional span printableCondition
            (shallow.1 condition List.mem_cons_self) endsInside
              rfl TokenKind.noConfusion
            (positive.takes printableInside shallowInside (by decide) rfl)
            (takes_optionalAfter rfl (other.mono fun _ alike => alike.some))
  | whileLoop condition body span =>
      have isPrintable := printable
      simp only [Stmt.isPrintable, Bool.and_eq_true] at isPrintable
      obtain ⟨⟨printableCondition, endsInside⟩, printableInside⟩ := isPrintable
      rw [Stmt.levels, Nat.max_le, Expr.levelsInside_le_iff] at shallow
      obtain ⟨inner, rfl, shallowInside⟩ := Block.exists_levels shallow.2
      refine takes_statement rfl printable (takes_found ?_)
      exact takes_tokens_whileLoop span printableCondition
        (shallow.1 condition List.mem_cons_self)
        endsInside (body.takes printableInside shallowInside (by decide) rfl)
  | forLoop counter first last step? body span =>
      have isPrintable := printable
      simp only [Stmt.isPrintable, Bool.and_eq_true] at isPrintable
      rw [Stmt.levels, Nat.max_le] at shallow
      obtain ⟨inner, rfl, shallowInside⟩ := Block.exists_levels shallow.2
      refine takes_statement rfl printable (takes_found ?_)
      exact takes_tokens_forLoop span printable shallow.1
        (body.takes isPrintable.2 shallowInside (by decide) rfl) ends
  | routine head body span =>
      have isPrintable := printable
      simp only [Stmt.isPrintable, Bool.and_eq_true] at isPrintable
      obtain ⟨inner, rfl, shallowInside⟩ := Block.exists_levels shallow
      have closes :
          [TokenKind.endFunction, .endProcedure].contains
            (headKind (head.kind.closingToken :: after)) = true := by
        cases head.kind <;> rfl
      refine takes_statement rfl printable (takes_found ?_)
      exact takes_tokens_routine head span
        (body.takes isPrintable.2 shallowInside (by decide) closes)
  | expression | assign | update | print | declare | result | exit | loop =>
      obtain ⟨block, -, isForm⟩ := exists_statementOf levels
      exact takes_statement isForm printable
        (Stmt.takes_simple block rfl printable shallow ends)

/--
The tokens of a printable block are read as the block, up to a closing word.
-/
theorem Block.takes
    (block : Block)
    (printable : block.isPrintable = true)
    {levels : Nat}
    (shallow : block.levels ≤ levels + 1)
    {closers : List TokenKind}
    (areClosers : ∀ kind ∈ closers, kind.isCloser = true)
    {after : List Token}
    (closes : closers.contains (headKind after) = true) :
    Takes (blockOf (statement levels) closers) block.tokens after
      (Alike block) := by
  cases block with
  | of statements span =>
      simp only [Block.isPrintable, Bool.and_eq_true, List.all_eq_true,
        Bool.not_eq_true']
        at printable
      obtain ⟨notRoutines, printableInside⟩ := printable
      have concludes : Concludes after :=
        concludes_of_isCloser (areClosers _ (List.contains_iff_mem.mp closes))
      have opened : ∀ statement ∈ statements, statement.isPrintable = true →
          ∀ state : State,
          StatementForm.of state = statement.form →
          endsBlock closers state = false := by
        intro statement among _ state isForm
        refine endsBlock_eq_false areClosers ?_ ?_
        · rw [isForm]
          exact statement.form_ne_strayCloser
        · rw [isForm]
          exact Stmt.form_ne_routine (notRoutines statement among)
      have closed (state : State) (ahead : state.rest = after) :
          after = [] ∨ endsBlock closers state = true := by
        rw [endsBlock, State.kind_eq_headKind, ahead, closes]
        exact .inr rfl
      have lines := Stmt.takes_lines statements printableInside
        (Nat.le_of_succ_le_succ shallow)
        concludes opened closed
      exact takes_blockOf lines span

/--
The tokens of printable statements are read
as the statements, where they are over.
-/
theorem Stmt.takes_lines
    (statements : List Stmt)
    (printable : Stmt.arePrintable statements = true)
    {levels : Nat}
    (shallow : Stmt.levelsOf statements ≤ levels)
    {closes : State → Bool}
    {after : List Token}
    (concludes : Concludes after)
    (opened :
      ∀ statement ∈ statements, statement.isPrintable = true → ∀ state : State,
        StatementForm.of state = statement.form → closes state = false)
    (closed : ∀ state : State, state.rest = after →
      after = [] ∨ closes state = true) :
    Takes (sequence closes (Grammar.statement levels))
      (Stmt.tokensOf statements) after (Alike statements) := by
  cases statements with
  | nil => exact takes_sequence_nil closed rfl
  | cons first rest =>
      simp only [Stmt.arePrintable, Bool.and_eq_true] at printable
      obtain ⟨⟨isPrintable, ends⟩, arePrintable⟩ := printable
      rw [Stmt.levelsOf, Nat.max_le] at shallow
      rw [List.forall_mem_cons] at opened
      refine takes_sequence_cons (Stmt.tokens_ne_nil isPrintable) ?_
        (first.takes isPrintable shallow.1 (concludes.endsBefore_append ends))
          ?_
      · exact fun state ahead =>
          opened.1 isPrintable state (Stmt.form_ahead isPrintable ahead)
      · intro made alike
        have others := Stmt.takes_lines rest arePrintable shallow.2 concludes
            opened.2 closed
        exact others.mono fun values same => congrArg₂ List.cons alike same

end

/-! ## Programs -/

/--
The grammar takes the tokens of a printable program and reads the
program, up to places.
-/
theorem Program.takes
    {program : Program}
    (printable : program.isPrintable = true) :
    Takes Grammar.program program.tokens []
      (fun read => Alike program.statements read.statements) := by
  rw [isPrintable, Bool.and_eq_true, decide_eq_true_eq] at printable
  have lines :
      Takes (sequence (fun _ => false) (statement nestingLimit))
        program.tokens [] (Alike program.statements) :=
    Stmt.takes_lines program.statements printable.1 printable.2 ⟨rfl, rfl⟩
      (fun _ _ _ _ _ => rfl) (fun _ _ => .inl rfl)
  exact lines.bind_last fun statements alike => takes_ask_bind fun _ _ _ =>
    takes_pure alike

/-- No token of a program stands for the end of the file. -/
theorem Program.kind_ne_endOfFile
    {program : Program}
    (printable : program.isPrintable = true)
    {token : Token}
    (among : token ∈ program.tokens) :
    token.kind ≠ .endOfFile := by
  rw [isPrintable, Bool.and_eq_true] at printable
  -- They are the tokens of a text but for its last one, up to places.
  obtain ⟨⟨earlier, shape, standing⟩, -⟩ := tokens_all_partition program.listing
  have same := program.tokens_all_listing printable.1
  rw [shape, List.map_append] at same
  rw [← (List.append_inj' same rfl).1] at among
  obtain ⟨original, member, rfl⟩ := List.mem_map.mp among
  exact (standing original member).kind

/-- The tokens of a printable program are read as the program. -/
theorem readProgram_tokens
    {program : Program}
    (printable : program.isPrintable = true) :
    (readProgram (program.tokens ++ [.unplaced .endOfFile ""])).reports = [] ∧
      Alike program.statements
        (readProgram
          (program.tokens ++ [.unplaced .endOfFile ""])).value.statements := by
  have rest :
      (State.ofTokens (program.tokens ++ [.unplaced .endOfFile ""])).rest =
      program.tokens ++ [] := by
    change List.takeWhile (fun token : Token => token.kind != .endOfFile) _ = _
    rw [List.takeWhile_append_of_pos]
    · rfl
    · exact fun token among =>
        bne_iff_ne.mpr (Program.kind_ne_endOfFile printable among)
  obtain ⟨read, next, reads, -, alike⟩ :=
    Program.takes printable (State.calm_ofTokens _) rest
  rw [readProgram, Rule.readTokens, reads.run]
  refine ⟨?_, alike⟩
  change next.reports.reverse = []
  rw [reads.quiet]
  rfl

/--
The text of a printable program is read without a report, and the program that
is read has the outline of the program that was printed.
-/
theorem programOfText_listing
    (program : Program)
    (printable : program.isPrintable = true) :
    (programOfText program.listing).reports = [] ∧
      (programOfText program.listing).value.outline = program.outline := by
  have unplaced : relabel .blind (programOfText program.listing) =
      readProgram (program.tokens ++ [.unplaced .endOfFile ""]) := by
    rw [programOfText, ← readProgram_relabel, program.tokens_all_listing]
    rw [Program.isPrintable, Bool.and_eq_true] at printable
    exact printable.1
  obtain ⟨quiet, alike⟩ := readProgram_tokens printable
  rw [← unplaced] at quiet alike
  constructor
  · exact List.map_eq_nil_iff.mp quiet
  · rw [Program.outline, ← outlines_relabel_stmts .blind]
    exact outlines_eq_of_blind alike 0

/-- A function with a loop and a conditional is printable. -/
theorem programOfText_listing_loop :
    let text := "FUNCTION f(n)\nLOCAL s := 0, i\nFOR i := 1 TO n STEP 2\n" ++
      "IF i > 3 .AND. .NOT. s\ns += i * 2\nELSE\n" ++
      "? i:name(n), 'x'\nENDIF\nNEXT\n" ++
      "RETURN s\nENDFUNCTION\n"
    let program := (programOfText text.toList).value
    program.isPrintable = true ∧
      (programOfText program.listing).reports = [] ∧
        (programOfText program.listing).value.outline = program.outline := by
  intro text program
  have printable : program.isPrintable = true := by decide +kernel
  exact ⟨printable, programOfText_listing program printable⟩

end Clipper
