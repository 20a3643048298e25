import Clipper.Grammar.Program
import Clipper.Proofs.Grammar.RoutinePlacement
import Clipper.Proofs.Grammar.StatementPlaces

/-!
# The tokens under the statements of a program

The statements of a program stand on tokens of their own.  Only a routine that
has an empty body and no closing word reaches further, to the beginning of the
next token or to the end of the file.  Semicolons in between would go into its
body and leave it empty.

A program differs from a block in that routines stand in it.  For the other
forms the statement was proved along the grammar; here it is put together with
the one for routines, whose end is not always a token.  A routine without a
closing word ends where its last statement does, and without a statement it
ends before what comes next, which is why the text under its span may lack its
last semicolons.
-/

namespace Clipper.Grammar

open Rule

/-! ## Semicolons alone -/

/-- A semicolon is an empty statement, which makes nothing. -/
theorem reads_statement_semicolon
    {levels : Nat}
    {state : State}
    (calm : state.Calm)
    (semicolon : state.kind = .semicolon) :
    Reads (statement levels) state none state.advance := by
  have form : StatementForm.of state = .empty := by
    rw [StatementForm.of, semicolon]
  rw [statement_eq, statementOf, reads_recovered_bind, reads_ask_bind, form]
  change Reads (advance >>= fun _ => pure none) state none state.advance
  rw [reads_advance_bind, reads_pure]
  exact ⟨calm.advance, rfl, rfl⟩

/-- A loop over statements takes semicolons and makes nothing of them. -/
theorem reads_sequence_semicolons
    {levels : Nat}
    {closes : State → Bool}
    (passes : ∀ state, state.kind = .semicolon → closes state = false)
    (semicolons : List Token) :
    ∀ {state : State}, state.Calm → state.rest = semicolons →
      (∀ token ∈ semicolons, token.kind = .semicolon) →
        ∃ next, Reads (sequence closes (statement levels)) state [] next ∧
          next.rest = [] := by
  induction semicolons with
  | nil =>
      intro state calm ended _
      exact ⟨state, reads_sequence_of_closed calm (.inl ended), ended⟩
  | cons token others hypothesis =>
      intro state calm shape semicolons
      rw [List.forall_mem_cons] at semicolons
      have semicolon : state.kind = .semicolon :=
        (State.kind_of_rest shape).trans semicolons.1
      obtain ⟨next, again, ended⟩ :=
        hypothesis calm.advance (State.rest_advance shape) semicolons.2
      have once : Reads (statement levels) state none state.advance :=
        reads_statement_semicolon calm semicolon
      exact ⟨next, reads_sequence_of_round (passes state semicolon) once
        (Curtailment.takes_statement once) again, ended⟩

/-- Semicolons up to the end of the file are an empty body of a routine. -/
theorem reads_block_semicolons
    {levels : Nat}
    {state : State}
    (calm : state.Calm)
    (semicolons : ∀ token ∈ state.rest, token.kind = .semicolon) :
    ∃ span next,
      Reads (blocks (levels + 1) [.endFunction, .endProcedure]) state
        (.of [] span) next ∧ next.rest = [] := by
  have passes (state : State) (semicolon : state.kind = .semicolon) :
      endsBlock [.endFunction, .endProcedure] state = false := by
    rw [endsBlock, opensRoutine_rest, semicolon]
    rfl
  obtain ⟨next, looped, ended⟩ :
      ∃ next,
        Reads (sequence (endsBlock [.endFunction, .endProcedure])
          (statement levels)) state []
          next ∧ next.rest = [] :=
    reads_sequence_semicolons passes _ calm rfl semicolons
  refine ⟨⟨state.start, max next.reached state.start⟩, next, ?_, ended⟩
  rw [blocks, blockOf, reads_ask_bind]
  refine reads_bind.mpr ⟨_, _, looped, ?_⟩
  rw [reads_recovered_bind, spanFrom, reads_ask_bind, reads_pure]
  exact ⟨looped.calm_next, rfl, rfl⟩

/-- At the end of the tokens the closing word of a routine may be missing. -/
theorem reads_closeRoutine_of_ended
    {state : State}
    (calm : state.Calm)
    (ended : state.rest = []) :
    Reads closeRoutine state () state := by
  have differs {kind : TokenKind} (isToken : kind ≠ .endOfFile) :
      state.kind ≠ kind := by
    rw [State.kind_eq_headKind, ended]
    exact isToken.symm
  rw [closeRoutine, reads_eat_ite]
  refine .inr ⟨differs (by decide), reads_bind.mpr ⟨false, state, ?_, ?_⟩⟩
  · exact reads_eat.mpr ⟨calm, .inr ⟨differs (by decide), rfl, rfl⟩⟩
  · exact reads_pure.mpr ⟨calm, rfl, rfl⟩

/-! ## Routines without a body and a closing word -/

/--
With these tokens ahead and no others, a
statement with the same outline is read.
-/
def ReadAs
    (made : Stmt)
    (tokens : List Token) :
    Prop :=
  ∃ state other next,
    state.rest = tokens ∧ state.reports = [] ∧
      Reads (Grammar.statement nestingLimit) state (some other) next ∧
        next.rest = [] ∧
        other.outline 0 = made.outline 0

theorem StandsAlone.readAs
    {made : Stmt}
    {tokens : List Token}
    (stands : StandsAlone made tokens) :
    ReadAs made tokens := by
  obtain ⟨state, next, shape, clean, reads, ended⟩ := stands.alone
  exact ⟨state, made, next, shape, clean, reads, ended, rfl⟩

/--
The statement reaches further than its tokens;
semicolons behind these do not change it.
-/
structure StandsOpen
    (made : Stmt)
    (tokens : List Token)
    (stop : Nat) :
    Prop where
  span : made.span = ⟨(hull tokens).start, stop⟩
  alone :
    ∀ semicolons : List Token, (∀ token ∈ semicolons, token.kind = .semicolon) →
      ReadAs made (tokens ++ semicolons)

/--
The head of a routine, with semicolons behind it and nothing else, is read
alone as the routine with an empty body.
-/
theorem readAs_of_routineOpening
    {state middle : State}
    {start : Nat}
    {head : RoutineHead}
    {bodySpan span : Span}
    {tokens semicolons : List Token}
    (opens : opensRoutine state.rest = true)
    (opening : Reads routineOpening state (start, head) middle)
    (taken : state.rest = tokens ++ middle.rest)
    (nonempty : tokens ≠ [])
    (clear : EndsClear tokens)
    (only : ∀ token ∈ semicolons, token.kind = .semicolon) :
    ReadAs (.routine head (.of [] bodySpan) span) (tokens ++ semicolons) := by
  have quiet : isQuiet (headKind semicolons) = true := by
    cases semicolons with
    | nil => rfl
    | cons token others =>
        rw [headKind, only token List.mem_cons_self]
        rfl
  let cut : Curtailment := ⟨middle.rest, semicolons, false, fun _ => quiet⟩
  have keeps : cut.Keeps routineOpening routineOpening state :=
    Curtailment.keeps_routineOpening opens
  obtain ⟨later, shape, kept⟩ :=
    keeps opening taken (.of_full rfl (List.suffix_refl _)) clear
  have ended : later = [] := List.self_eq_append_left.mp shape
  rw [ended] at kept
  obtain ⟨inner, last, body, finished⟩ :
      ∃ span next,
        Reads (blocks nestingLimit [.endFunction, .endProcedure])
          (cut.state middle []) (.of [] span) next ∧ next.rest = [] :=
    reads_block_semicolons kept.calm_next only
  have closing := reads_closeRoutine_of_ended body.calm_next finished
  obtain ⟨other, whole⟩ :
      ∃ other,
        Reads (routine (blocks nestingLimit)) (cut.state state tokens)
          (.routine head (.of [] inner) other) last := by
    refine ⟨((Span.mk start (max last.reached start)).merge
      head.name.span).mergeAll
      (head.parameters.map Identifier.span) |>.merge inner, ?_⟩
    rw [routine_eq]
    refine reads_bind.mpr ⟨_, _, kept, reads_bind.mpr ⟨_, _, body, ?_⟩⟩
    refine reads_bind.mpr ⟨_, _, closing, ?_⟩
    rw [routineOf, spanFrom, reads_ask_bind, reads_pure]
    exact ⟨closing.calm_next, rfl, rfl⟩
  obtain ⟨token, front, rfl⟩ := List.exists_cons_of_ne_nil nonempty
  have form : StatementForm.of (cut.state state (token :: front)) = .routine :=
    (Curtailment.form_state taken clear).trans (form_eq_routine opens)
  refine ⟨cut.state state (token :: front), .routine head (.of [] inner) other,
    last, rfl, rfl, ?_, finished, rfl⟩
  rw [statement_eq, statementOf, reads_recovered_bind, reads_ask_bind, form]
  exact reads_map.mpr ⟨_, whole, rfl⟩

/-! ## The statements of a program -/

/--
A statement at the top of a program is placed among its tokens, or it is a
routine that is left open and reaches to what comes after them.
-/
inductive StandsBefore
    (stop : Span)
    (part : List Token)
    (made : Stmt)
    (after : List Token) :
    Prop where
  | placed (whole : Placed part (.statement made))
  | unclosed
      (children : ∀ child ∈ Node.children (.statement made), Placed part child)
      (stands : StandsOpen made part (spanAhead stop after).start)

/--
What stands in a statement at the top stands
among its tokens, but for an open routine.
-/
theorem StandsBefore.within
    {stop : Span}
    {part after : List Token}
    {made : Stmt}
    {node : Node}
    (stands : StandsBefore stop part made after)
    (inside : Node.Within (.statement made) node) :
    StandsAmong part node ∨
      node = .statement made ∧
      StandsOpen made part (spanAhead stop after).start := by
  cases stands with
  | placed whole => exact .inl (whole node inside)
  | unclosed children stands =>
      obtain rfl | ⟨child, member, below⟩ := inside.root_or_below
      · exact .inr ⟨rfl, stands⟩
      · exact .inl (children child member node below)

/--
A routine of a program stands on tokens that are taken for it, or its head
stands on them and its body is empty.
-/
theorem standsBefore_routine
    {state next : State}
    {made : Stmt}
    (order : state.InOrder)
    (opens : opensRoutine state.rest = true)
    (reads : Reads (statement nestingLimit) state (some made) next) :
    ∃ part ending, state.rest = part ++ (ending ++ next.rest) ∧
      StandsBefore state.stop part made (ending ++ next.rest) := by
  have le := Nat.le_refl nestingLimit
  rw [statement_eq, statementOf, reads_recovered_bind, reads_ask_bind] at reads
  have form := form_eq_routine opens
  obtain ⟨rule, middle, isRule, read, ending, endingTaken⟩ := reads_proper reads
  obtain ⟨others, othersTaken, nonempty, clear⟩ :=
    clear_proper (StatementForm.ahead_of state) isRule read
  have alone (tokens : List Token)
      (taken : state.rest = tokens ++ middle.rest) :=
    alone_of_proper le isRule read taken
  rw [form] at isRule
  cases isRule
  obtain ⟨part, taken, children, lies⟩ :=
    lies_routine (blockLies_blocks le) order opens read
  obtain rfl : others = part :=
    List.append_cancel_right (othersTaken.symm.trans taken)
  refine ⟨others, ending, by rw [taken, endingTaken], ?_⟩
  rw [endingTaken]
  cases lies with
  | closed span =>
      apply StandsBefore.placed
      apply Node.Everywhere.of_children _ children
      exact .inr ⟨others, List.infix_refl others, span, alone others taken⟩
  | unclosed same opening openingTaken extent =>
      have stop := (read.takesOnly taken).stop
      refine .unclosed children ⟨?_, ?_⟩
      · rw [extent, State.start, State.span_current, stop]
      · intro semicolons only
        rw [same]
        exact readAs_of_routineOpening opens opening openingTaken
          nonempty clear only

/--
A statement of a program stands on tokens that are taken for it, with what
ends it behind them.
-/
theorem standsBefore_statement
    {state next : State}
    {made : Stmt}
    (order : state.InOrder)
    (reads : Reads (statement nestingLimit) state (some made) next) :
    ∃ part ending, state.rest = part ++ (ending ++ next.rest) ∧
      StandsBefore state.stop part made (ending ++ next.rest) := by
  cases opens : opensRoutine state.rest with
  | true => exact standsBefore_routine order opens reads
  | false =>
      have le := Nat.le_refl nestingLimit
      obtain ⟨part, ending, shape, -, held⟩ :=
        held_statement le (blockLies_blocks le) order opens reads
      exact ⟨part, ending, shape, .placed held.placed⟩

/--
Every statement of a program that is read
without a report stands on tokens of it.
-/
theorem standsBefore_program
    {tokens : List Token}
    (order : (State.ofTokens tokens).InOrder)
    (clean : (readProgram tokens).reports = []) :
    ∀ made ∈ (readProgram tokens).value.statements, ∃ before part after,
      (State.ofTokens tokens).rest = before ++ (part ++ after) ∧
        StandsBefore (State.ofTokens tokens).stop part made after := by
  obtain ⟨_, reads⟩ := reads_of_clean clean
  have round
      {before : State}
      {made : Stmt}
      {after : State}
      (_ : false = false)
      (read : Reads (statement nestingLimit) before (some made) after)
      (orderHere : before.InOrder)
      (stop : before.stop = (State.ofTokens tokens).stop) :
      ∃ part ending, before.rest = part ++ (ending ++ after.rest) ∧
        StandsBefore (State.ofTokens tokens).stop part made
          (ending ++ after.rest) :=
    stop ▸ standsBefore_statement orderHere read
  obtain ⟨taken, shape, -, lie⟩ :=
    exists_part_sequence Curtailment.takes_statement round reads order
  intro made member
  obtain ⟨before, part, after, rfl, stands⟩ := lie made member
  refine ⟨before, part, _, ?_, stands⟩
  rw [shape]
  simp

end Clipper.Grammar
