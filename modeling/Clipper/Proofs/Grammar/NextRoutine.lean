import Clipper.Proofs.Grammar.Handover
import Clipper.Proofs.Grammar.RoutinePlacement

/-!
# A program before a routine

Whatever is unfinished or wrong in a program, the routine after it is read as if
it stood alone: everything that is open ends before its head, and its first word
makes the reading forget what came before.

Two readings are compared at the head of the routine: the reading of the whole
list, which arrives there with reports, an offset reached and perhaps a
recovery, and the reading of the second list, which begins there.  The rule
for routines overwrites or ignores each of these before they can matter.  That
the first list comes to its end before the head is what the seam is for; a
word `STATIC` at its end would belong to the routine, and is excluded.
-/

namespace Clipper.Grammar

open Relabelled (relabel)
open Rule

/-! ## The first word of a routine -/

theorem State.advance_reached
    {state : State}
    (reached : Nat)
    (ahead : state.rest ≠ []) :
    { state with reached := reached }.advance = state.advance := by
  obtain ⟨token, rest, shape⟩ := List.exists_cons_of_ne_nil ahead
  rw [advance, advance, shape]

theorem run_bind_congr
    {α β : Type}
    {rule : Rule α}
    {next : α → Rule β}
    {first second : State}
    (same : rule.run second = rule.run first) :
    (rule >>= next).run second = (rule >>= next).run first := by
  rw [run_bind, run_bind, same]

/--
Once the first words of a routine are taken, it
is forgotten where the token before them ended.
-/
theorem run_firstWords_reached
    {β : Type}
    (next : Bool → Token → Rule β)
    {state : State}
    (reached : Nat)
    (ahead : state.rest ≠ []) :
    (eat .static >>= fun isStatic => advance >>= next isStatic).run
        { state with reached := reached } =
      (eat .static >>= fun isStatic => advance >>= next isStatic).run
        state := by
  have sameAdvance := State.advance_reached reached ahead
  rcases Decidable.em (state.kind = .static) with isStatic | noStatic
  · have ate : (eat .static).run { state with reached := reached } = _ :=
      eat_here isStatic
    exact run_bind_congr (by rw [ate, eat_here isStatic, sameAdvance])
  · have ate : (eat .static).run { state with reached := reached } = _ :=
      eat_elsewhere noStatic
    have taken : advance.run { state with reached := reached } =
        advance.run state :=
      congrArg (Prod.mk state.current) sameAdvance
    refine (run_bind _ _ _).trans (Eq.trans ?_ (run_bind _ _ _).symm)
    rw [ate, eat_elsewhere noStatic]
    exact run_bind_congr taken

/-- A routine does not depend on the offset that was reached before its head. -/
theorem run_routine_reached
    (block : List TokenKind → Rule Block)
    (state : State)
    (reached : Nat)
    (ahead : state.rest ≠ []) :
    (routine block).run { state with reached := reached } =
      (routine block).run state := by
  rw [routine]
  refine (run_bind _ _ _).trans (Eq.trans ?_ (run_bind _ _ _).symm)
  exact run_firstWords_reached _ reached ahead

/--
At the head of a routine, a statement is that routine, and its rule ends
the recovery before it.
-/
theorem run_statementOf_routine
    (expression : Rule Expr)
    (block : List TokenKind → Rule Block)
    (state : State)
    (opens : opensRoutine state.rest = true) :
    (statementOf expression block).run state =
      (some <$> routine block).run { state with recovering := false } := by
  have form : StatementForm.of { state with recovering := false } = .routine :=
    form_eq_routine opens
  change (statementOfForm _ _
    (StatementForm.of { state with recovering := false })).run _ = _
  rw [form]
  rfl

/--
Where a routine opens, a statement does not depend on what came before its head.
-/
theorem run_statement_atRoutine
    (levels : Nat)
    (state : State)
    (opens : opensRoutine state.rest = true)
    (reached : Nat)
    (recovering : Bool) :
    (statement levels).run
      { state with reached := reached, recovering := recovering } =
      (statement levels).run state := by
  obtain ⟨block, -, isForm⟩ := exists_statementOf levels
  have sameRoutine :
      (routine block).run
        { state with reached := reached, recovering := false } =
          (routine block).run { state with recovering := false } :=
    run_routine_reached block { state with recovering := false } reached
      (ahead_of_opensRoutine opens)
  have later :
      (statementOf (expression levels) block).run
          { state with reached := reached, recovering := recovering } =
        (some <$> routine block).run
          { state with reached := reached, recovering := false } :=
    run_statementOf_routine _ block _ opens
  rw [isForm, later, run_statementOf_routine _ block state opens]
  exact run_bind_congr sameRoutine

/--
From the head of a routine on, the loop over statements makes the same
statements and the same reports, whatever was reported before and whether or
not the reading recovers.
-/
theorem runSequence_atRoutine
    (levels : Nat)
    (state : State)
    (opens : opensRoutine state.rest = true)
    (clean : state.reports = [])
    (reached : Nat)
    (reports : List Report)
    (recovering : Bool) :
    runSequence (fun _ => false) (statement levels)
        { state with reached := reached, reports := reports, recovering :=
          recovering } =
      ((runSequence (fun _ => false) (statement levels) state).1,
        { (runSequence (fun _ => false) (statement levels) state).2 with
          reports :=
            (runSequence (fun _ => false) (statement levels) state).2.reports ++
              reports }) := by
  have forgets :
      runSequence (fun _ => false) (statement levels)
          { state with reached := reached, reports := reports, recovering :=
            recovering } =
        runSequence (fun _ => false) (statement levels)
          { state with reports := reports } :=
    runSequence_eq_of_first (ahead_of_opensRoutine opens) rfl
      (run_statement_atRoutine levels { state with reports := reports } opens
        reached recovering)
  have past := runSequence_past levels state reports
  rw [clean, List.nil_append] at past
  rw [forgets, past]

/-! ## The seam before a routine -/

theorem opensRoutine_relabel
    {change : Relabelling}
    (tokens : List Token) :
    opensRoutine (tokens.map (relabel change)) = opensRoutine tokens := by
  match tokens with
  | [] => rfl
  | [_] => rfl
  | _ :: _ :: _ => rfl

/--
The seam of two readings of which the second
one goes on with a routine, without places.
-/
def Seam.beforeRoutine
    (tokens : List Token)
    (opens : opensRoutine tokens = true) :
    Seam where
  change := .blind
  kind := .routine
  tail := tokens.map (relabel .blind)
  past := []
  fits := (opensRoutine_relabel tokens).trans opens

section NextRoutine

variable {first second : List Token}
variable (noEnd : ∀ token ∈ first ++ second, token.kind ≠ .endOfFile)
variable (opens : opensRoutine second = true)

include noEnd

/--
The readings of a program alone and of the
program before a routine begin side by side.
-/
theorem beside_beforeRoutine
    (noStatic : ∀ token ∈ first.getLast?, token.kind ≠ .static) :
    (Seam.beforeRoutine second opens).Beside (State.ofTokens first)
      (relabel .blind (State.ofTokens (first ++ second))) := by
  rw [ofTokens_of_noEnd noEnd,
    ofTokens_of_noEnd fun token member =>
      noEnd token (List.mem_append_left second member)]
  exact
    { rest := List.map_append
      stop := rfl
      final := rfl
      reached := rfl
      reports := ⟨[], rfl, .nil⟩
      recovering := rfl
      cutShort := rfl
      place := fun token member => by
        obtain ⟨original, -, rfl⟩ :=
          List.mem_map.mp (List.mem_of_mem_head? member)
        rfl
      last := noStatic
      resting := SeamKind.noConfusion }

include opens

/--
Before the routine, the state is that of the
routine alone, but for what a routine forgets.
-/
theorem eq_ofTokens_nextRoutine
    {middle : State}
    (reaches : (State.ofTokens (first ++ second)).Reaches middle)
    (sameLength : middle.rest.length = second.length)
    (whole : middle.cutShort = false) :
    ∃ reached reports recovering,
      middle =
        { State.ofTokens second with
          reached := reached
          reports := reports
          recovering := recovering } := by
  have noEndSecond : ∀ token ∈ second, token.kind ≠ .endOfFile :=
    fun token member =>
      noEnd token (List.mem_append_right first member)
  rw [ofTokens_of_noEnd noEnd] at reaches
  have rest : middle.rest = second :=
    (List.suffix_of_suffix_length_le reaches.suffix
      (List.suffix_append first second)
      sameLength.le).eq_of_length sameLength
  have sameEnd : endSpan (first ++ second) = endSpan second := by
    cases second with
    | nil => cases opens
    | cons token rest => rw [endSpan, endSpan, List.getLast?_append_cons]
  have ends : (State.endsAt (endSpan second)).holds middle :=
    reaches.keeps (State.endsAt _).kept ⟨sameEnd, sameEnd⟩
  refine ⟨middle.reached, middle.reports, middle.recovering, ?_⟩
  rw [ofTokens_of_noEnd noEndSecond]
  ext1
  · exact rest
  · exact ends.1
  · exact ends.2
  · rfl
  · rfl
  · rfl
  · exact whole

/--
The statements of the whole are those of the first list, up to places, and
then those of the second.
-/
theorem runSequence_nextRoutine
    (noStatic : ∀ token ∈ first.getLast?, token.kind ≠ .static)
    (shallow : (readProgram first).Shallow) :
    ∃ before past,
      (readProgram (first ++ second)).value.statements =
          before ++ (readProgram second).value.statements ∧
        before.map (relabel .blind) =
          (readProgram first).value.statements.map (relabel .blind) ∧
        (readProgram (first ++ second)).reports = past ++ (readProgram
          second).reports ∧
        past.length = (readProgram first).reports.length := by
  have ahead (left right : State)
      (beside : (Seam.beforeRoutine second opens).Beside left
        (relabel .blind right))
      (present : left.rest ≠ []) :
      right.rest ≠ [] :=
    mt List.map_eq_nil_iff.mpr (beside.ahead present)
  obtain ⟨before, middle, hands⟩ :=
    handsOver_of_rounds ahead
      (fun left right beside present whole =>
        beside.round SeamKind.noConfusion present (Or.inr whole))
      (beside_beforeRoutine noEnd opens noStatic) shallow.whole
  have ended := runSequence_open_ended (statement nestingLimit)
      (State.ofTokens first)
  have sameLength : middle.rest.length = second.length := by
    have rest := congrArg List.length (hands.between.rest_of_ended ended)
    rwa [State.rest_relabel, List.length_map, Seam.beforeRoutine,
      List.length_map] at rest
  obtain ⟨reached, reports, recovering, rfl⟩ :=
    eq_ofTokens_nextRoutine noEnd opens hands.reaches sameLength
      (hands.between.cutShort.trans shallow.whole)
  have noEndSecond : ∀ token ∈ second, token.kind ≠ .endOfFile :=
    fun token member =>
      noEnd token (List.mem_append_right first member)
  have start := ofTokens_of_noEnd noEndSecond
  have alone :=
    runSequence_atRoutine
      nestingLimit (State.ofTokens second) (by rw [start]; exact opens)
      (by rw [start]) reached reports recovering
  refine ⟨before, reports.reverse, ?_, hands.alike, ?_, ?_⟩
  · refine hands.values_eq.trans ?_
    rw [alone]
    rfl
  · refine (congrArg (List.reverse ∘ State.reports) hands.state_eq).trans ?_
    rw [alone]
    exact List.reverse_append
  · obtain ⟨made, shape, each⟩ := hands.between.reports
    change reports.map (relabel .blind) = made ++ [] at shape
    have sameLength : reports.length = made.length := by
      rw [← List.length_map, shape, List.append_nil]
    rw [List.length_reverse, sameLength, ← each.length_eq]
    exact List.length_reverse.symm

end NextRoutine

/--
Errors do not leak from one routine into the next: a program that begins with a
routine is read after any other program as if it stood alone.
-/
theorem readProgram_nextRoutine
    (first second : List Token)
    (noEnd : ∀ token ∈ first ++ second, token.kind ≠ .endOfFile)
    (opens : opensRoutine second = true)
    (noStatic : ∀ token ∈ first.getLast?, token.kind ≠ .static)
    (shallow : (readProgram first).Shallow) :
    (readProgram (first ++ second)).value.outline =
        (readProgram first).value.outline ++
          (readProgram second).value.outline ∧
      (∃ before,
        (readProgram (first ++ second)).value.statements =
            before ++ (readProgram second).value.statements ∧
          before.length = (readProgram first).value.statements.length) ∧
      ∃ earlier,
        (readProgram (first ++ second)).reports =
          earlier ++ (readProgram second).reports ∧
          earlier.length = (readProgram first).reports.length := by
  obtain ⟨before, past, statements, alike, reports, sameLength⟩ :=
    runSequence_nextRoutine noEnd opens noStatic shallow
  have outline : Stmt.outlines 0 before = (readProgram first).value.outline :=
    outlines_eq_of_blind alike 0
  refine ⟨?_, ⟨before, statements, ?_⟩, past, reports, sameLength⟩
  · rw [Program.outline, statements, outlines_append, outline]
    rfl
  · have lengths := congrArg List.length alike
    rwa [List.length_map, List.length_map] at lengths

/--
After a loop, a call and a code block that are open, a routine with an error of
its own is read as if it stood alone.
-/
theorem readProgram_nextRoutine_unclosed :
    let token := fun kind lexeme => Token.mk kind (Span.empty 0) lexeme
    let first :=
      [token .whileWord "WHILE", token .identifier "a", token .identifier "b",
        token .leftParenthesis "(", token .leftBrace "\x7b", token .bar "|",
        token .comma ","]
    let second :=
      [token .static "STATIC", token .function "FUNCTION",
        token .identifier "f", token .returnWord "RETURN", token .minus "-"]
    ((∀ token ∈ first ++ second, token.kind ≠ .endOfFile) ∧
      opensRoutine second = true ∧
        (∀ token ∈ first.getLast?, token.kind ≠ .static) ∧
        (readProgram first).Shallow) ∧
      (readProgram (first ++ second)).value.outline =
        (readProgram first).value.outline ++
          (readProgram second).value.outline ∧
      (∃ before,
        (readProgram (first ++ second)).value.statements =
            before ++ (readProgram second).value.statements ∧
          before.length = 1) ∧
      ∃ earlier,
        (readProgram (first ++ second)).reports =
          earlier ++ (readProgram second).reports ∧
          earlier.length = 2 := by
  intro token first second
  have noEnd : ∀ token ∈ first ++ second, token.kind ≠ .endOfFile := by decide
  have noStatic : ∀ token ∈ first.getLast?, token.kind ≠ .static := by
    rintro _ ⟨⟩
    decide
  have shallow : (readProgram first).Shallow := by decide +kernel
  have statements : (readProgram first).value.statements.length = 1 := by
    decide +kernel
  have reports : (readProgram first).reports.length = 2 := by decide +kernel
  have next := readProgram_nextRoutine first second noEnd rfl noStatic shallow
  rw [statements, reports] at next
  exact ⟨⟨noEnd, rfl, noStatic, shallow⟩, next⟩

end Clipper.Grammar
