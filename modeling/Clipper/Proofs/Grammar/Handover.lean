import Clipper.Proofs.Grammar.ProgramSpans
import Clipper.Proofs.Grammar.RelabelledReadings
import Clipper.Proofs.Syntax.Blind

/-!
# From one program to the next

Where two lists of tokens are read as one, the loop over statements first does
what it does on the first list alone, up to places, and then stands before the
second list.  What it reads from there on is not affected by the reports made
before.

The first list ends before the second begins, and the two things that could go
wrong there are excluded by the hypotheses on the seam: that a statement of
the first list goes on with tokens of the second, and that the reading still
recovers when it comes there.  What the loop has done by then is put in a
structure, with the statements, the reports and the state at the border; the
rest of the loop is the reading of the second list.
-/

namespace Clipper.Grammar

open Relabelled (relabel)
open Rule

variable {change : Relabelling}

/-! ## Rounds of the loop -/

/-- Whether a round has taken a token is the same for relabelled tokens. -/
theorem State.forward_relabel
    (change : Relabelling)
    {before after : State}
    (suffix : after.rest <:+ before.rest)
    (ahead : before.rest ≠ []) :
    (relabel change before).forward (relabel change after) =
      relabel change (before.forward after) := by
  have same (state : State) :
      (Seam.ofRelabelling change).Beside state (relabel change state) :=
    (Seam.beside_ofRelabelling change _ _).mpr rfl
  exact (Seam.beside_ofRelabelling change _ _).mp
    ((same before).forward (same after) suffix ahead nofun)

section Handover

variable {α : Type} [Relabelled α] {item : Rule (Option α)}
    {between : State → State → Prop}

/--
Of two runs of the loop, the second one reads `values` while the first one runs,
up to places the same, and has then reached the state `middle`.
-/
structure HandsOver
    (item : Rule (Option α))
    (between : State → State → Prop)
    (left right : State)
    (values : List α)
    (middle : State) : Prop where
  values_eq :
    (runSequence (fun _ => false) item right).1 =
      values ++ (runSequence (fun _ => false) item middle).1
  state_eq :
    (runSequence (fun _ => false) item right).2 =
      (runSequence (fun _ => false) item middle).2
  reaches : right.Reaches middle
  alike :
    values.map (relabel .blind) =
      (runSequence (fun _ => false) item left).1.map (relabel .blind)
  between : between (runSequence (fun _ => false) item left).2 middle

/-- Two runs of the loop that are side by side after every round hand over. -/
theorem handsOver_of_rounds
    (ahead : ∀ left right, between left right → left.rest ≠ [] →
      right.rest ≠ [])
    (round :
      ∀ left right, between left right → left.rest ≠ [] →
        (item.run left).2.cutShort = false →
        relabel .blind (item.run right).1 = relabel .blind (item.run left).1 ∧
          between (left.forward (item.run left).2)
            (right.forward (item.run right).2))
    {left right : State}
    (start : between left right)
    (whole : (runSequence (fun _ => false) item left).2.cutShort = false) :
    ∃ values middle, HandsOver item between left right values middle := by
  suffices rounds :
      ∀ right, between left right →
        (runSequence (fun _ => false) item left).2.cutShort = false →
          ∃ values middle, HandsOver item between left right values middle from
    rounds right start whole
  clear start whole
  fun_induction runSequence (fun _ => false) item left with
  | case1 left ended =>
      intro right start _
      have none : runSequence (fun _ => false) item left = ([], left) :=
        runSequence_closed (.inl ended)
      refine ⟨[], right, rfl, rfl, .refl right, ?_, ?_⟩
      · rw [none]
      · rw [none]
        exact start
  | case2 left _ closed => cases closed
  | case3 left present _ first _ others hypothesis =>
      intro right start whole
      have wholeFirst : first.2.cutShort = false :=
        ((State.forward_reaches left first.2).trans
          (runSequence_reaches _ item _)).whole whole
      obtain ⟨same, after⟩ := round left right start present wholeFirst
      obtain ⟨values, middle, later⟩ := hypothesis _ after whole
      have opened : runSequence (fun _ => false) item right = _ :=
        runSequence_opened (ahead left right start present) rfl
      refine ⟨(item.run right).1.toList ++ values, middle, ?_, ?_, ?_, ?_, ?_⟩
      · rw [opened, later.values_eq, List.append_assoc]
      · rw [opened, later.state_eq]
      · exact ((item.reaches right).trans (State.forward_reaches _ _)).trans
          later.reaches
      · rw [runSequence_opened present rfl, List.map_append, later.alike,
          List.map_append, ← Option.toList_map, ← Option.toList_map]
        exact congrArg (Option.toList · ++ _) same
      · rw [runSequence_opened present rfl]
        exact later.between

end Handover

/--
Beside a reading of relabelled tokens, the
round of one reading is that of the other.
-/
theorem Seam.Beside.round
    {seam : Seam}
    {left right : State}
    {levels : Nat}
    (noSemicolon : seam.kind ≠ .semicolon)
    (beside : seam.Beside left (relabel change right))
    (ahead : left.rest ≠ [])
    (counts : seam.Counts ((statement levels).run left).2) :
    relabel change ((statement levels).run right).1 =
        relabel seam.change ((statement levels).run left).1 ∧
      seam.Beside (left.forward ((statement levels).run left).2)
        (relabel change (right.forward ((statement levels).run right).2)) := by
  have aheadRight : right.rest ≠ [] :=
    mt List.map_eq_nil_iff.mpr (beside.ahead ahead)
  obtain ⟨value, after⟩ :=
    together_statement noSemicolon levels _ _ beside ahead counts
  rw [run_statement_relabel change levels aheadRight] at value after
  refine ⟨value, ?_⟩
  rw [← State.forward_relabel change (Rule.suffix _ right) aheadRight]
  exact beside.forward after (Rule.suffix _ left) ahead fun isSemicolon =>
    absurd isSemicolon noSemicolon

/-! ## What a loop does not depend on -/

@[simp]
theorem cause_relabel_blind (report : Report) :
    (relabel .blind report).cause = report.cause := by
  rcases report with ⟨cause, span⟩
  cases cause <;> rfl

/-- Reports that are the same up to places have the same causes. -/
theorem causes_eq_of_blind
    {first second : List Report}
    (alike : first.map (relabel .blind) = second.map (relabel .blind)) :
    first.map Report.cause = second.map Report.cause := by
  have causes := congrArg (List.map Report.cause) alike
  simpa [Function.comp_def] using causes

@[simp]
theorem relabel_same_report (report : Report) :
    relabel .same report = report := by
  rcases report with ⟨cause, span⟩
  cases cause <;> rfl

@[simp]
theorem relabel_same_state (state : State) : relabel .same state = state := by
  ext1
  · exact map_relabel_same relabel_same_token _
  · rfl
  · rfl
  · rfl
  · exact map_relabel_same relabel_same_report _
  · rfl
  · rfl

/-- Beside a reading is the one that made other reports before. -/
theorem Seam.beside_past_iff
    (past : List Report)
    (left right : State) :
    (Seam.ofPast .same past).Beside left right ↔
      right = { left with reports := left.reports ++ past } := by
  have reports : relabel .same left.reports = left.reports :=
    map_relabel_same relabel_same_report _
  rw [Seam.beside_ofPast, relabel_same_state, reports]

/-- What is read does not depend on the reports made before. -/
theorem runSequence_past
    (levels : Nat)
    (state : State)
    (past : List Report) :
    runSequence (fun _ => false) (statement levels)
        { state with reports := state.reports ++ past } =
      ((runSequence (fun _ => false) (statement levels) state).1,
        { (runSequence (fun _ => false) (statement levels) state).2 with
          reports :=
            (runSequence (fun _ => false) (statement levels) state).2.reports ++
              past }) := by
  have noSemicolon : (Seam.ofPast .same past).kind ≠ .semicolon :=
    SeamKind.noConfusion
  have both :
      (Seam.ofPast .same past).Together
        (sequence (fun _ => false) (statement levels))
          (sequence (fun _ => false) (statement levels)) state
          { state with reports := state.reports ++ past } :=
    Seam.together_sequence noSemicolon (fun _ _ _ _ => rfl)
      (fun _ ended => Or.inl ended)
      (Seam.together_statement noSemicolon levels)
      ((Seam.beside_past_iff past _ _).mpr rfl)
  obtain ⟨values, beside⟩ := both (Or.inl rfl)
  exact Prod.ext (values.trans (relabel_same_stmts _))
    ((Seam.beside_past_iff past _ _).mp beside)

/-- Two runs of the loop whose first rounds are the same are the same. -/
theorem runSequence_eq_of_first
    {α : Type}
    {item : Rule (Option α)}
    {first second : State}
    (ahead : first.rest ≠ [])
    (sameRest : second.rest = first.rest)
    (sameRun : item.run second = item.run first) :
    runSequence (fun _ => false) item second =
      runSequence (fun _ => false) item first := by
  have opened : runSequence (fun _ => false) item first = _ :=
    runSequence_opened ahead rfl
  have openedSecond : runSequence (fun _ => false) item second = _ :=
    runSequence_opened (by rwa [sameRest]) rfl
  rw [opened, openedSecond, sameRun, State.forward, State.forward, sameRest]

/--
A statement ends a recovery, so it does not matter whether one was going on.
-/
theorem run_statement_recovering
    (levels : Nat)
    (state : State)
    (recovering : Bool) :
    (statement levels).run { state with recovering := recovering } =
      (statement levels).run state := by
  cases levels <;> rfl

/--
Values and reports of the loop do not depend on whether a recovery was going on.
-/
theorem runSequence_recovering
    (levels : Nat)
    (state : State)
    (recovering : Bool) :
    (runSequence (fun _ => false) (statement levels)
          { state with recovering := recovering }).1 =
        (runSequence (fun _ => false) (statement levels) state).1 ∧
      (runSequence (fun _ => false) (statement levels)
            { state with recovering := recovering }).2.reports =
        (runSequence (fun _ => false) (statement levels) state).2.reports := by
  rcases Decidable.em (state.rest = []) with ended | ahead
  · have stays : runSequence (fun _ => false) (statement levels) state =
        ([], state) :=
      runSequence_closed (Or.inl ended)
    have staysLater :
        runSequence (fun _ => false) (statement levels)
          { state with recovering := recovering } =
          ([], { state with recovering := recovering }) :=
      runSequence_closed (Or.inl ended)
    rw [stays, staysLater]
    exact ⟨rfl, rfl⟩
  · have same :
        runSequence (fun _ => false) (statement levels)
          { state with recovering := recovering } =
          runSequence (fun _ => false) (statement levels) state :=
      runSequence_eq_of_first ahead
        rfl (run_statement_recovering levels state recovering)
    rw [same]
    exact ⟨rfl, rfl⟩

/--
Up to places, what the loop reads depends on the tokens ahead only; it comes on
top of the reports made before.
-/
theorem runSequence_blind
    (levels : Nat)
    (state other : State)
    (clean : state.reports = [])
    (sameRest : other.rest.map (relabel .blind) =
      state.rest.map (relabel .blind))
    (sameCut : other.cutShort = state.cutShort) :
    (runSequence (fun _ => false) (statement levels) other).1.map
      (relabel .blind) =
        (runSequence (fun _ => false) (statement levels) state).1.map
        (relabel .blind) ∧
      (runSequence (fun _ => false) (statement levels) other).2.reports.map
      (relabel .blind) =
        (runSequence (fun _ => false) (statement levels) state).2.reports.map
        (relabel .blind) ++
          other.reports.map (relabel .blind) := by
  have same :
      relabel .blind other =
        { relabel .blind state with
          reports := other.reports.map (relabel .blind)
          recovering := other.recovering } := by
    ext1
    · exact sameRest
    · rfl
    · rfl
    · rfl
    · rfl
    · rfl
    · exact sameCut
  have run := runSequence_relabel .blind levels other
  have past :=
    runSequence_past levels (relabel .blind state)
      (other.reports.map (relabel .blind))
  rw [State.reports_relabel, clean, List.map_nil, List.nil_append,
    runSequence_relabel .blind levels state] at past
  obtain ⟨values, reports⟩ :=
    runSequence_recovering levels
      { relabel .blind state
        with reports := other.reports.map (relabel .blind) } other.recovering
  rw [past] at values reports
  rw [same] at run
  rw [run] at values reports
  exact ⟨values, reports⟩

/-- A lone semicolon is passed over. -/
theorem runSequence_semicolon
    (levels : Nat)
    (state : State)
    (calm : state.recovering = false)
    (isSemicolon : state.kind = .semicolon) :
    runSequence (fun _ => false) (statement levels) state =
      runSequence (fun _ => false) (statement levels) state.advance := by
  have shape := State.rest_of_kind isSemicolon (by decide)
  have ahead : state.rest ≠ [] := State.ahead_of_kind isSemicolon (by decide)
  have empty : (statement levels).run state = (none, state.advance) := by
    obtain ⟨block, -, isForm⟩ := exists_statementOf levels
    have calmed : { state with recovering := false } = state := by rw [← calm]
    have form : StatementForm.of state = .empty := by
      rw [StatementForm.of, isSemicolon]
    rw [isForm]
    change (statementOfForm _ _
      (StatementForm.of { state with recovering := false })).run
      { state with recovering := false } = _
    rw [calmed, form]
    rfl
  have moved : state.forward state.advance = state.advance := by
    refine if_neg fun still => ?_
    have sameRest := eq_of_beq still
    rw [shape] at sameRest
    exact List.cons_ne_self _ _ sameRest.symm
  have opened : runSequence (fun _ => false) (statement levels) state = _ :=
    runSequence_opened ahead rfl
  rw [opened, empty, moved]
  rfl

/-! ## Lists without an end of the file -/

/-- Where a list of tokens without an end of the file ends. -/
def endSpan (tokens : List Token) : Span :=
  tokens.getLast?.elim (Span.empty 0) (fun token => Span.empty token.span.stop)

theorem noEnd_word
    {token : Token}
    {kind : TokenKind}
    (isKind : token.kind = kind)
    (isWord : kind ≠ .endOfFile) :
    token.kind ≠ .endOfFile :=
  fun isEnd => isWord (isKind.symm.trans isEnd)

/-- A list without an end of the file is ahead as a whole. -/
theorem ofTokens_of_noEnd
    {tokens : List Token}
    (noEnd : ∀ token ∈ tokens, token.kind ≠ .endOfFile) :
    State.ofTokens tokens =
      ⟨tokens, endSpan tokens, endSpan tokens, 0, [], false, false⟩ := by
  have notFound : tokens.find? (·.kind == .endOfFile) = none :=
    List.find?_eq_none.mpr fun token member => by simpa using noEnd token member
  have all : tokens.takeWhile (·.kind != .endOfFile) = tokens :=
    List.takeWhile_eq_self_iff.mpr fun token member => by
      simpa using noEnd token member
  rw [State.ofTokens, notFound, all, endSpan]
  cases shape : tokens.getLast? with
  | none => rfl
  | some last =>
      dsimp only
      rw [if_neg (noEnd last (List.mem_of_getLast? shape))]
      rfl

end Clipper.Grammar
