import Clipper.Proofs.Grammar.Beginnings
import Clipper.Proofs.Grammar.Course
import Clipper.Proofs.Grammar.ProgramSpans
import Clipper.Proofs.Lexeme.Faults

/-!
# The order of reports

Reports are made at the token ahead, so they come in the order of the source.
One of them looks back: that the target of an assignment cannot be assigned is
reported at the target, after the target was read.  What was reported meanwhile
are invalid tokens, as a reading that recovers from another error does not come
to the assignment.  So reports are out of order only where a target with an
invalid token in it cannot be assigned.

`Tidy` is the invariant: the offsets of the reports so far, with those of the
tokens ahead behind them, are in order.  A report at the token ahead keeps it.
For an assignment it is shown that, with no invalid token in the target, the
report at the target is still behind all earlier reports; the exception is
stated as a property of the list of reports, so the theorem needs no
hypothesis on the source.
-/

namespace Clipper

namespace Grammar

open Rule

/--
A report may come before another one that
begins no earlier, or that looks back over it.
-/
def Report.MayPrecede (earlier later : Report) : Prop :=
  earlier.span.start ≤ later.span.start ∨
    (∃ lexeme, earlier.cause = .invalidToken lexeme) ∧
    later.cause = .notAssignable

namespace State

/-! ## Readings that stay calm -/

/--
If errors are reported after all, then only invalid tokens have been reported.
-/
def StaysCalm (before after : State) : Prop :=
  after.recovering = false →
    before.recovering = false ∧
      ∃ added, after.reports = added ++ before.reports ∧
        ∀ report ∈ added, ∃ lexeme, report.cause = .invalidToken lexeme

/--
A move that reports nothing, and after which
errors are reported only if they were before.
-/
theorem StaysCalm.of_same
    {before after : State}
    (recovering : after.recovering = before.recovering)
    (reports : after.reports = before.reports) :
    before.StaysCalm after :=
  fun calm => ⟨recovering ▸ calm, [], reports, List.forall_mem_nil _⟩

/-- A reading that stays calm over two parts stays calm over both. -/
theorem StaysCalm.trans
    {first second third : State}
    (earlier : first.StaysCalm second)
    (later : second.StaysCalm third) :
    first.StaysCalm third := by
  intro calm
  obtain ⟨calmBetween, others, shape, onlyInvalid⟩ := later calm
  obtain ⟨calmBefore, added, shapeBefore, onlyInvalidBefore⟩ :=
    earlier calmBetween
  refine ⟨calmBefore, others ++ added, ?_, ?_⟩
  · rw [shape, shapeBefore, List.append_assoc]
  · exact List.forall_mem_append.mpr ⟨onlyInvalid, onlyInvalidBefore⟩

theorem recovering_recover (state : State) :
    state.recover.recovering = true := by
  unfold recover
  dsimp only
  split
  · exact recovering_advance _
  · rfl

theorem staysCalm_advance (state : State) : state.StaysCalm state.advance :=
  .of_same state.recovering_advance state.reports_advance

/--
All that an expression does to a state keeps it calm, or leaves it recovering.
-/
theorem staysCalm_course : Course StaysCalm where
  refl _ := .of_same rfl rfl
  trans := .trans
  advance := staysCalm_advance
  invalidToken state _ _ := by
    have reported : state.StaysCalm
        (state.addHere (.invalidToken state.current.lexeme)) :=
      fun calm => ⟨calm, [_], rfl, List.forall_mem_singleton.mpr ⟨_, rfl⟩⟩
    exact reported.trans (staysCalm_advance _)
  fail state cause _ := by
    rw [fail]
    split
    · exact .of_same rfl rfl
    · intro calm
      rw [recovering_recover] at calm
      cases calm
  cutOff _ _ := nofun

/-! ## Readings whose reports are in order -/

/--
The reports so far are in order, and the offsets ahead are in order behind them.
-/
structure Tidy (state : State) : Prop where
  sorted : state.Sorted
  passed : ∀ report ∈ state.reports, report.span.start ≤ state.start
  ordered : state.reports.Pairwise
    (fun later earlier => earlier.MayPrecede later)

/-- A move without a report keeps the reports in order. -/
theorem Tidy.move
    {before after : State}
    (tidy : before.Tidy)
    (move : Move before after)
    (reports : after.reports = before.reports) :
    after.Tidy := by
  have onward : before.start ≤ after.start :=
    tidy.sorted.start_le _
      (move.offsetsAhead_subset after.start_mem_offsetsAhead)
  refine ⟨State.sorted.kept _ _ move tidy.sorted, ?_, reports ▸ tidy.ordered⟩
  rw [reports]
  exact fun report member => Nat.le_trans (tidy.passed report member) onward

theorem Tidy.addHere
    {state : State}
    (tidy : state.Tidy)
    (cause : Cause) :
    (state.addHere cause).Tidy := by
  refine ⟨tidy.sorted, List.forall_mem_cons.mpr ⟨Nat.le_refl _, tidy.passed⟩,
    ?_⟩
  exact List.pairwise_cons.mpr
    ⟨fun report member => .inl (tidy.passed report member), tidy.ordered⟩

theorem Tidy.advance
    {state : State}
    (tidy : state.Tidy) :
    state.advance.Tidy :=
  tidy.move (.advance state) state.reports_advance

/-- To skip tokens, and to recover, is to go on. -/
theorem Tidy.recover
    {state : State}
    (tidy : state.Tidy) :
    state.recover.Tidy := by
  have fewer := offsetsAhead_sublist state.recover_suffix state.stop_recover
      state.final_recover
  have onward : state.start ≤ state.recover.start :=
    tidy.sorted.start_le _ (fewer.subset state.recover.start_mem_offsetsAhead)
  refine ⟨tidy.sorted.sublist fewer, ?_, state.reports_recover ▸ tidy.ordered⟩
  rw [reports_recover]
  exact fun report member => Nat.le_trans (tidy.passed report member) onward

theorem Tidy.fail
    {state : State}
    (tidy : state.Tidy)
    (cause : Cause) :
    (state.fail cause).Tidy := by
  rw [State.fail]
  split
  · exact tidy
  · exact (tidy.addHere cause).recover

/--
To cut the reading short keeps the reports in order: its report is at the
token ahead, and only the end is left ahead.
-/
theorem Tidy.cutOff
    {state : State}
    (tidy : state.Tidy) :
    state.cutOff.Tidy := by
  have dropped (before : State) (tidy : before.Tidy) :
      ({ before with
          rest := [], stop := before.final,
          recovering := true, cutShort := true } : State).Tidy := by
    have isAhead : before.final.start ∈ before.offsetsAhead := by
      simp [offsetsAhead]
    refine ⟨by simp [Sorted, offsetsAhead], fun report member =>
      ?_, tidy.ordered⟩
    exact Nat.le_trans (tidy.passed report member)
      (tidy.sorted.start_le _ isAhead)
  rw [State.cutOff]
  split
  · exact dropped state tidy
  · exact dropped _ (tidy.addHere _)

/--
Whatever a reading does, but for the report
of a target, keeps its reports in order.
-/
theorem tidy_course :
    StatementCourse (fun before after => before.Tidy → after.Tidy) where
  refl _ tidy := tidy
  trans earlier later tidy := later (earlier tidy)
  advance _ tidy := tidy.advance
  invalidToken _ _ _ tidy := (tidy.addHere _).advance
  fail _ cause _ tidy := tidy.fail cause
  cutOff _ _ tidy := tidy.cutOff
  cutBlock _ tidy := tidy.cutOff
  reportHere _ cause _ tidy := tidy.addHere cause
  recovered state tidy := tidy.move (.recovered state) rfl

/--
A target may be reported after its reading, over the invalid tokens in it.
-/
theorem Tidy.addTarget
    {before after : State}
    {target : Span}
    (tidy : after.Tidy)
    (tidyBefore : before.Tidy)
    (staysCalm : before.StaysCalm after)
    (calm : after.recovering = false)
    (first : before.start ≤ target.start)
    (last : target.start ≤ after.start) :
    (after.add ⟨.notAssignable, target⟩).Tidy := by
  obtain ⟨-, added, shape, onlyInvalid⟩ := staysCalm calm
  refine ⟨tidy.sorted, List.forall_mem_cons.mpr ⟨last, tidy.passed⟩, ?_⟩
  refine List.pairwise_cons.mpr ⟨fun report member => ?_, tidy.ordered⟩
  rw [shape, List.mem_append] at member
  rcases member with isAdded | isEarlier
  · exact .inr ⟨onlyInvalid report isAdded, rfl⟩
  · exact .inl (Nat.le_trans (tidyBefore.passed report isEarlier) first)

end State

/-- What follows the report of a target keeps the reports in order. -/
theorem tidy_assignment
    {state : State}
    {target : Expr}
    (checked : ((checkTarget target).run state).2.Tidy)
    (levels start : Nat)
    (form : AssignmentForm) :
    ((assignment (expression levels) start target form).run state).2.Tidy := by
  have course := State.tidy_course.toCourse
  exact along_assignment course (along_expression course levels) start target
    form state checked

/-- The one rule that looks back reports over invalid tokens only. -/
theorem tidy_expressionStatement (levels : Nat) :
    (expressionStatement (expression levels)).Along
      (fun before after => before.Tidy → after.Tidy) := by
  intro before tidyBefore
  have course := State.tidy_course.toCourse
  have tidy := along_expression course levels before tidyBefore
  have staysCalm := along_expression State.staysCalm_course levels before
  have first := behind_expression levels before tidyBefore.sorted.behind_start
  have last := begun_expression levels before tidyBefore.sorted
  have asked : (ask State.start).run before = (before.start, before) := rfl
  rw [expressionStatement, run_bind, asked, run_bind]
  generalize (expression levels).run before = result
    at tidy staysCalm first last ⊢
  obtain ⟨target, after⟩ := result
  have alone := along_standalone course before.start target after tidy
  -- Only a calm reading that finds a sign of assignment comes to the report of
  -- the target.
  rw [run_bind]
  change (Rule.run (if after.recovering = true then _ else _) after).2.Tidy
  cases calm : after.recovering with
  | true => exact alone
  | false =>
      rw [if_neg Bool.false_ne_true, run_bind]
      split
      · exact alone
      · next form _ =>
          refine tidy_assignment ?_ levels before.start form
          rw [checkTarget]
          split
          · exact tidy
          · exact tidy.addTarget tidyBefore staysCalm calm first last

/--
From tokens in order that end where the file
ends, the reports of a program are in order.
-/
theorem readProgram_reports_ordered
    {offset : Nat}
    {tokens : List Token}
    (ends : EndsAt offset tokens)
    (increasing : tokens.Pairwise
      (fun earlier later => earlier.span.start ≤ later.span.start)) :
    (readProgram tokens).reports.Pairwise Report.MayPrecede := by
  obtain ⟨earlier, lexeme, rfl, notEnd⟩ := ends
  have tidy :
      (State.ofTokens
        (earlier ++ [⟨.endOfFile, Span.empty offset, lexeme⟩])).Tidy := by
    rw [ofTokens_concat notEnd rfl]
    refine ⟨?_, List.forall_mem_nil _, .nil⟩
    obtain ⟨inOrder, -, before⟩ := List.pairwise_append.mp increasing
    refine List.pairwise_append.mpr ⟨List.pairwise_map.mpr inOrder, by simp, ?_⟩
    intro start isStart stop isStop
    obtain ⟨token, member, rfl⟩ := List.mem_map.mp isStart
    have isLast : stop = offset := by simpa [Span.empty] using isStop
    exact isLast ▸ before token member _ List.mem_cons_self
  have tidyBehind :=
    along_program State.tidy_course tidy_expressionStatement _ tidy
  exact List.pairwise_reverse.mpr tidyBehind.ordered

end Grammar

open Grammar

/--
The reports on a source text come in the order in which they begin, with or
without the directives of the text; only the report of a target that cannot be
assigned may come behind those of invalid tokens that were found on the way.
-/
theorem reports_ordered
    (stripDirectives : Bool)
    (text : List Char) :
    (programOfText text).reports.Pairwise Report.MayPrecede ∧
      (Analysis.ofText stripDirectives text).reading.reports.Pairwise
        Report.MayPrecede := by
  have analyses (stripDirectives : Bool) :
      (Analysis.ofText stripDirectives text).reading.reports.Pairwise
        Report.MayPrecede := by
    have increasing := Analysis.tokens_increasing stripDirectives text
    exact readProgram_reports_ordered
      (Analysis.endsAt_tokens stripDirectives text)
      (increasing.imp fun order => Nat.le_of_lt order)
  exact ⟨analyses false, analyses stripDirectives⟩

/--
The report of a target that cannot be
assigned comes behind an invalid token in it.
-/
theorem reports_not_increasing :
    ¬ ∀ text, (programOfText text).reports.Pairwise
      (fun earlier later => earlier.span.start ≤ later.span.start) := by
  intro increasing
  have reports : (programOfText "f(~) := 1".toList).reports =
      [⟨.invalidToken "~", ⟨2, 3⟩⟩, ⟨.notAssignable, ⟨0, 4⟩⟩] := by
    decide +kernel
  have order := increasing "f(~) := 1".toList
  rw [reports] at order
  exact absurd order (by decide)

end Clipper
