import Clipper.Proofs.Grammar.Handover

/-!
# A simple statement before other statements

Whatever is wrong in a simple statement, the statements after its semicolon are
read as if they stood alone.  A statement that recovers has skipped to the
semicolon and taken it; while it unwinds, it takes closing delimiters, `:=` and
one more semicolon, and no program without errors begins with any of these but a
semicolon, which is a statement of its own and makes none.

The proof follows the first reading to its end.  Up to there the readings are
side by side; behind it the second one either stands at the border too, or it
has gone past one semicolon more, and the two cases join again when the
statements behind the border are read.  The side conditions on the two lists
are those under which the border is where it seems to be: no word of the first
list reaches over it, and the second list is read without a report.
-/

namespace Clipper.Grammar

open Relabelled (relabel)
open Rule

/-- The kinds of tokens that end a simple statement, or do not stand in any. -/
def delimitsSimple : TokenKind → Bool
  | .semicolon | .endOfFile | .ifWord | .whileWord | .doWord | .forWord
  | .function | .procedure =>
      true
  | kind => kind.isCloser

/-- No routine opens without the word of a routine. -/
theorem opensRoutine_eq_false
    {tokens : List Token}
    (noWord : ∀ token ∈ tokens, isRoutineWord token.kind = false) :
    opensRoutine tokens = false := by
  match tokens with
  | [] => rfl
  | [token] => exact noWord token List.mem_cons_self
  | token :: next :: _ =>
      rw [opensRoutine, noWord token List.mem_cons_self,
        noWord next (List.mem_cons_of_mem _ List.mem_cons_self), Bool.and_false,
        Bool.or_false]

/-! ## Before the semicolon -/

section BeforeSemicolon

variable {first : List Token} {semicolon : Token}
variable (free : ∀ token ∈ first, delimitsSimple token.kind = false)
variable {state : State} (within : state.rest <:+ first ++ [semicolon])

include free within

/-- The semicolon is the last token. -/
theorem rest_advance_of_semicolon (atSemicolon : state.kind = .semicolon) :
    state.advance.rest = [] := by
  rw [State.kind_eq_headKind] at atSemicolon
  obtain ended | ⟨body, shape, inside⟩ := List.suffix_concat_iff.mp within
  · rw [ended] at atSemicolon
    cases atSemicolon
  · cases body with
    | nil => exact State.rest_advance shape
    | cons token rest =>
        rw [shape] at atSemicolon
        have noDelimiter := free token (inside.subset List.mem_cons_self)
        rw [show token.kind = .semicolon from atSemicolon] at noDelimiter
        cases noDelimiter

variable (isSemicolon : semicolon.kind = .semicolon)

include isSemicolon

theorem kind_of_within
    (token : Token)
    (member : token ∈ state.rest) :
    delimitsSimple token.kind = false ∨ token.kind = .semicolon := by
  obtain inFirst | isLast := List.mem_append.mp (within.subset member)
  · exact Or.inl (free token inFirst)
  · rw [List.mem_singleton.mp isLast]
    exact Or.inr isSemicolon

/--
No routine begins within the tokens of a simple statement, so the
loop does not end there.
-/
theorem opensRoutine_of_within : opensRoutine state.rest = false := by
  have noWord (token : Token) (member : token ∈ state.rest) :
      isRoutineWord token.kind = false := by
    refine Bool.eq_false_iff.mpr fun isWord => ?_
    rw [isRoutineWord, Bool.or_eq_true, beq_iff_eq, beq_iff_eq] at isWord
    have kind := kind_of_within free within isSemicolon token member
    obtain isFunction | isProcedure := isWord
    · rw [isFunction] at kind
      exact absurd kind (by decide)
    · rw [isProcedure] at kind
      exact absurd kind (by decide)
  exact opensRoutine_eq_false noWord

/-- Before the semicolon, only simple statements begin. -/
theorem isSimple_form (ahead : state.rest ≠ []) :
    (StatementForm.of state).isSimple = true := by
  obtain ⟨token, rest, shape⟩ := List.exists_cons_of_ne_nil ahead
  have kind := kind_of_within free within isSemicolon token
      (by rw [shape]; exact List.mem_cons_self)
  rw [← State.kind_of_rest shape] at kind
  have noRoutine := opensRoutine_of_within free within isSemicolon
  rw [StatementForm.of]
  cases here : state.kind with
  | static =>
      dsimp only
      rw [noRoutine]
      rfl
  | _ =>
      rw [here] at kind
      first
      | rfl
      | exact absurd kind (by decide)

end BeforeSemicolon

/-! ## After the semicolon -/

namespace Seam

variable {seam : Seam} {left right : State}

/--
The first reading is at its end, and the second one stands before the tokens
after the seam, or has taken a semicolon of them.
-/
structure Passed
    (seam : Seam)
    (left right : State) : Prop where
  rest :
    right.rest = seam.tail ∨
      ∃ token, token.kind = .semicolon ∧ seam.tail = token :: right.rest
  reports :
    ∃ reports, right.reports = reports ++ seam.past ∧
      List.Forall₂ seam.SameReport left.reports reports
  cutShort : right.cutShort = left.cutShort

/-- The readings are side by side, or have passed the seam. -/
def UpTo
    (seam : Seam)
    (left right : State) :
    Prop :=
  (left.rest ≠ [] → seam.Beside left right) ∧
  (left.rest = [] → seam.Passed left right)

theorem Beside.upTo (beside : seam.Beside left right) : seam.UpTo left right :=
  ⟨fun _ => beside, fun ended =>
    ⟨Or.inl (beside.rest_of_ended ended), beside.reports, beside.cutShort⟩⟩

theorem Passed.upTo
    (passed : seam.Passed left right)
    (ended : left.rest = []) :
    seam.UpTo left right :=
  ⟨fun ahead => absurd ended ahead, fun _ => passed⟩

/-- The last token before the seam is taken. -/
theorem Beside.passed_advance
    (beside : seam.Beside left right)
    (ahead : left.rest ≠ [])
    (last : left.advance.rest = []) :
    seam.Passed left.advance right.advance := by
  obtain ⟨token, rest, shape⟩ := List.exists_cons_of_ne_nil ahead
  have only : rest = [] := (State.rest_advance shape).symm.trans last
  have same := beside.rest
  rw [shape, only] at same
  refine ⟨Or.inl (State.rest_advance same), ?_, ?_⟩
  · rw [State.reports_advance, State.reports_advance]
    exact beside.reports
  · rw [State.cutShort_advance, State.cutShort_advance]
    exact beside.cutShort

/--
Where the first reading takes a last semicolon
or is at its end, both pass the seam.
-/
theorem Beside.upTo_eat
    (beside : seam.Beside left right)
    (last : left.kind = .semicolon → left.advance.rest = []) :
    seam.UpTo ((eat .semicolon).run left).2 ((eat .semicolon).run right).2 := by
  rcases Decidable.em (left.rest = []) with ended | ahead
  · have elsewhere : left.kind ≠ .semicolon := by
      rw [State.kind_eq_headKind, ended]
      decide
    rw [eat_elsewhere elsewhere]
    refine Passed.upTo ?_ ended
    rcases Decidable.em (right.kind = .semicolon) with here | noSemicolon
    · have shape := State.rest_of_kind here (by decide)
      rw [beside.rest_of_ended ended] at shape
      rw [eat_here here]
      refine ⟨Or.inr ⟨_, here, shape⟩, ?_, ?_⟩
      · rw [State.reports_advance]
        exact beside.reports
      · rw [State.cutShort_advance]
        exact beside.cutShort
    · rw [eat_elsewhere noSemicolon]
      exact ⟨Or.inl (beside.rest_of_ended ended), beside.reports,
        beside.cutShort⟩
  · have same := beside.kind_of_ahead ahead
    rcases Decidable.em (left.kind = .semicolon) with here | elsewhere
    · rw [eat_here here, eat_here (same.trans here)]
      exact (beside.passed_advance ahead (last here)).upTo (last here)
    · rw [eat_elsewhere elsewhere, eat_elsewhere (by rwa [same])]
      exact beside.upTo

/--
A round of the loop that takes no token
drops one, and does not go beyond the seam.
-/
theorem UpTo.forward
    {later further : State}
    (before : seam.Beside left right)
    (after : seam.UpTo later further)
    (suffix : later.rest <:+ left.rest)
    (ahead : left.rest ≠ [])
    (resting : left.kind = .semicolon → later.rest = []) :
    seam.UpTo (left.forward later) (right.forward further) := by
  rcases Decidable.em (later.rest = []) with ended | inside
  · have passed := after.2 ended
    have kept : left.forward later = later := by
      refine if_neg fun still => ahead ?_
      rw [← eq_of_beq still, ended]
    have keptRight : right.forward further = further := by
      refine if_neg fun still => ?_
      have lengths := congrArg List.length before.rest
      rw [← eq_of_beq still, relabel_list, List.length_append, List.length_map]
        at lengths
      have positive := List.length_pos_iff.mpr ahead
      obtain atTail | ⟨token, -, shape⟩ := passed.rest
      · rw [atTail] at lengths
        omega
      · rw [shape, List.length_cons] at lengths
        omega
    rw [kept, keptRight]
    exact after
  · refine Beside.upTo
      (before.forward (after.1 inside) suffix ahead fun _ still isSemicolon =>
        ?_)
    exact inside (resting isSemicolon)

/--
What a simple statement does, both readings do, up to the semicolon after it.
-/
theorem Beside.upTo_statementOf
    {expression : Rule Expr}
    {block : List TokenKind → Rule Block}
    (always : seam.Always expression)
    (beside : seam.Beside left right)
    (ahead : left.rest ≠ [])
    (simple : (StatementForm.of left).isSimple = true)
    (last :
      ∀ state : State, state.rest <:+ left.rest → state.kind = .semicolon →
        state.advance.rest = [])
    (whole : ((statementOf expression block).run left).2.cutShort = false) :
    ((statementOf expression block).run right).1 =
        relabel seam.change ((statementOf expression block).run left).1 ∧
      seam.UpTo ((statementOf expression block).run left).2
        ((statementOf expression block).run right).2 ∧
      (left.kind = .semicolon →
        ((statementOf expression block).run left).2.rest = []) := by
  have calm : seam.Beside { left with recovering := false }
      { right with recovering := false } :=
    beside.recovered fun _ => ahead
  have runs (state : State) :
      (statementOf expression block).run state =
        (statementOfForm expression block (StatementForm.of state)).run
          { state with recovering := false } :=
    rfl
  rw [runs left] at whole ⊢
  rw [runs right, beside.form ahead]
  have atWord : (StatementForm.of left).Ahead
      { left with recovering := false } :=
    StatementForm.ahead_of { left with recovering := false }
  rcases Decidable.em (StatementForm.of left = .empty) with isEmpty | notEmpty
  · rw [isEmpty] at atWord ⊢
    have ended := last { left with recovering := false }
        (List.suffix_refl _) atWord
    exact ⟨rfl, (calm.passed_advance ahead ended).upTo ended, fun _ => ended⟩
  · obtain ⟨rule, same, both⟩ :=
      together_beforeSemicolon block always simple notEmpty calm
        (fun _ => rfl) atWord
    rw [same] at whole ⊢
    have wholeRule : (rule.run { left with recovering := false }).2.cutShort =
        false :=
      ((eat .semicolon).reaches _).whole whole
    obtain ⟨value, after⟩ := both (Or.inr wholeRule)
    refine ⟨congrArg some value, after.upTo_eat (last _ (rule.suffix _)),
      fun isSemicolon => ?_⟩
    exact absurd (by rw [StatementForm.of, isSemicolon]) notEmpty

/--
A simple statement at the end of the first list is read alike on both
sides, and behind it the first reading has nothing ahead while the second
has its further statements.
-/
theorem Beside.upTo_statement
    (beside : seam.Beside left right)
    (ahead : left.rest ≠ [])
    (simple : (StatementForm.of left).isSimple = true)
    (last :
      ∀ state : State, state.rest <:+ left.rest → state.kind = .semicolon →
        state.advance.rest = [])
    (levels : Nat)
    (whole : ((statement levels).run left).2.cutShort = false) :
    ((statement levels).run right).1 =
      relabel seam.change ((statement levels).run left).1 ∧
      seam.UpTo (left.forward ((statement levels).run left).2)
        (right.forward ((statement levels).run right).2) := by
  have both :
      ((statement levels).run right).1 =
        relabel seam.change ((statement levels).run left).1 ∧
        seam.UpTo ((statement levels).run left).2
          ((statement levels).run right).2 ∧
        (left.kind = .semicolon →
          ((statement levels).run left).2.rest = []) := by
    obtain ⟨block, -, isForm⟩ := exists_statementOf levels
    rw [isForm] at whole ⊢
    exact beside.upTo_statementOf (always_expression levels) ahead
      simple last whole
  obtain ⟨value, after, resting⟩ := both
  exact ⟨value, UpTo.forward beside after (Rule.suffix _ left) ahead resting⟩

end Seam

/-! ## How a program without errors begins -/

/--
No statement is read without a report where
only an expression could be one and none opens.
-/
theorem not_reads_statement_of_closed
    {levels : Nat}
    {state next : State}
    {made? : Option Stmt}
    (form : StatementForm.of state = .expression)
    (closed : opensExpression state.kind = false) :
    ¬ Reads (statement levels) state made? next := by
  intro reads
  obtain ⟨block, -, isForm⟩ := exists_statementOf levels
  rw [isForm, statementOf, reads_recovered_bind, reads_ask_bind, form,
    statementOfForm, terminated]
    at reads
  obtain ⟨_, _, first, -⟩ := reads_bind.mp reads
  rw [expressionStatement, reads_ask_bind] at first
  obtain ⟨_, _, target, -⟩ := reads_bind.mp first
  obtain ⟨tokens, taken, phrased⟩ := sound_expression levels _ _ _ target
  obtain ⟨nonempty, opens⟩ := begins_expression levels _ _ phrased
  rw [State.kind_eq_headKind, taken, headKind_append nonempty, opens] at closed
  cases closed

/-- No statement is read without a report where one could only be prolonged. -/
theorem not_reads_statement
    {levels : Nat}
    {state next : State}
    {made? : Option Stmt}
    (prolonging : prolongs state.kind = true) :
    ¬ Reads (statement levels) state made? next := by
  apply not_reads_statement_of_closed
  · rw [StatementForm.of]
    cases here : state.kind with
    | _ =>
        first
        | rfl
        | rw [here] at prolonging; cases prolonging
  · cases here : state.kind with
    | assign | rightParenthesis | rightBracket | rightBrace | bar => rfl
    | _ =>
        rw [here] at prolonging
        cases prolonging

/-- A program without errors does not begin with what prolongs a statement. -/
theorem prolongs_of_clean
    {tokens : List Token}
    (clean : (readProgram tokens).reports = []) :
    prolongs (State.ofTokens tokens).kind = false := by
  obtain ⟨_, reads⟩ := reads_of_clean clean
  refine Bool.eq_false_iff.mpr fun prolonging => ?_
  obtain ⟨ended | impossible, -⟩ | ⟨_, _, _, -, once, -⟩ := reads.of_sequence
  · rw [State.kind_eq_headKind, ended] at prolonging
    cases prolonging
  · cases impossible
  · exact not_reads_statement prolonging once

/-! ## The seam after a semicolon -/

theorem headKind_relabel
    {change : Relabelling}
    (tokens : List Token) :
    headKind (tokens.map (relabel change)) = headKind tokens := by
  cases tokens <;> rfl

/--
The seam of two readings of which the second
one goes on after a semicolon, without places.
-/
def Seam.afterSemicolon
    (tokens : List Token)
    (fits : prolongs (headKind tokens) = false) :
    Seam where
  change := .blind
  kind := .semicolon
  tail := tokens.map (relabel .blind)
  past := []
  fits := by rwa [← headKind_relabel] at fits

section NextStatement

variable {first second : List Token} {semicolon : Token}
variable (free : ∀ token ∈ first, delimitsSimple token.kind = false)
variable (isSemicolon : semicolon.kind = .semicolon)
variable (noEnd : ∀ token ∈ second, token.kind ≠ .endOfFile)

include free isSemicolon

theorem noEnd_first : ∀ token ∈ first ++ [semicolon],
    token.kind ≠ .endOfFile := by
  intro token member isEnd
  obtain inFirst | isLast := List.mem_append.mp member
  · have noDelimiter := free token inFirst
    rw [isEnd] at noDelimiter
    cases noDelimiter
  · rw [List.mem_singleton.mp isLast, isSemicolon] at isEnd
    cases isEnd

include noEnd

/--
The readings of a statement alone and before a program begin side by side.
-/
theorem beside_afterSemicolon (fits : prolongs (headKind second) = false) :
    (Seam.afterSemicolon second fits).Beside
      (State.ofTokens (first ++ [semicolon]))
      (relabel .blind (State.ofTokens (first ++ [semicolon] ++ second))) := by
  have noEndFirst := noEnd_first free isSemicolon
  have noEndAll : ∀ token ∈ first ++ [semicolon] ++ second,
      token.kind ≠ .endOfFile :=
    fun token member =>
      (List.mem_append.mp member).elim (noEndFirst token) (noEnd token)
  rw [ofTokens_of_noEnd noEndFirst, ofTokens_of_noEnd noEndAll]
  exact
    { rest := List.map_append
      stop := rfl
      final := rfl
      reached := rfl
      reports := ⟨[], rfl, .nil⟩
      recovering := rfl
      cutShort := rfl
      place := fun token member => by
        obtain ⟨original, -, rfl⟩ :=
          List.mem_map.mp (List.mem_of_mem_head? member)
        rfl
      last := fun token member => by
        rw [List.getLast?_concat] at member
        cases member
        exact isSemicolon
      resting := fun _ ended =>
        absurd ended (List.append_ne_nil_of_right_ne_nil _ nofun) }

omit free isSemicolon in
/--
After the seam, the loop reads what it reads
from the beginning of the second list.
-/
theorem runSequence_passed
    {fits : prolongs (headKind second) = false}
    {left middle : State}
    (passed : (Seam.afterSemicolon second fits).Passed left
      (relabel .blind middle))
    (whole : left.cutShort = false) :
    (runSequence (fun _ => false) (statement nestingLimit) middle).1.map
      (relabel .blind) =
        (readProgram second).value.statements.map (relabel .blind) ∧
      (runSequence (fun _ => false) (statement nestingLimit)
        middle).2.reports.map
          (relabel .blind) =
        (readProgram second).reports.reverse.map (relabel .blind) ++
          middle.reports.map (relabel .blind) := by
  have start := ofTokens_of_noEnd noEnd
  have reports :
      (readProgram second).reports.reverse =
        (runSequence (fun _ => false) (statement nestingLimit)
          (State.ofTokens second)).2.reports :=
    List.reverse_reverse _
  rw [reports]
  obtain atTail | ⟨token, isLone, shape⟩ := passed.rest
  · refine runSequence_blind nestingLimit _ _ (by rw [start]) ?_ ?_
    · rw [start]
      exact atTail
    · rw [start]
      exact passed.cutShort.trans whole
  · obtain ⟨original, rest, secondShape, rfl, restShape⟩ :=
      List.map_eq_cons_iff.mp shape
    have startShape : (State.ofTokens second).rest = original :: rest := by
      rw [start, secondShape]
    have lone :=
      runSequence_semicolon nestingLimit (State.ofTokens second) (by rw [start])
        ((State.kind_of_rest startShape).trans isLone)
    change _ = (runSequence (fun _ => false) (statement nestingLimit)
      (State.ofTokens second)).1.map _ ∧ _
    rw [lone]
    refine runSequence_blind nestingLimit _ _ ?_ ?_ ?_
    · rw [State.reports_advance, start]
    · rw [State.rest_advance startShape]
      exact restShape.symm
    · rw [State.cutShort_advance, start]
      exact passed.cutShort.trans whole

include noEnd in
/-- The second reading passes the seam when the first one has ended. -/
theorem handsOver_afterSemicolon
    (fits : prolongs (headKind second) = false)
    (shallow : (readProgram (first ++ [semicolon])).Shallow) :
    ∃ before middle,
      HandsOver (statement nestingLimit)
        (fun left right =>
          left.rest <:+ first ++ [semicolon] ∧
            (Seam.afterSemicolon second fits).UpTo left (relabel .blind right))
        (State.ofTokens (first ++ [semicolon]))
        (State.ofTokens (first ++ [semicolon] ++ second)) before middle := by
  refine handsOver_of_rounds ?_ ?_ ⟨?_, ?_⟩ shallow.whole
  · intro left right between present
    exact mt List.map_eq_nil_iff.mpr ((between.2.1 present).ahead present)
  · rintro left right ⟨within, upTo⟩ present whole
    have beside := upTo.1 present
    have aheadRight : right.rest ≠ [] :=
      mt List.map_eq_nil_iff.mpr (beside.ahead present)
    obtain ⟨value, after⟩ :=
      beside.upTo_statement present
        (isSimple_form free within isSemicolon present)
        (fun state suffix =>
          rest_advance_of_semicolon free (suffix.trans within))
          nestingLimit whole
    rw [run_statement_relabel .blind nestingLimit aheadRight] at value after
    refine ⟨value, ?_, ?_⟩
    · exact (((statement nestingLimit).reaches left).trans
        (State.forward_reaches left _)).suffix.trans within
    · rw [← State.forward_relabel .blind (Rule.suffix _ right) aheadRight]
      exact after
  · simp only [ofTokens_of_noEnd (noEnd_first free isSemicolon),
      List.suffix_refl]
  · exact (beside_afterSemicolon free isSemicolon noEnd fits).upTo

end NextStatement

/--
A syntax error in a simple statement does not damage
the statements after its semicolon: they are read as
if they stood alone, and no more errors are reported.
-/
theorem readProgram_nextStatement
    (first second : List Token)
    (semicolon : Token)
    (isSemicolon : semicolon.kind = .semicolon)
    (free : ∀ token ∈ first, delimitsSimple token.kind = false)
    (noEnd : ∀ token ∈ second, token.kind ≠ .endOfFile)
    (clean : (readProgram second).reports = [])
    (shallow : (readProgram (first ++ [semicolon])).Shallow) :
    (readProgram (first ++ [semicolon] ++ second)).value.outline =
        (readProgram (first ++ [semicolon])).value.outline ++
          (readProgram second).value.outline ∧
      (readProgram (first ++ [semicolon] ++ second)).reports.map Report.cause =
        (readProgram (first ++ [semicolon])).reports.map Report.cause := by
  have fits : prolongs (headKind second) = false := by
    have begins := prolongs_of_clean clean
    rwa [State.kind_eq_headKind, ofTokens_of_noEnd noEnd] at begins
  obtain ⟨before, middle, hands⟩ :=
    handsOver_afterSemicolon free isSemicolon noEnd fits shallow
  have passed :=
    hands.between.2.2
      (runSequence_open_ended (statement nestingLimit) (State.ofTokens _))
  obtain ⟨values, reports⟩ := runSequence_passed noEnd passed shallow.whole
  constructor
  · change Stmt.outlines 0 (runSequence _ _ _).1 = Stmt.outlines 0 _ ++
      Stmt.outlines 0 _
    rw [hands.values_eq, outlines_append, outlines_eq_of_blind hands.alike 0,
      outlines_eq_of_blind values 0]
    rfl
  · obtain ⟨made, shape, each⟩ := passed.reports
    rw [Seam.sameReports_iff _ SeamKind.noConfusion] at each
    have same : middle.reports.map (relabel .blind) = _ :=
      shape.trans ((List.append_nil _).trans each)
    rw [clean, List.reverse_nil, List.map_nil, List.nil_append, same] at reports
    refine causes_eq_of_blind ?_
    change (runSequence _ _ _).2.reports.reverse.map _ =
      (runSequence _ _ _).2.reports.reverse.map _
    rw [hands.state_eq, List.map_reverse, List.map_reverse, reports]
    rfl

/--
A call in a declaration whose code block is not
finished, and the semicolon after it: a lone semicolon
and a loop after them are read as if they stood alone.
-/
theorem readProgram_nextStatement_unclosed :
    let token := fun kind lexeme => Token.mk kind (Span.empty 0) lexeme
    let first :=
      [token .localWord "LOCAL", token .identifier "a", token .assign ":=",
        token .identifier "f", token .leftParenthesis "(",
        token .leftBrace "\x7b", token .bar "|", token .number "1"]
    let semicolon := token .semicolon ";"
    let second :=
      [token .semicolon ";", token .whileWord "WHILE", token .yes ".T.",
        token .exit "EXIT", token .endDo "ENDDO"]
    (semicolon.kind = .semicolon ∧
      (∀ token ∈ first, delimitsSimple token.kind = false) ∧
        (∀ token ∈ second, token.kind ≠ .endOfFile) ∧
        (readProgram second).reports = [] ∧
        (readProgram (first ++ [semicolon])).Shallow) ∧
      (readProgram (first ++ [semicolon] ++ second)).value.outline =
        (readProgram (first ++ [semicolon])).value.outline ++
          (readProgram second).value.outline ∧
      (readProgram (first ++ [semicolon] ++ second)).reports.map Report.cause =
        [.expectedName .bar] := by
  intro token first semicolon second
  have free : ∀ token ∈ first, delimitsSimple token.kind = false := by decide
  have noEnd : ∀ token ∈ second, token.kind ≠ .endOfFile := by decide
  have clean : (readProgram second).reports = [] := by decide +kernel
  have shallow : (readProgram (first ++ [semicolon])).Shallow := by
    decide +kernel
  have causes :
      (readProgram (first ++ [semicolon])).reports.map Report.cause =
        [.expectedName .bar] := by
    decide +kernel
  have next := readProgram_nextStatement first second semicolon rfl free noEnd
      clean shallow
  rw [causes] at next
  exact ⟨⟨rfl, free, noEnd, clean, shallow⟩, next⟩

end Clipper.Grammar
