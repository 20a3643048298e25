import Clipper.Proofs.Grammar.RoutinePlacement

/-!
# The routines of a program

A list of tokens announces a routine at each of its words `FUNCTION` and
`PROCEDURE`.  Whatever stands around such a word, and however broken it is, the
program that is read has exactly the routines that its tokens announce: all
moves of a reading but the first ones of a routine spare the heads of routines,
and a block ends before a head.

What is announced is a function of the tokens alone: it walks along them and
notes each word of a routine, with a `STATIC` before it and the name behind
it, or the placeholder for a missing one.  The theorem compares two lists, so
the order, the kinds and the number of routines all follow from it, and none
of them depends on the errors.
-/

namespace Clipper

/-- The sort of routine that a word opens. -/
def RoutineKind.ofWord? : TokenKind → Option RoutineKind
  | .function => some .function
  | .procedure => some .procedure
  | _ => none

/--
What tokens tell about a routine: its sort, whether it is static, and its name.
-/
structure Announcement where
  kind : RoutineKind
  isStatic : Bool
  name : String
deriving DecidableEq

/-- The name that the tokens after a routine's word give to it. -/
def announcedName : List Token → String
  | [] => Identifier.placeholderName
  | token :: _ =>
      if token.kind = .identifier then token.lexeme
      else Identifier.placeholderName

/--
The routines that tokens announce, in order,
when `STATIC` stands before them or not.
-/
def announced (afterStatic : Bool) : List Token → List Announcement
  | [] => []
  | token :: rest =>
      match RoutineKind.ofWord? token.kind with
      | some kind =>
          ⟨kind, afterStatic, announcedName rest⟩ :: announced false rest
      | none => announced (token.kind == .static) rest

/-- What the head of a routine tells about it. -/
def RoutineHead.announcement (head : RoutineHead) : Announcement :=
  ⟨head.kind, head.isStatic, head.name.name⟩

/-- What a statement announces: something if it is a routine. -/
def Stmt.announcement? : Stmt → Option Announcement
  | routine head _ _ => some head.announcement
  | _ => none

namespace Grammar

open Rule

/-! ## Announcements and moves -/

theorem ofWord?_eq_none_iff (kind : TokenKind) :
    RoutineKind.ofWord? kind = none ↔ isRoutineWord kind = false := by
  cases kind <;> simp [RoutineKind.ofWord?, isRoutineWord]

/--
What stands before some tokens matters only where a routine's word begins them.
-/
theorem announced_eq
    (first second : Bool)
    {tokens : List Token}
    (noWord : isRoutineWord (headKind tokens) = false) :
    announced first tokens = announced second tokens := by
  cases tokens with
  | nil => rfl
  | cons token rest =>
      have none := (ofWord?_eq_none_iff token.kind).mpr noWord
      rw [announced, announced, none]

/-- A token that begins no routine's head may be dropped. -/
theorem announced_cons
    {token : Token}
    {rest : List Token}
    (opensNothing : opensRoutine (token :: rest) = false) :
    announced false (token :: rest) = announced false rest := by
  have noWord : isRoutineWord token.kind = false := by
    cases rest <;> simp_all [opensRoutine]
  rw [announced, (ofWord?_eq_none_iff token.kind).mpr noWord]
  cases rest with
  | nil => rfl
  | cons next others =>
      cases isStatic : token.kind == .static with
      | false => rfl
      | true =>
          refine announced_eq _ _ ?_
          rw [headKind]
          simpa [opensRoutine, noWord, isStatic] using opensNothing

/-- Skipped tokens announce no routine: the head of one is a boundary. -/
theorem announced_skipToBoundary
    (reached : Nat)
    (tokens : List Token) :
    announced false (skipToBoundary reached tokens).2 =
      announced false tokens := by
  induction tokens generalizing reached with
  | nil => rfl
  | cons token rest hypothesis =>
      rw [skipToBoundary]
      split
      · rfl
      · next inside =>
          rw [Bool.or_eq_true, not_or, Bool.not_eq_true, Bool.not_eq_true]
            at inside
          rw [hypothesis, announced_cons inside.2]

namespace State

theorem announced_advance
    {state : State}
    (opensNothing : opensRoutine state.rest = false) :
    announced false state.advance.rest = announced false state.rest := by
  cases shape : state.rest with
  | nil => rw [advance_of_ended shape, shape]
  | cons token rest =>
      rw [shape] at opensNothing
      rw [rest_advance shape, announced_cons opensNothing]

/--
A failure leaves the announced routines as they are, as it
skips up to a boundary.
-/
theorem announced_fail
    (state : State)
    (cause : Cause) :
    announced false (state.fail cause).rest = announced false state.rest := by
  rw [fail]
  split
  · rfl
  · rw [recover]
    dsimp only
    split
    · next isSemicolon =>
        rw [announced_advance]
        · exact announced_skipToBoundary _ _
        · rw [opensRoutine_rest, isSemicolon]
          rfl
    · exact announced_skipToBoundary _ _

/--
Sparing moves keep what the tokens ahead
announce, unless they cut the reading short.
-/
theorem Spares.announced
    {spared : TokenKind → Bool}
    {before after : State}
    (spares : before.Spares spared after)
    (whole : after.cutShort = false) :
    announced false after.rest = announced false before.rest := by
  have kept (first second : State)
      (move : SparingMove spared first second)
      (wholeHere : second.cutShort = false)
      (same : Clipper.announced false first.rest =
        Clipper.announced false before.rest) :
      Clipper.announced false second.rest =
        Clipper.announced false before.rest := by
    rw [← same]
    cases move with
    | advance _ opensNothing => exact announced_advance opensNothing
    | report | recovered => rfl
    | fail => exact announced_fail first _
    | cutOff => cases wholeHere
  exact spares.keeps kept whole rfl

end State

/-! ## What a program announces -/

/--
A required name is the one that was announced: the name
ahead, or the placeholder.
-/
theorem name_expectName
    (place : NamePlace)
    (state : State) :
    ((expectName place).run state).1.name = announcedName state.rest := by
  have chosen :
      ((expectName place).run state).1.name =
        if state.current.kind = .identifier then state.current.lexeme
        else Identifier.placeholderName := by
    simp only [expectName, run_bind, ask]
    split
    · rfl
    · rfl
  rw [chosen]
  cases shape : state.rest with
  | nil =>
      have ended : state.current.kind = .endOfFile := by
        rw [State.current, shape]
      rw [ended]
      rfl
  | cons token rest => rw [State.current_of_rest shape, announcedName]

/--
The word `STATIC` before the head of a routine belongs to its announcement.
-/
theorem announced_afterStatic
    {state opened : State}
    {isStatic : Bool}
    (ate : Runs (eat .static) state isStatic opened) :
    announced false state.rest = announced isStatic opened.rest := by
  obtain ⟨statics, rfl, rfl⟩ | ⟨-, rfl, rfl⟩ := runs_eat ate
  · have isStatic : state.current.kind = .static := statics
    rw [State.rest_of_kind statics (by decide), announced, isStatic]
    rfl
  · rfl

theorem announced_word
    {kind : TokenKind}
    (isWord : isRoutineWord kind = true) :
    RoutineKind.ofWord? kind =
      some (if kind = .function then RoutineKind.function else .procedure) := by
  rw [routineWord_of_isRoutineWord isWord]
  split <;> rfl

/--
The head of a routine is what its first tokens announce; the rest of the routine
is read as far as the next head.
-/
theorem announced_routine
    {block : List TokenKind → Rule Block}
    (bodyBlock : ∀ closers (state : State), (block closers).InBody state)
    {state next : State}
    {made : Stmt}
    (opens : opensRoutine state.rest = true)
    (runs : Runs (routine block) state made next) :
    announced false state.rest = made.announcement?.toList ++
      announced false next.rest ∧
      next.rest.length < state.rest.length := by
  obtain ⟨isStatic, opened, ate, afterStatic⟩ := runs_bind (runs_ask_bind runs)
  have isWord := isRoutineWord_afterStatic opens
  rw [ate.run] at isWord
  have isToken : opened.kind ≠ .endOfFile := by
    intro ended
    rw [ended] at isWord
    cases isWord
  have shape := State.rest_of_kind rfl isToken
  have word : isRoutineWord opened.current.kind = true := isWord
  have afterWord := runs_advance_bind afterStatic
  have body : opened.advance.Spares (fun _ => false) next := by
    refine Spares.of_runs ?_ afterWord
    refine (spares_expectName rfl _).bind
      (inner_parameters.inBody.bind ((bodyBlock _ _).bind ?_))
    exact inBody_closeRoutine.bind (spares_ask_bind (spares_pure _))
  have head :
      made.announcement? =
        some
          ⟨if opened.current.kind = .function then .function else .procedure,
            isStatic, announcedName opened.advance.rest⟩ := by
    rw [afterWord.value_eq,
      ← name_expectName (if opened.current.kind = .function then
        .functionWord else .procedureWord)]
    rfl
  constructor
  · rw [announced_afterStatic ate, shape, announced, announced_word word, head,
      body.announced afterWord.whole]
    rfl
  · have notLonger := ate.reaches.suffix.length_le
    have shorter := afterWord.reaches.suffix.length_le
    have taken := congrArg List.length shape
    rw [List.length_cons] at taken
    omega

/-- A statement makes of the tokens that it takes what they announce. -/
theorem announced_statement
    {levels : Nat}
    {state next : State}
    {made? : Option Stmt}
    (runs : Runs (statement levels) state made? next) :
    announced false state.rest =
        (made?.bind Stmt.announcement?).toList ++ announced false next.rest ∧
      (opensRoutine state.rest = true →
        next.rest.length < state.rest.length) := by
  cases opens : opensRoutine state.rest with
  | false =>
      have nothing : made?.bind Stmt.announcement? = none := by
        rw [Option.bind_eq_none_iff]
        intro made isMade
        rw [runs.value_eq] at isMade
        have head :=
          (routineOnlyAtHead_statement levels state made isMade).isRoutine
        rw [opens] at head
        cases made with
        | routine => cases head
        | _ => rfl
      have spares := (inBody_statement levels state opens).of_runs runs
      rw [nothing, spares.announced runs.whole]
      exact ⟨rfl, nofun⟩
  | true =>
      obtain ⟨block, bodyBlock, isForm⟩ := exists_statementOf levels
      rw [isForm] at runs
      have formed := runs_ask_bind (runs_recovered_bind runs)
      have opensHere : opensRoutine
          ({ state with recovering := false } : State).rest = true :=
        opens
      have form := form_eq_routine opensHere
      rw [form] at formed
      obtain ⟨made, routineRuns, rfl⟩ := runs_map formed
      obtain ⟨same, shorter⟩ :=
        announced_routine bodyBlock opensHere routineRuns
      exact ⟨same, fun _ => shorter⟩

/-- The statements of a program announce what its tokens announce. -/
theorem announced_sequence
    {closes : State → Bool}
    {levels : Nat}
    {state : State}
    (whole : ((sequence closes (statement levels)).run state).2.cutShort =
      false) :
    announced false state.rest =
      ((sequence closes (statement levels)).run state).1.filterMap
        Stmt.announcement? ++
        announced false
          ((sequence closes (statement levels)).run state).2.rest := by
  change (runSequence closes (statement levels) state).2.cutShort =
    false at whole
  change _ =
    (runSequence closes (statement levels) state).1.filterMap
      Stmt.announcement? ++
      announced false (runSequence closes (statement levels) state).2.rest
  fun_induction runSequence closes (statement levels) state with
  | case1 | case2 => rfl
  | case3 state _ _ first _ others hypothesis =>
      have later := runSequence_reaches closes (statement levels)
          (state.forward first.2)
      have wholeFirst :=
        ((State.forward_reaches state first.2).trans later).whole whole
      obtain ⟨once, taken⟩ := announced_statement (runs_of_whole wholeFirst)
      have forward :
          announced false (state.forward first.2).rest =
            announced false first.2.rest := by
        rw [State.forward]
        split
        · next same =>
            refine State.announced_advance
              (Bool.eq_false_iff.mpr fun opens => ?_)
            have still : first.2.rest = state.rest := eq_of_beq same
            rw [still] at opens
            exact absurd (congrArg List.length still)
              (Nat.ne_of_lt (taken opens))
        · rfl
      rw [once, ← forward, hypothesis whole, List.filterMap_append,
        List.append_assoc]
      congr 1
      change (first.1.bind _).toList = _
      cases first.1 with
      | none => rfl
      | some made => cases made <;> rfl

theorem routines_announcement (program : Program) :
    program.routines.map (fun routine => routine.1.announcement) =
      program.statements.filterMap Stmt.announcement? := by
  rw [Program.routines, List.map_filterMap]
  refine List.filterMap_congr fun statement _ => ?_
  cases statement <;> rfl

/--
A program that is not nested too deeply has the routines that its tokens
announce, in order; and in no program is a routine inside a block.
-/
theorem readProgram_routines :
    (∀ tokens, (readProgram tokens).Shallow →
      (readProgram tokens).value.routines.map
        (fun routine => routine.1.announcement) =
          announced false (tokens.takeWhile (·.kind != .endOfFile))) ∧
    ∀ tokens, ∀ statement ∈ (readProgram tokens).value.statements,
      ∀ block inner, Node.Within (.statement statement) (.block block) →
        Node.Within (.block block) (.statement inner) →
        inner.isRoutine = false := by
  refine ⟨fun tokens shallow =>
    ?_, fun tokens statement member block inner => ?_⟩
  · have same := announced_sequence shallow.whole
    have ended := runSequence_open_ended (statement nestingLimit)
        (State.ofTokens tokens)
    rw [show (Rule.run _ (State.ofTokens tokens)).2.rest =
      [] from ended, announced,
      List.append_nil] at same
    rw [routines_announcement]
    exact same.symm
  · exact noRoutine_inBlock
      (routineOnlyAtHead_readProgram tokens statement member)

/--
`STATIC FUNCTION` within an open call and `PROCEDURE` within an open loop are
read as routines, and the loop in the first routine holds none.
-/
theorem readProgram_routines_unclosed :
    let token := fun kind lexeme => Token.mk kind (Span.empty 0) lexeme
    let tokens :=
      [token .identifier "a", token .leftParenthesis "(",
        token .static "STATIC", token .function "FUNCTION",
        token .semicolon ";", token .whileWord "WHILE",
        token .procedure "PROCEDURE", token .identifier "p"]
    ((readProgram tokens).Shallow ∧
      (readProgram tokens).value.routines.map
        (fun routine => routine.1.announcement) =
          [⟨.function, true, "<missing>"⟩, ⟨.procedure, false, "p"⟩]) ∧
      ∃ statement ∈ (readProgram tokens).value.statements, ∃ block inner,
        Node.Within (.statement statement) (.block block) ∧
          Node.Within (.block block) (.statement inner) ∧
          inner.isRoutine = false := by
  intro token tokens
  have shallow : (readProgram tokens).Shallow := by decide +kernel
  have holding :
      (readProgram tokens).value.routines.any
        (fun routine => !routine.2.statements.isEmpty) =
          true := by
    decide +kernel
  refine ⟨⟨shallow, readProgram_routines.1 tokens shallow⟩, ?_⟩
  obtain ⟨⟨head, body⟩, isRoutine, holds⟩ := List.any_eq_true.mp holding
  obtain ⟨span, member⟩ := Program.mem_statements_of_mem_routines isRoutine
  obtain ⟨inner, innerMember⟩ :=
    List.exists_mem_of_ne_nil body.statements
      (by rintro empty; simp [empty] at holds)
  have bodyInside : Node.Within (.statement (.routine head body span))
      (.block body) :=
    .child .root
      (List.mem_cons_of_mem _ (List.mem_append_right _ List.mem_cons_self))
  have inside : Node.Within (.block body) (.statement inner) :=
    .child .root (List.mem_map_of_mem innerMember)
  exact ⟨_, member, _, _, bodyInside, inside,
    readProgram_routines.2 tokens _ member _ _ bodyInside inside⟩

end Grammar

end Clipper
