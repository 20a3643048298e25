import Mathlib.Data.List.Permutation
import Clipper.Proofs.Grammar.SpareLevels
import Clipper.Proofs.Grammar.TakenElsewhere

/-!
# Arms in a row

A chain of `ELSEIF` arms is read as conditionals in the other blocks of one
another.  The arms of a chain are collected one after the other and share one
closing word, so a chain may have any number of them; written with `ELSE IF`,
each conditional uses up a level.  Each arm takes the tokens that it takes
alone, whatever word ends its block.

The chain is stated with arms as a list, and the conditional that stands for
it is made by recursion on the list.  That each arm takes its tokens alone is
a hypothesis on a program with this arm and no other.  The token that closes
an arm there is the closing word, and in the chain it is the word of the next
arm; no rule in the block of the arm tells the two apart, because both end a
block.
-/

namespace Clipper

open Grammar Rule
open Relabelled (relabel)

/-! ## A conditional alone -/

namespace Grammar

/--
Where no statement is read to the end of the tokens, there are only semicolons.
-/
theorem semicolon_of_reads_nothing
    {levels : Nat}
    {state next : State}
    (reads : Reads (sequence (fun _ => false) (statement levels))
      state [] next) :
    ∀ token ∈ state.rest, token.kind = .semicolon := by
  induction bound : state.rest.length using Nat.strongRecOn
    generalizing state with
  | ind length hypothesis =>
      rcases reads.of_sequence with
        ⟨ended | impossible, -, -⟩ | ⟨made?, middle, others, -, once,
          again, none⟩
      · rw [ended]
        exact List.forall_mem_nil _
      · cases impossible
      · have taken := Curtailment.takes_statement once
        rw [State.forward_of_taken taken] at again
        cases made? with
        | some made => cases none
        | none =>
            cases none
            have later := hypothesis _ (bound ▸ taken) again rfl
            obtain ⟨tokens, shape, phrased | ⟨-, phrased⟩⟩ :=
              sound_statement levels once
            all_goals
              cases phrased with
              | semicolon kind =>
                  rw [shape]
                  exact List.forall_mem_cons.mpr ⟨kind, later⟩

end Grammar

/--
Between these two words, the tokens are read
without a report as this conditional alone.
-/
structure AloneAs
    (opening closing : Token)
    (tokens : List Token)
    (condition : Expr)
    (positive : Block)
    (negative? : Option Block) : Prop where
  noEnd : ∀ token ∈ tokens, token.kind ≠ .endOfFile
  clean : (readProgram (opening :: (tokens ++ [closing]))).reports = []
  statement :
    ∃ span, (readProgram (opening :: (tokens ++ [closing]))).value.statements =
      [.conditional condition positive negative? span]

section

variable
  {opening closing : Token}
  (opens : opening.kind = .ifWord)
  (closes : closing.kind = .endIf)
  {tokens : List Token}
  {condition : Expr}
  {positive : Block}
  {negative? : Option Block}

include opens closes

/-- The arms of a conditional alone take the tokens between its words. -/
theorem AloneAs.reads_parts
    (alone : AloneAs opening closing tokens condition positive negative?) :
    ∃ start state arm others last? next reached,
      Reads (conditionalParts (expression nestingLimit) (blocks nestingLimit)
        start) state
          (arm, others, last?) next ∧
        state.rest = tokens ++ [closing] ∧ next.rest = [closing] ∧
          arm.condition = condition ∧ arm.block = positive ∧
            others.foldr (Arm.nest reached) last? = negative? := by
  have noEnd : ∀ token ∈ opening :: (tokens ++ [closing]),
      token.kind ≠ .endOfFile := by
    simp only [List.forall_mem_cons, List.forall_mem_append]
    exact ⟨noEnd_word opens (by decide), alone.noEnd,
      noEnd_word closes (by decide), List.forall_mem_nil _⟩
  obtain ⟨span, statements⟩ := alone.statement
  obtain ⟨final, reads⟩ := reads_of_clean alone.clean
  have shape : (State.ofTokens (opening :: (tokens ++ [closing]))).rest =
      opening :: (tokens ++ [closing]) := by rw [ofTokens_of_noEnd noEnd]
  generalize State.ofTokens (opening :: (tokens ++ [closing])) = state
    at reads shape
  rw [statements] at reads
  rcases reads.of_sequence
    with ⟨-, none, -⟩ | ⟨made?, middle, others, -, once, again, made⟩
  · cases none
  have taken := Curtailment.takes_statement once
  rw [State.forward_of_taken taken] at again
  have form : StatementForm.of state = .conditional := by
    rw [StatementForm.of, State.kind_of_rest shape, opens]
  rw [statement_eq, statementOf, reads_recovered_bind, reads_ask_bind, form]
    at once
  obtain ⟨first, read, rfl⟩ := reads_map.mp once
  rw [Option.toList_some, List.singleton_append, List.cons.injEq] at made
  obtain ⟨rfl, rfl⟩ := made
  rw [conditional_eq, reads_advance_bind] at read
  obtain ⟨⟨arm, others, last?⟩, next, parts, continued⟩ := reads_bind.mp read
  rw [reads_ask_bind] at continued
  obtain ⟨atClosing, ended⟩ := reads_close_bind continued
  rw [spanFrom, reads_ask_bind, reads_pure] at ended
  obtain ⟨-, same, rfl⟩ := ended
  rw [Stmt.conditional.injEq] at same
  obtain ⟨sameCondition, samePositive, sameNegative, -⟩ := same
  have within := Curtailment.suffix_of_reads parts
  rw [State.rest_advance shape] at within
  have shapeNext := State.rest_of_kind atClosing (by decide)
  rw [shapeNext] at within
  -- Nothing is left: the last token is the closing word, and it is no
  -- semicolon.
  have atEnd : next.advance.rest = [] := by
    rcases List.eq_nil_or_concat' next.advance.rest
      with none | ⟨front, last, whole⟩
    · exact none
    have isLast : last = closing := by
      obtain ⟨before, same⟩ := within
      rw [whole, ← List.cons_append, ← List.append_assoc] at same
      exact List.singleton_inj.mp (List.append_inj_right' same rfl)
    have isSemicolon :=
      semicolon_of_reads_nothing again last (by rw [whole]; simp)
    rw [isLast, closes] at isSemicolon
    cases isSemicolon
  rw [atEnd] at shapeNext within
  have last : next.current = closing := by
    obtain ⟨before, whole⟩ := within
    exact List.singleton_inj.mp (List.append_inj_right' whole rfl)
  rw [last] at shapeNext
  exact ⟨_, state.advance, arm, others, last?, next, _, parts,
    State.rest_advance shape, shapeNext, sameCondition.symm, samePositive.symm,
    sameNegative.symm⟩

/--
An arm that stands alone takes its tokens also
before further arms, with more levels left.
-/
theorem AloneAs.takes_arm
    (alone : AloneAs opening closing tokens condition positive none)
    {levels : Nat}
    (le : nestingLimit ≤ levels)
    {after : List Token}
    (closed : headKind after ∈ armClosers)
    (begun : Nat) :
    Takes (arm (expression levels) (blocks levels) begun) tokens after
      (fun read => Alike condition read.condition ∧
        Alike positive read.block) := by
  obtain ⟨start, state, first, others, last?, next, reached, parts, shape,
      shapeNext, rfl, rfl,
    nothing⟩ := alone.reads_parts opens closes
  cases others with
  | cons => cases nothing
  | nil =>
      cases nothing
      obtain ⟨_, afterFirst, readFirst, continued⟩ := reads_bind.mp parts
      obtain ⟨_, afterOthers, readOthers, further⟩ := reads_bind.mp continued
      obtain ⟨_, atEnd, readLast, ended⟩ := reads_bind.mp further
      obtain ⟨-, ⟨⟩, rfl⟩ := reads_pure.mp ended
      obtain ⟨-, -, rfl⟩ := reads_many_nil.mp readOthers
      rw [optionalAfter, reads_eat_ite] at readLast
      rcases readLast with ⟨-, present⟩ | ⟨-, absent⟩
      · obtain ⟨_, -, impossible⟩ := reads_map.mp present
        cases impossible
      · obtain ⟨-, -, rfl⟩ := reads_pure.mp absent
        rw [← shapeNext] at shape
        exact takes_arm_of_reads le readFirst shape closed begun

/--
The block after the `ELSE` of a conditional
alone takes its tokens with more levels left.
-/
theorem AloneAs.takes_other
    {first others : List Token}
    {elseWord : Token}
    (isElse : elseWord.kind = .elseWord)
    (alone : AloneAs opening closing first condition positive none)
    {otherCondition : Expr}
    {otherPositive : Block}
    (whole :
      AloneAs opening closing (first ++ elseWord :: others) otherCondition
        otherPositive negative?)
    {levels : Nat}
    (le : nestingLimit ≤ levels)
    {after : List Token}
    (closed : headKind after = .endIf) :
    Takes (optionalAfter .elseWord (blocks levels [.endIf]))
      (elseWord :: others) after (Alike negative?) := by
  obtain ⟨start, state, made, arms, last?, next, reached, parts, shape,
      shapeNext, -, -, rfl⟩ :=
    whole.reads_parts opens closes
  obtain ⟨_, atElse, readFirst, continued⟩ := reads_bind.mp parts
  obtain ⟨_, afterArms, readArms, further⟩ := reads_bind.mp continued
  obtain ⟨_, atEnd, readLast, ended⟩ := reads_bind.mp further
  obtain ⟨-, ⟨⟩, rfl⟩ := reads_pure.mp ended
  -- The first arm takes the same tokens as alone, so the word after it is the
  -- `ELSE`.
  have rest : atElse.rest = elseWord :: (others ++ [closing]) := by
    have closedArm : headKind (elseWord :: (others ++ [closing])) ∈
        armClosers := by
      rw [headKind, isElse]
      decide
    obtain ⟨_, last, reads, atLast, -⟩ :=
      alone.takes_arm opens closes le_rfl closedArm start readFirst.calm
        (by simpa using shape)
    have same : atElse = last :=
      (Prod.mk.inj (readFirst.run.symm.trans reads.run)).2
    rw [same, atLast]
  have isWord : atElse.kind = .elseWord :=
    (State.kind_of_rest rest).trans isElse
  have closedArms : ∀ token rest, atElse.rest = token :: rest →
      furtherArm? (expression nestingLimit) (blocks nestingLimit) token =
        Option.none := by
    intro token others ahead
    rw [rest] at ahead
    cases ahead
    exact if_neg (by rw [isElse]; exact TokenKind.noConfusion)
  obtain ⟨-, rfl, rfl⟩ := (reads_many_of_closed closedArms).mp readArms
  rw [optionalAfter, reads_eat_ite] at readLast
  rcases readLast with ⟨-, present⟩ | ⟨other, -⟩
  · obtain ⟨block, readBlock, rfl⟩ := reads_map.mp present
    have taken : afterArms.advance.rest = others ++ next.rest := by
      rw [State.rest_advance rest, shapeNext]
    exact takes_optionalAfter isElse
      ((takes_blocks_of_reads le readBlock taken (by decide)
        (by rw [closed]; decide)).mono
        fun _ alike => alike.some)
  · exact absurd isWord other

end

/-! ## Chains and nested conditionals -/

/--
A further arm: what stands between its words, the word before it in a chain, and
the two words before it in a nested conditional.
-/
structure FurtherArm where
  elseIf : Token
  elseWord : Token
  ifWord : Token
  tokens : List Token
  isElseIf : elseIf.kind = .elseIf
  isElse : elseWord.kind = .elseWord
  isIf : ifWord.kind = .ifWord

/-- Arms in a row, each after an `ELSEIF`. -/
def chained : List FurtherArm → List Token :=
  List.flatMap fun arm => arm.elseIf :: arm.tokens

/-- Arms that begin conditionals in one another, each after `ELSE` and `IF`. -/
def expanded : List FurtherArm → List Token :=
  List.flatMap fun arm => arm.elseWord :: arm.ifWord :: arm.tokens

/--
The other block that arms make: the conditional
of the first of them stands alone in it.
-/
def nestedArms (last? : Option Block) : List (Expr × Block) → Option Block
  | [] => last?
  | made :: others =>
      let inner := Stmt.conditional made.1 made.2 (nestedArms last? others)
          (Span.empty 0)
      some (.of [inner] (Span.empty 0))

/--
Nothing, or an `ELSE` and the tokens after it
that are read as a block behind the first arm.
-/
inductive LastBlock
    (opening closing : Token)
    (first : List Token) :
    List Token → Option Block → Prop where
  | absent : LastBlock opening closing first [] none
  | present
      {elseWord : Token}
      {tokens : List Token}
      {condition : Expr}
      {positive : Block}
      {negative? : Option Block}
      (isElse : elseWord.kind = .elseWord)
      (alone :
        AloneAs opening closing (first ++ elseWord :: tokens) condition positive
          negative?) :
      LastBlock opening closing first (elseWord :: tokens) negative?

/-- Each arm stands alone between its `IF` and a closing word. -/
def ArmsAlone (closing : Token) :
    List FurtherArm → List (Expr × Block) → Prop :=
  List.Forall₂ fun arm made =>
    AloneAs arm.ifWord closing arm.tokens made.1 made.2 none

section

variable
  {opening closing : Token}
  (opens : opening.kind = .ifWord)
  (closes : closing.kind = .endIf)
  {first last : List Token}
  {condition : Expr}
  {positive : Block}
  {last? : Option Block}
  {further : List FurtherArm}
  {made : List (Expr × Block)}

theorem LastBlock.closed
    (otherwise : LastBlock opening closing first last last?)
    {after : List Token}
    (closed : headKind after = .endIf) :
    headKind (last ++ after) ∈ [.elseWord, .endIf] := by
  cases otherwise with
  | absent => simp [closed]
  | present isElse _ => simp [headKind, isElse]

/-- Wherever a conditional is closed, the last block takes its tokens. -/
abbrev TakesLast
    (last : List Token)
    (last? : Option Block) :
    Prop :=
  ∀ ⦃levels : Nat⦄ ⦃after : List Token⦄, nestingLimit ≤ levels →
    headKind after = .endIf →
    headKind (last ++ after) ∈ [.elseWord, .endIf] ∧
      Takes (optionalAfter .elseWord (blocks levels [.endIf])) last after
        (Alike last?)

include opens closes in
/--
What comes after the last condition, a block behind `ELSE` or nothing, is
taken up to the closing word.
-/
theorem LastBlock.takes
    (otherwise : LastBlock opening closing first last last?)
    (alone : AloneAs opening closing first condition positive none) :
    TakesLast last last? := by
  intro levels after le closed
  refine ⟨otherwise.closed closed, ?_⟩
  cases otherwise with
  | absent =>
      exact takes_optionalAfter_none
        (by rw [closed]; exact TokenKind.noConfusion) rfl
  | present isElse whole =>
      exact alone.takes_other opens closes isElse whole le closed

/--
A conditional that is taken is a statement that is taken, as its
word tells the form.
-/
theorem takes_statement_of_conditional
    {levels : Nat}
    {tokens after : List Token}
    {negative? : Option Block}
    {span : Span}
    (isIf : headKind tokens = .ifWord)
    (takes :
      Takes (conditional (expression levels) (blocks levels)) tokens after
        (Alike (.conditional condition positive negative? span))) :
    Takes (statement levels) tokens after
      (Stmt.conditional condition positive negative? span).Found := by
  rw [statement_eq]
  refine takes_statementOf (fun state ahead => ?_) (takes_found takes)
  have nonempty : tokens ≠ [] := by
    rintro rfl
    cases isIf
  rw [StatementForm.of, State.kind_eq_headKind, ahead,
    headKind_append nonempty, isIf]
  rfl

include closes in
/--
The arms of a chain make the conditionals
that their words would make in one another.
-/
theorem takesAlternative_chained
    {levels : Nat}
    (le : nestingLimit ≤ levels)
    (arms : ArmsAlone closing further made)
    (takesLast : TakesLast last last?)
    {after : List Token}
    (closed : headKind after = .endIf) :
    headKind (chained further ++ last ++ after) ∈ armClosers ∧
      TakesAlternative levels (blocks levels) (chained further ++ last) after
        (nestedArms last? made) := by
  obtain ⟨heads, takes⟩ := takesLast le closed
  induction arms with
  | nil =>
      refine ⟨List.mem_cons_of_mem _ heads, takesAlternative_last ?_ takes⟩
      intro isElseIf
      rw [chained, List.flatMap_nil, List.nil_append] at isElseIf
      rw [isElseIf] at heads
      exact absurd heads (by decide)
  | @cons arm made further others alone _ hypothesis =>
      obtain ⟨heads, rest⟩ := hypothesis
      have shape : chained (arm :: further) ++ last =
          arm.elseIf :: (arm.tokens ++ (chained further ++ last)) := by
        rw [chained, List.flatMap_cons, List.cons_append, List.cons_append,
          List.append_assoc]
      rw [shape]
      refine ⟨?_, takesAlternative_further arm.isElseIf ?_ rest _ _⟩
      · rw [List.cons_append, headKind, arm.isElseIf]
        decide
      · exact alone.takes_arm arm.isIf closes le heads

/--
A statement that takes all tokens up to the
end of a sequence is the only one in it.
-/
theorem takes_sequence_alone
    {item : Rule (Option Stmt)}
    {ends : State → Bool}
    {tokens after : List Token}
    {only : Stmt}
    (nonempty : tokens ≠ [])
    (opened : ∀ state : State, state.rest = tokens ++ after →
      ends state = false)
    (closed : ∀ state : State, state.rest = after →
      after = [] ∨ ends state = true)
    (takes : Takes item tokens after only.Found) :
    Takes (sequence ends item) tokens after (Alike [only]) := by
  rw [← List.append_nil tokens]
  refine takes_sequence_cons nonempty opened takes fun read alike => ?_
  exact takes_sequence_nil closed
    (congrArg (fun statement => [statement]) alike)

/-- A conditional alone after an `ELSE` is the other block. -/
theorem takes_nested
    {levels : Nat}
    {elseWord opening : Token}
    {tokens after : List Token}
    {negative? : Option Block}
    {span : Span}
    (isElse : elseWord.kind = .elseWord)
    (opens : opening.kind = .ifWord)
    (closed : headKind after = .endIf)
    (takes :
      Takes (conditional (expression levels) (blocks levels))
        (opening :: tokens) after
        (Alike (.conditional condition positive negative? span))) :
    let nested := Stmt.conditional condition positive negative? span
    Takes (optionalAfter .elseWord (blocks (levels + 1) [.endIf]))
      (elseWord :: opening :: tokens)
      after (Alike (some (.of [nested] (Span.empty 0)))) := by
  intro nested
  have isIf : headKind (opening :: tokens) = .ifWord := opens
  have statement := takes_statement_of_conditional isIf takes
  have lines :
      Takes (sequence (endsBlock [.endIf]) (Grammar.statement levels))
        (opening :: tokens) after
        (Alike [.conditional condition positive negative? span]) :=
    takes_sequence_alone (List.cons_ne_nil _ _) (fun state ahead => ?_)
      (fun state ahead => .inr ?_) statement
  · refine takes_optionalAfter isElse ?_
    exact (takes_blockOf lines (Span.empty 0)).mono fun _ alike => alike.some
  · rw [endsBlock, State.kind_eq_headKind, ahead, List.cons_append,
      headKind, opens]
    cases tokens ++ after <;> simp [opensRoutine, isRoutineWord, opens]
  · rw [endsBlock, State.kind_eq_headKind, ahead, closed]
    rfl

include closes in
/--
Each conditional stands alone in the other
block of the one around it, one level deeper.
-/
theorem takes_expanded
    (arms : ArmsAlone closing further made)
    (takesLast : TakesLast last last?)
    {opening : Token}
    (opens : opening.kind = .ifWord)
    {first : List Token}
    {condition : Expr}
    {positive : Block}
    (alone : AloneAs opening closing first condition positive none)
    {levels : Nat}
    (le : nestingLimit + further.length ≤ levels)
    {closings : List Token}
    (length : closings.length = further.length + 1)
    (isClosing : ∀ token ∈ closings, token.kind = .endIf)
    (after : List Token)
    (span : Span) :
    Takes (conditional (expression levels) (blocks levels))
      (opening :: (first ++ (expanded further ++ (last ++ closings)))) after
      (Alike (.conditional condition positive (nestedArms last? made)
        span)) := by
  induction arms generalizing opening first condition positive levels closings
    after span with
  | nil =>
      obtain ⟨closing, rfl⟩ := List.length_eq_one_iff.mp length
      have isEnd : headKind (closing :: after) = .endIf :=
        isClosing closing List.mem_cons_self
      obtain ⟨heads, takes⟩ := takesLast le isEnd
      refine takes_conditional opening ?_
        (takesAlternative_last ?_ takes) isEnd span
      · exact alone.takes_arm opens closes le (List.mem_cons_of_mem _ heads)
      · intro isElseIf
        rw [isElseIf] at heads
        exact absurd heads (by decide)
  | @cons arm made further others armAlone _ hypothesis =>
      obtain none | ⟨inner, ending, rfl⟩ := List.eq_nil_or_concat' closings
      · rw [none] at length
        cases length
      obtain ⟨innerClosing, isEnding⟩ := List.forall_mem_append.mp isClosing
      have isEnd : headKind (ending :: after) = .endIf :=
        isEnding ending List.mem_cons_self
      rw [List.length_append, List.length_singleton, List.length_cons] at length
      rw [List.length_cons] at le
      obtain ⟨levels, rfl⟩ : ∃ fewer, levels = fewer + 1 :=
        ⟨levels - 1, by omega⟩
      have below : nestingLimit + further.length ≤ levels := by omega
      have nested :=
        takes_nested arm.isElse arm.isIf isEnd
          (hypothesis arm.isIf armAlone below (by omega) innerClosing
            (ending :: after)
            (Span.empty 0))
      have shape : expanded (arm :: further) ++ (last ++ (inner ++ [ending])) =
          (arm.elseWord :: arm.ifWord ::
            (arm.tokens ++ (expanded further ++ (last ++ inner)))) ++
            [ending] := by
        simp [expanded]
      rw [shape]
      refine takes_conditional opening ?_
        (takesAlternative_last ?_ nested) isEnd span
      · refine alone.takes_arm opens closes (by omega) ?_
        rw [List.cons_append, headKind, arm.isElse]
        decide
      · rw [List.cons_append, headKind, arm.isElse]
        exact TokenKind.noConfusion

/-! ## Programs -/

/--
What a sequence takes with more levels is
a program, if it is read in the same way.
-/
theorem readProgram_of_takes
    {tokens : List Token}
    {statements : List Stmt}
    (noEnd : ∀ token ∈ tokens, token.kind ≠ .endOfFile)
    {levels : Nat}
    (same :
      (sequence (fun _ => false) (statement nestingLimit)).run
        (State.ofTokens tokens) =
          (sequence (fun _ => false) (statement levels)).run
            (State.ofTokens tokens))
    (takes : Takes (sequence (fun _ => false) (statement levels)) tokens []
      (Alike statements)) :
    (readProgram tokens).reports = [] ∧
    Alike statements (readProgram tokens).value.statements := by
  have rest : (State.ofTokens tokens).rest = tokens ++ [] := by
    rw [ofTokens_of_noEnd noEnd, List.append_nil]
  obtain ⟨read, next, reads, -, alike⟩ :=
    takes (State.calm_ofTokens tokens) rest
  obtain ⟨reports, statements⟩ := readProgram_of_run (same.trans reads.run)
  rw [reports, statements]
  exact ⟨List.reverse_eq_nil_iff.mpr reads.quiet, alike⟩

/-- No arm holds the end of the tokens, so they can be put together. -/
theorem ArmsAlone.noEnd
    (arms : ArmsAlone closing further made)
    (words : FurtherArm → List Token)
    (wordsNoEnd : ∀ arm, ∀ token ∈ words arm, token.kind ≠ .endOfFile) :
    ∀ token ∈ further.flatMap fun arm =>
      words arm ++ arm.tokens, token.kind ≠ .endOfFile := by
  induction arms with
  | nil => exact List.forall_mem_nil _
  | cons alone _ hypothesis =>
      rw [List.flatMap_cons]
      refine List.forall_mem_append.mpr
        ⟨List.forall_mem_append.mpr ⟨wordsNoEnd _, ?_⟩, hypothesis⟩
      exact alone.noEnd

theorem LastBlock.noEnd
    (otherwise : LastBlock opening closing first last last?) :
    ∀ token ∈ last, token.kind ≠ .endOfFile := by
  cases otherwise with
  | absent => exact List.forall_mem_nil _
  | present _ alone => exact (List.forall_mem_append.mp alone.noEnd).2

/--
A chain of any number of arms is read as the first conditional, in the other
block of which stands the conditional of the next arm alone, and so on to the
last block.  The same tree, up to places, is read from conditionals written in
one another, as long as they are not nested too deeply.
-/
theorem readProgram_elseIf
    {opening closing : Token}
    (opens : opening.kind = .ifWord)
    (closes : closing.kind = .endIf)
    {first last : List Token}
    {further : List FurtherArm}
    {condition : Expr}
    {positive : Block}
    {made : List (Expr × Block)}
    {last? : Option Block}
    (alone : AloneAs opening closing first condition positive none)
    (arms : ArmsAlone closing further made)
    (otherwise : LastBlock opening closing first last last?) :
    let tree :=
      [Stmt.conditional condition positive (nestedArms last? made)
        (Span.empty 0)]
    let chain := opening :: (first ++ (chained further ++ (last ++ [closing])))
    ((readProgram chain).reports = [] ∧
      Alike tree (readProgram chain).value.statements) ∧
      ∀ closings : List Token, closings.length = further.length + 1 →
        (∀ token ∈ closings, token.kind = .endIf) →
          let expansion := opening ::
              (first ++ (expanded further ++ (last ++ closings)))
          (readProgram expansion).Shallow →
            (readProgram expansion).reports = [] ∧
              Alike tree (readProgram expansion).value.statements := by
  intro tree chain
  have takesLast : TakesLast last last? := otherwise.takes opens closes alone
  have noEnd
      {words endings : List Token}
      (wordsNoEnd : ∀ token ∈ words, token.kind ≠ .endOfFile)
      (isClosing : ∀ token ∈ endings, token.kind = .endIf) :
      ∀ token ∈ opening :: (first ++ (words ++ (last ++ endings))),
        token.kind ≠ .endOfFile := by
    simp only [List.forall_mem_cons, List.forall_mem_append]
    refine ⟨noEnd_word opens (by decide), alone.noEnd, wordsNoEnd,
      otherwise.noEnd, ?_⟩
    exact fun token among => noEnd_word (isClosing token among) (by decide)
  have takesProgram
      {levels : Nat}
      {tokens : List Token}
      (takes :
        Takes (conditional (expression levels) (blocks levels))
          (opening :: tokens) []
          (Alike (.conditional condition positive (nestedArms last? made)
            (Span.empty 0)))) :
      Takes (sequence (fun _ => false) (statement levels)) (opening :: tokens)
        [] (Alike tree) :=
    takes_sequence_alone (List.cons_ne_nil _ _) (fun _ _ => rfl)
      (fun _ _ => .inl rfl) (takes_statement_of_conditional opens takes)
  constructor
  · refine readProgram_of_takes (noEnd ?_ ?_) rfl (takesProgram ?_)
    · exact arms.noEnd (fun arm => [arm.elseIf]) fun arm =>
        List.forall_mem_singleton.mpr (noEnd_word arm.isElseIf (by decide))
    · exact List.forall_mem_singleton.mpr closes
    · have closed : headKind [closing] = .endIf := closes
      obtain ⟨heads, rest⟩ :=
        takesAlternative_chained closes le_rfl arms takesLast closed
      rw [← List.append_assoc (chained further)]
      exact takes_conditional opening
        (alone.takes_arm opens closes le_rfl heads) rest closes _
  · intro closings length isClosing expansion shallow
    have deep :=
      takes_expanded closes arms takesLast opens alone le_rfl length isClosing
        [] (Span.empty 0)
    have persists := persists_statement
        (Nat.le_add_right nestingLimit further.length)
    have same := (persists.sequence _ _ shallow.whole).symm
    refine readProgram_of_takes (noEnd ?_ isClosing) same (takesProgram deep)
    exact arms.noEnd (fun arm => [arm.elseWord, arm.ifWord]) fun arm =>
      List.forall_mem_cons.mpr ⟨noEnd_word arm.isElse (by decide),
        List.forall_mem_singleton.mpr (noEnd_word arm.isIf (by decide))⟩

set_option maxRecDepth 2000 in
/--
`IF a`, `x`, `ELSEIF b THEN`, `y`, `ELSE` and `z`, and the same with `ELSE IF`.
-/
theorem readProgram_elseIf_two :
    let place := Span.empty 0
    let name (text : String) : Token := .unplaced .identifier text
    let value (text : String) : Expr := .name ⟨text, place⟩ place
    let block (text : String) : Block :=
      .of [.expression (value text) place] place
    let opening : Token := .unplaced .ifWord "IF"
    let closing : Token := .unplaced .endIf "ENDIF"
    let elseWord : Token := .unplaced .elseWord "ELSE"
    let inner := [name "b", .unplaced .thenWord "THEN", name "y"]
    let arm : FurtherArm :=
      ⟨.unplaced .elseIf "ELSEIF", elseWord, opening, inner, rfl, rfl, rfl⟩
    let first := [name "a", name "x"]
    let last := [elseWord, name "z"]
    let made := [(value "b", block "y")]
    let tree :=
      [Stmt.conditional (value "a") (block "x")
        (nestedArms (some (block "z")) made) place]
    let chain := opening :: (first ++ (chained [arm] ++ (last ++ [closing])))
    let expansion := opening ::
        (first ++ (expanded [arm] ++ (last ++ [closing, closing])))
    (AloneAs opening closing first (value "a") (block "x") none ∧
      ArmsAlone closing [arm] made ∧
        LastBlock opening closing first last (some (block "z")) ∧
          (readProgram expansion).Shallow) ∧
      ((readProgram chain).reports = [] ∧
        Alike tree (readProgram chain).value.statements) ∧
        (readProgram expansion).reports = [] ∧
          Alike tree (readProgram expansion).value.statements := by
  intro place name value block opening closing elseWord inner arm first last
    made tree chain expansion
  have alone : AloneAs opening closing first (value "a") (block "x") none :=
    ⟨by decide, by decide +kernel, place, by cbv⟩
  have arms : ArmsAlone closing [arm] made :=
    .cons ⟨by decide, by decide +kernel, place, by cbv⟩ .nil
  have whole :
      AloneAs opening closing (first ++ last) (value "a") (block "x")
        (some (block "z")) :=
    ⟨by decide, by decide +kernel, place, by cbv⟩
  have otherwise : LastBlock opening closing first last (some (block "z")) :=
    .present rfl whole
  have shallow : (readProgram expansion).Shallow := by decide +kernel
  obtain ⟨read, readExpanded⟩ := readProgram_elseIf rfl rfl alone arms otherwise
  exact ⟨⟨alone, arms, otherwise, shallow⟩, read,
    readExpanded [closing, closing] rfl (by decide) shallow⟩

/--
A conditional that ends before an end of the file stands alone with any tokens
after that; in a chain, they may be the other arms, which are not read.
-/
theorem readProgram_elseIf_endOfFile :
    let place := Span.empty 0
    let name (text : String) : Token := .unplaced .identifier text
    let value (text : String) : Expr := .name ⟨text, place⟩ place
    let block : Block := .of [] place
    let opening : Token := .unplaced .ifWord "IF"
    let closing : Token := .unplaced .endIf "ENDIF"
    let first := [name "x", closing, .unplaced .endOfFile ""]
    let second := [name "y"]
    let chain := opening ::
      (first ++ .unplaced .elseIf "ELSEIF" :: (second ++ [closing]))
    let tree :=
      [Stmt.conditional (value "x") block
        (nestedArms none [(value "y", block)]) place]
    ((readProgram (opening :: (first ++ [closing]))).reports = [] ∧
        (readProgram (opening :: (first ++ [closing]))).value.statements =
          [.conditional (value "x") block none place]) ∧
      ((readProgram (opening :: (second ++ [closing]))).reports = [] ∧
        (readProgram (opening :: (second ++ [closing]))).value.statements =
          [.conditional (value "y") block none place]) ∧
      ¬ Alike tree (readProgram chain).value.statements := by
  intro place name value block opening closing first second chain tree
  refine ⟨⟨by decide +kernel, by cbv⟩, ⟨by decide +kernel, by cbv⟩,
    fun alike => ?_⟩
  have statements :
      (readProgram chain).value.statements =
        [.conditional (value "x") block none place] := by
    cbv
  rw [statements] at alike
  cases alike

end

end Clipper
