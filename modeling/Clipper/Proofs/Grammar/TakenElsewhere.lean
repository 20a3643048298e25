import Clipper.Proofs.Grammar.AlikeReadings
import Clipper.Proofs.Grammar.CompoundReading

/-!
# What is read once is taken elsewhere

What a rule has read without a report, it takes wherever the same tokens stand,
with more levels left as well, and with another word behind them as long as both
close a block. The value is the same up to places.

This turns a reading, which is a fact about one state, into a contract about
tokens, which holds in any state that has them ahead.  The contract can be
used inside another program, where the arms of a conditional are put in a row.
The change of the word behind is allowed only where the word ends a block; for
instance, the block of an `IF` may end at `ENDIF` in one place and at `ELSEIF`
in the other.
-/

namespace Clipper

open Grammar Rule
open Relabelled (relabel)

section

variable {tokens between dropped after : List Token} {state next : State}

/--
What a rule reads from one state without reports, it takes from all states.
-/
theorem takes_of_reads
    {α : Type}
    [Relabelled α]
    {rule : Rule α}
    (together :
      ∀ past left right, (Seam.ofPast .blind past).Beside left right →
        left.rest ≠ [] →
        (Seam.ofPast .blind past).Together rule rule left right)
    {value : α}
    (reads : Reads rule state value next)
    (clean : state.reports = [])
    (ahead : state.rest ≠ [])
    (shape : state.rest = tokens ++ next.rest) :
    Takes rule tokens next.rest (Alike value) := by
  intro other calm sameRest
  have same :
      relabel .blind other =
        { relabel .blind state with
          reports := relabel .blind state.reports ++
            other.reports.map (relabel .blind) } := by
    ext1
    · exact congrArg (List.map (relabel .blind)) (sameRest.trans shape.symm)
    · rfl
    · rfl
    · rfl
    · rw [clean]
      rfl
    · exact calm.steady.trans reads.calm.steady.symm
    · exact calm.whole.trans reads.calm.whole.symm
  obtain ⟨values, beside⟩ :=
    together _ _ _ ((Seam.beside_ofPast _ _ _ _).mpr same) ahead (.inl rfl)
  have run : rule.run (relabel .blind other) =
      relabel .blind (rule.run other) :=
    (together [] _ _ ((Seam.beside_ofRelabelling .blind _ _).mpr rfl)
      (by rwa [sameRest, ← shape])).run_relabel
  rw [run, reads.run] at values beside
  generalize outcome : rule.run other = made at values beside
  have states := (Seam.beside_ofPast _ _ _ _).mp beside
  have within := rule.suffix other
  have reached := (rule.reaches other).reports_suffix
  rw [outcome] at within reached
  refine ⟨made.1, made.2, ⟨calm, outcome, ?_⟩, ?_, values⟩
  · have reports : made.2.reports.map (relabel .blind) = _ :=
      congrArg State.reports states
    refine (reached.eq_of_length ?_).symm
    have lengths := congrArg List.length reports
    change _ = (relabel Relabelling.blind next.reports ++ _).length at lengths
    rw [reads.quiet, clean] at lengths
    simpa using lengths.symm
  · have rests : made.2.rest.map (relabel .blind) =
        next.rest.map (relabel .blind) :=
      congrArg State.rest states
    have suffix : next.rest <:+ other.rest := ⟨tokens, sameRest.symm⟩
    have lengths : made.2.rest.length = next.rest.length := by
      simpa using congrArg List.length rests
    exact (List.suffix_of_suffix_length_le within suffix
      lengths.le).eq_of_length lengths

/-- An expression is taken with more levels, and before another word. -/
theorem takes_expression_of_reads
    {levels more : Nat}
    (le : levels ≤ more)
    {value : Expr}
    (reads : Reads (expression levels) state value next)
    (shape : state.rest = tokens ++ next.rest)
    (shapeNext : next.rest = between ++ dropped)
    (clear : EndsClear (tokens ++ between))
    (quiet : isQuiet (headKind after) = true) :
    Takes (expression more) tokens (between ++ after) (Alike value) := by
  let cut : Curtailment := ⟨dropped, after, false, fun _ => quiet⟩
  rw [shapeNext, ← List.append_assoc] at shape
  have reached : cut.Reached next.rest := .of_full rfl ⟨between, shapeNext.symm⟩
  obtain ⟨later, shapeLater, kept⟩ :=
    Curtailment.keeps_expression le reads shape reached clear
  have same : later = between :=
    List.append_cancel_right (shapeLater.symm.trans shapeNext)
  rw [same] at kept
  have taken := Curtailment.takes_expression kept
  exact takes_of_reads
    (fun past left right beside _ =>
      Seam.always_expression more left right beside) kept rfl
    (fun ended => by rw [ended] at taken; exact Nat.not_lt_zero _ taken)
    (List.append_assoc _ _ _)

/-- A block that is read is a sequence of items up to its closing word. -/
theorem lines_of_reads_blockOf
    {item : Rule (Option Stmt)}
    {closers : List TokenKind}
    {body : Block}
    (reads : Reads (blockOf item closers) state body next) :
    ∃ statements span,
      body = .of statements span ∧
        Reads (sequence (endsBlock closers) item) state statements next := by
  rw [blockOf, reads_ask_bind] at reads
  obtain ⟨statements, middle, lines, ended⟩ := reads_bind.mp reads
  rw [reads_recovered_bind, spanFrom, reads_ask_bind, reads_pure] at ended
  obtain ⟨-, rfl, rfl⟩ := ended
  exact ⟨statements, _, rfl, lines⟩

/-- A sequence of items that is read up to a closing word is read as a block. -/
theorem reads_blockOf_of_lines
    {item : Rule (Option Stmt)}
    {closers : List TokenKind}
    {statements : List Stmt}
    (lines : Reads (sequence (endsBlock closers) item) state statements next) :
    ∃ span, Reads (blockOf item closers) state (.of statements span) next := by
  let span := Span.mk state.start (max next.reached state.start)
  refine ⟨span.mergeAll (statements.map Stmt.span), ?_⟩
  rw [blockOf, reads_ask_bind]
  refine reads_bind.mpr ⟨statements, next, lines, ?_⟩
  rw [reads_recovered_bind, spanFrom, reads_ask_bind, reads_pure]
  exact ⟨lines.calm_next, rfl, rfl⟩

/-- A block is taken with more levels, and before any of its closing words. -/
theorem takes_blocks_of_reads
    {levels more : Nat}
    (le : levels ≤ more)
    {closers : List TokenKind}
    {body : Block}
    (reads : Reads (blocks levels closers) state body next)
    (shape : state.rest = tokens ++ next.rest)
    (words : ∀ kind ∈ closers, kind.isCloser = true)
    (closed : headKind after ∈ closers) :
    Takes (blocks more closers) tokens after (Alike body) := by
  have isWord := words _ closed
  obtain ⟨others, taken, phrased⟩ := sound_blocks levels closers _ _ _ reads
  have clear : EndsClear tokens := by
    rw [List.append_cancel_right (shape.symm.trans taken)]
    exact endsClear_block phrased
  cases levels with
  | zero => exact phrased.elim
  | succ levels =>
      obtain ⟨more, rfl⟩ :=
        Nat.exists_eq_add_of_le' (Nat.le_trans (Nat.succ_pos levels) le)
      obtain ⟨statements, span, rfl, lines⟩ := lines_of_reads_blockOf reads
      let cut : Curtailment := ⟨next.rest, after, false, fun _ => by
        rw [isQuiet, isWord, Bool.or_true]⟩
      have reached : cut.Reached next.rest := .of_full rfl (List.suffix_refl _)
      obtain ⟨later, shapeLater, kept⟩ :=
        Curtailment.keeps_lines (Nat.le_of_succ_le_succ le) words closed lines
          shape reached clear
      have none : later = [] := List.self_eq_append_left.mp shapeLater
      rw [none] at kept
      obtain ⟨span, block⟩ := reads_blockOf_of_lines kept
      refine (takes_of_reads ?_ block rfl ?_ rfl).mono fun made alike => ?_
      · intro past left right beside _
        exact Seam.always_blockOf SeamKind.noConfusion
          (Seam.together_statement SeamKind.noConfusion more) closers left
            right beside
      · intro ended
        have none : after = [] := (List.append_eq_nil_iff.mp ended).2
        rw [none] at isWord
        cases isWord
      · exact alike.trans (Alike.block rfl _ _)

/-- The closing words of the block of an arm. -/
def armClosers : List TokenKind :=
  [.elseIf, .elseWord, .endIf]

/--
An arm is taken with more levels, and
before any of the words that end its block.
-/
theorem takes_arm_of_reads
    {levels more : Nat}
    (le : levels ≤ more)
    {start : Nat}
    {made : Arm}
    (reads : Reads (arm (expression levels) (blocks levels) start)
      state made next)
    (shape : state.rest = tokens ++ next.rest)
    (closed : headKind after ∈ armClosers)
    (begun : Nat) :
    Takes (arm (expression more) (blocks more) begun) tokens after
      (fun read => Alike made.condition read.condition ∧
        Alike made.block read.block) := by
  have words : ∀ kind ∈ armClosers, kind.isCloser = true ∧
      kind ≠ .thenWord := by decide
  obtain ⟨condition, atThen, readCondition, afterCondition⟩ :=
    reads_bind.mp reads
  obtain ⟨hasThen, atBlock, ate, afterThen⟩ := reads_bind.mp afterCondition
  obtain ⟨positive, atEnd, readBlock, ended⟩ := reads_bind.mp afterThen
  obtain ⟨-, rfl, rfl⟩ := reads_pure.mp ended
  obtain ⟨first, firstTaken, conditions⟩ :=
    sound_expression levels _ _ _ readCondition
  obtain ⟨thens, thensTaken, phrasedThen⟩ := sound_eat (by decide) _ _ _ ate
  obtain ⟨inner, innerTaken, positives⟩ := sound_blocks levels _ _ _ _ readBlock
  have same : tokens = first ++ (thens ++ inner) := by
    rw [firstTaken, thensTaken, innerTaken, ← List.append_assoc,
      ← List.append_assoc] at shape
    exact (List.append_cancel_right shape).symm.trans (List.append_assoc _ _ _)
  have clear : EndsClear (first ++ (thens ++ inner)) :=
    (closes_expression levels conditions).2.append
      ((endsClear_optionalToken (by decide) phrasedThen).append
        (endsClear_block positives))
  have quiet : isQuiet (headKind after) = true := by
    rw [isQuiet, (words _ closed).1, Bool.or_true]
  have takesThen : Takes (eat .thenWord) thens (inner ++ after)
      (fun _ => True) := by
    cases phrasedThen with
    | present isThen =>
        exact (takes_eat (List.mem_singleton.mp isThen)).mono fun _ _ => trivial
    | absent =>
        refine (takes_eat_of_ne ?_).mono fun _ _ => trivial
        cases inner with
        | nil => exact (words _ closed).2
        | cons token inner =>
            obtain ⟨-, ⟨-, impossible, -⟩ | ⟨other, -, rfl⟩⟩ := reads_eat.mp ate
            · cases impossible
            · rwa [State.kind_of_rest innerTaken] at other
  rw [same]
  have takesCondition : Takes (expression more) first (thens ++ inner ++ after)
      (Alike condition) :=
    takes_expression_of_reads le readCondition firstTaken
      (thensTaken.trans (by rw [innerTaken, List.append_assoc])) clear quiet
  have takesBlock : Takes (blocks more armClosers) inner after
      (Alike positive) :=
    takes_blocks_of_reads le readBlock innerTaken
      (fun kind among => (words kind among).1) closed
  refine takesCondition.bind fun read alikeCondition =>
    takesThen.bind fun _ _ => ?_
  exact takesBlock.bind_last fun made alikeBlock =>
    takes_pure ⟨alikeCondition, alikeBlock⟩

end

end Clipper
