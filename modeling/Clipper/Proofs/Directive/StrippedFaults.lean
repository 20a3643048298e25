import Clipper.Proofs.Directive.Lines
import Clipper.Proofs.Lexeme.BrokenOff

/-!
# Faults of a text without its directives

A directive is a line, wherever it stands, and it may go on over further lines;
a block comment may go on over many lines too.  So the lines that are removed
together may hold the end of a comment without its opening, or its opening
without its end, and then the text without them is cut in another way.

A longest run of removed lines, a gap, does no harm if it leaves comments as
they are: behind it a comment is open if and only if one is open before it.  It
may well hold a whole comment, over several lines, or end one comment and open
another.  If all gaps of a text are such, a text without faults has none when
its directives are removed: the kept lines have the faults that they had before.

The proof goes through the lines and keeps two texts side by side, the lines so
far and those of them that were kept.  Both are settled, and at each kept line
both break off within a comment, or neither does.
-/

namespace Clipper

open Lexeme Source

namespace Directive

/-! ## Gaps -/

/--
A gap: a longest run of removed lines, with the lines before and behind it.
-/
structure IsGap (lines before gap after : List Line) : Prop where
  split : lines = before ++ (gap ++ after)
  nonempty : gap ≠ []
  removed : ∀ line ∈ gap, line.kept = false
  opens : ∀ line ∈ before.getLast?, line.kept = true
  closes : ∀ line ∈ after.head?, line.kept = true

/--
Whether at each kept line, and at the end, a comment is open if and only if one
was open behind the kept line before.
-/
def gapsLevel (inComment : Bool) (done : List Char) : List Line → Bool
  | [] => breaksOff done == inComment
  | line :: rest =>
      if line.kept then
        breaksOff done == inComment &&
          gapsLevel (breaksOff (done ++ line.text)) (done ++ line.text) rest
      else gapsLevel inComment (done ++ line.text) rest

/-- Lines that are removed leave the question to what stands behind them. -/
theorem gapsLevel_removed
    {gap : List Line}
    (removed : ∀ line ∈ gap, line.kept = false)
    (inComment : Bool)
    (done : List Char)
    (rest : List Line) :
    gapsLevel inComment done (gap ++ rest) =
      gapsLevel inComment (done ++ gap.flatMap Line.text) rest := by
  induction gap generalizing done with
  | nil => rw [List.nil_append, List.flatMap_nil, List.append_nil]
  | cons line gap hypothesis =>
      obtain ⟨isRemoved, others⟩ := List.forall_mem_cons.mp removed
      rw [List.cons_append, gapsLevel, isRemoved, if_neg Bool.false_ne_true,
        hypothesis others, List.flatMap_cons, List.append_assoc]

/-- The gap that is ahead leaves comments as they are. -/
theorem eq_of_gapsLevel
    {inComment : Bool}
    {done : List Char}
    {rest : List Line}
    (level : gapsLevel inComment done rest = true)
    (closes : ∀ line ∈ rest.head?, line.kept = true) :
    breaksOff done = inComment := by
  cases rest with
  | nil => exact eq_of_beq level
  | cons line rest =>
      rw [gapsLevel, if_pos (closes line rfl), Bool.and_eq_true] at level
      exact eq_of_beq level.1

/-- Behind a kept line the question is asked anew. -/
theorem gapsLevel_behind
    {before rest : List Line}
    (nonempty : before ≠ [])
    (opens : ∀ line ∈ before.getLast?, line.kept = true)
    {inComment : Bool}
    {done : List Char}
    (level : gapsLevel inComment done (before ++ rest) = true) :
    gapsLevel (breaksOff (done ++ before.flatMap Line.text))
      (done ++ before.flatMap Line.text) rest = true := by
  induction before generalizing done inComment with
  | nil => exact absurd rfl nonempty
  | cons line before hypothesis =>
      rw [List.cons_append, gapsLevel] at level
      rw [List.flatMap_cons, ← List.append_assoc]
      cases before with
      | nil =>
          rw [if_pos (opens line rfl), Bool.and_eq_true] at level
          rw [List.flatMap_nil, List.append_nil]
          exact level.2
      | cons next before =>
          rw [List.getLast?_cons_cons] at opens
          split at level
          · rw [Bool.and_eq_true] at level
            exact hypothesis (List.cons_ne_nil _ _) opens level.2
          · exact hypothesis (List.cons_ne_nil _ _) opens level

/-- Lines all of whose gaps leave comments as they are. -/
def LeavesComments (lines : List Line) : Prop :=
  ∀ before gap after, IsGap lines before gap after →
    breaksOff ((before ++ gap).flatMap Line.text) =
      breaksOff (before.flatMap Line.text)

/--
From any place on, the walk finds that the gaps leave comments as they are.
-/
theorem LeavesComments.gapsLevel
    {lines before gap rest : List Line}
    (leaves : LeavesComments lines)
    (split : lines = before ++ (gap ++ rest))
    (removed : ∀ line ∈ gap, line.kept = false)
    (opens : ∀ line ∈ before.getLast?, line.kept = true) :
    gapsLevel (breaksOff (before.flatMap Line.text))
      ((before ++ gap).flatMap Line.text) rest = true := by
  -- The gap ends where a kept line, or the end, is ahead.
  have whole (closes : ∀ line ∈ rest.head?, line.kept = true) :
      breaksOff ((before ++ gap).flatMap Line.text) =
        breaksOff (before.flatMap Line.text) := by
    by_cases empty : gap = []
    · rw [empty, List.append_nil]
    · exact leaves before gap rest ⟨split, empty, removed, opens, closes⟩
  induction rest generalizing before gap with
  | nil => exact beq_iff_eq.mpr (whole nofun)
  | cons line rest hypothesis =>
      have texts (passed : List Line) :
          (passed ++ [line]).flatMap Line.text = passed.flatMap Line.text ++
            line.text := by
        rw [List.flatMap_append, List.flatMap_singleton]
      rw [Directive.gapsLevel, ← texts]
      cases isKept : line.kept with
      | true =>
          have level := whole fun other isFirst =>
              Option.some.inj isFirst ▸ isKept
          have splitHere : lines = (before ++ gap ++ [line]) ++
              ([] ++ rest) := by
            rw [split]
            simp
          have opensHere : ∀ last ∈ (before ++ gap ++ [line]).getLast?,
              last.kept = true := by
            intro last isLast
            rw [List.getLast?_concat] at isLast
            exact Option.some.inj isLast ▸ isKept
          have onward := hypothesis splitHere nofun opensHere
          rw [List.append_nil] at onward
          rw [if_pos rfl, level, beq_self_eq_true, Bool.true_and]
          exact onward fun closes => rfl
      | false =>
          have splitHere : lines = before ++ ((gap ++ [line]) ++ rest) := by
            rw [split]
            simp
          have removedHere : ∀ other ∈ gap ++ [line], other.kept = false := by
            rw [List.forall_mem_append, List.forall_mem_singleton]
            exact ⟨removed, isKept⟩
          rw [if_neg Bool.false_ne_true, List.append_assoc]
          refine hypothesis splitHere removedHere opens fun closes => ?_
          exact leaves before _ rest
            ⟨splitHere, by simp, removedHere, opens, closes⟩

/--
The walk through the lines decides whether all gaps leave comments as they are.
-/
theorem gapsLevel_iff (lines : List Line) :
    gapsLevel (breaksOff []) [] lines = true ↔ LeavesComments lines := by
  constructor
  · intro level before gap after isGap
    have behind : Directive.gapsLevel (breaksOff (before.flatMap Line.text))
        (before.flatMap Line.text) (gap ++ after) = true := by
      rw [isGap.split] at level
      by_cases empty : before = []
      · rwa [empty] at level ⊢
      · exact gapsLevel_behind empty isGap.opens level
    rw [gapsLevel_removed isGap.removed] at behind
    rw [List.flatMap_append]
    exact eq_of_gapsLevel behind isGap.closes
  · intro leaves
    have split : lines = [] ++ ([] ++ lines) := rfl
    exact leaves.gapsLevel split nofun nofun

instance (lines : List Line) : Decidable (LeavesComments lines) :=
  decidable_of_iff _ (gapsLevel_iff lines)

/-! ## Settled texts -/

/-- A text has no other fault than a comment within which it breaks off. -/
def Settled (text : List Char) : Prop :=
  causes (all text) = Scanner.openCause (breaksOff text)

/-- A text ends with a line, or it is empty. -/
def EndsLine (text : List Char) : Prop :=
  text = [] ∨ text.getLast? = some '\n'

variable {text other : List Char}

theorem settled_of_clean (clean : causes (all text) = []) : Settled text := by
  rw [Settled, breaksOff, clean]
  rfl

/-- A settled text that does not break off has no fault. -/
theorem Settled.clean
    (settled : Settled text)
    (whole : breaksOff text = false) :
    causes (all text) = [] := by
  rw [settled, whole]
  rfl

/-- What begins a settled text is settled. -/
theorem Settled.of_append
    {more : List Char}
    (ends : EndsLine text)
    (settled : Settled (text ++ more)) :
    Settled text := by
  obtain ⟨found, noComment, own, onward⟩ := causes_append_line ends
  have none : found = [] := by
    refine List.eq_nil_iff_forall_not_mem.mpr fun cause member => noComment ?_
    have among : cause ∈ causes (all (text ++ more)) := by
      rw [onward]
      exact List.mem_append_left _ member
    rw [settled, Scanner.openCause] at among
    split at among
    · rwa [List.mem_singleton.mp among] at member
    · cases among
  rw [Settled, own, none]
  rfl

/-- Behind settled texts that break off alike, more text has the same faults. -/
theorem causes_append_of_settled
    (ends : EndsLine text)
    (otherEnds : EndsLine other)
    (settled : Settled text)
    (otherSettled : Settled other)
    (same : breaksOff other = breaksOff text)
    (more : List Char) :
    causes (all (other ++ more)) = causes (all (text ++ more)) := by
  have behind {text : List Char} (ends : EndsLine text)
      (settled : Settled text) :
      causes (all (text ++ more)) =
        causes (all (Scanner.reopening (breaksOff text) ++ more)) := by
    obtain ⟨found, -, own, onward⟩ := causes_append_line ends
    have none : found = [] := by
      rw [settled, eq_comm, List.append_left_eq_self] at own
      exact own
    rw [onward, none]
    rfl
  rw [behind otherEnds otherSettled, behind ends settled, same]

/-! ## Removing lines -/

/--
A text and what was kept of it: both are
settled, and both break off or none does.
-/
structure InStep (text kept : List Char) : Prop where
  settled : Settled text
  keptSettled : Settled kept
  same : breaksOff kept = breaksOff text

/-- Text that is added to both goes on in both. -/
theorem InStep.add
    {kept added : List Char}
    (inStep : InStep text kept)
    (ends : EndsLine text)
    (keptEnds : EndsLine kept)
    (settled : Settled (text ++ added)) :
    InStep (text ++ added) (kept ++ added) := by
  have alike := causes_append_of_settled ends keptEnds inStep.settled
    inStep.keptSettled
    inStep.same added
  have same : breaksOff (kept ++ added) = breaksOff (text ++ added) := by
    rw [breaksOff, breaksOff, alike]
  refine ⟨settled, ?_, same⟩
  rw [Settled, alike, settled, same]

theorem EndsLine.add
    {line : List Char}
    (lineEnds : line.getLast? = some '\n')
    (text : List Char) :
    EndsLine (text ++ line) := by
  refine .inr ?_
  rw [List.getLast?_append, lineEnds]
  rfl

/--
A text without faults, and what was kept of it so far: both
are settled, and the kept text breaks off like the text behind
the last kept line.  If the lines that are ahead have gaps
that leave comments as they are, the kept text becomes clean.
-/
theorem causes_keptText
    {done kept : List Char}
    {rest : List Line}
    (ends : rest ≠ [] → EndsLine done ∧ EndsLine kept)
    (lineEnds : rest.Pairwise (fun line _ => line.text.getLast? = some '\n'))
    (settled : Settled done)
    (keptSettled : Settled kept)
    (level : gapsLevel (breaksOff kept) done rest = true)
    (clean : causes (all (done ++ rest.flatMap Line.text)) = []) :
    causes (all (kept ++ keptText rest)) = [] := by
  induction rest generalizing done kept with
  | nil =>
      change causes (all (done ++ [])) = [] at clean
      change causes (all (kept ++ [])) = []
      rw [List.append_nil] at clean ⊢
      refine keptSettled.clean ?_
      rw [← eq_of_gapsLevel level nofun, breaksOff, clean]
      rfl
  | cons line rest hypothesis =>
      obtain ⟨doneEnds, keptEnds⟩ := ends (List.cons_ne_nil _ _)
      obtain ⟨lineEnd, restEnds⟩ := List.pairwise_cons.mp lineEnds
      rw [List.flatMap_cons, ← List.append_assoc] at clean
      have lineEnds (more : rest ≠ []) : line.text.getLast? = some '\n' := by
        obtain ⟨other, others, rfl⟩ := List.exists_cons_of_ne_nil more
        exact lineEnd other List.mem_cons_self
      have settledHere : Settled (done ++ line.text) := by
        by_cases more : rest = []
        · rw [more, List.flatMap_nil, List.append_nil] at clean
          exact settled_of_clean clean
        · exact (settled_of_clean clean).of_append (.add (lineEnds more) _)
      rw [keptText_cons, ← List.append_assoc]
      cases isKept : line.kept with
      | true =>
          have same : breaksOff done = breaksOff kept :=
            eq_of_gapsLevel level fun other isFirst =>
              Option.some.inj isFirst ▸ isKept
          have inStep : InStep (done ++ line.text) (kept ++ line.text) :=
            InStep.add ⟨settled, keptSettled, same.symm⟩ doneEnds
              keptEnds settledHere
          rw [gapsLevel, if_pos isKept, Bool.and_eq_true, ← inStep.same]
            at level
          rw [if_pos rfl]
          exact hypothesis (fun more =>
            ⟨.add (lineEnds more) _, .add (lineEnds more) _⟩)
              restEnds settledHere inStep.keptSettled level.2 clean
      | false =>
          rw [gapsLevel, isKept, if_neg Bool.false_ne_true] at level
          rw [if_neg Bool.false_ne_true, List.append_nil]
          exact hypothesis (fun more => ⟨.add (lineEnds more) _, keptEnds⟩)
            restEnds settledHere keptSettled level clean

end Directive

/--
Removing directives makes no lexical faults, as long as no gap opens or closes a
comment.

Let behind each longest run of removed lines a block comment be open if and only
if one is open before the run.  If the text has no lexical fault, neither has it
one without its directives.
-/
theorem faults_stripped
    (source : List Char)
    (level : Directive.LeavesComments (Directive.mark source))
    (clean : (Analysis.ofText false source).faults = []) :
    (Analysis.ofText true source).faults = [] := by
  have cleanText : causes (all source) = [] := (faults_eq_nil_iff _).mp clean
  have keptClean : causes (all (Directive.Filtered.ofSource source).text) =
      [] := by
    have settled : Directive.Settled [] :=
      Directive.settled_of_clean causes_all_nil
    refine Directive.causes_keptText (fun _ => ⟨.inl rfl, .inl rfl⟩)
      (Directive.pairwise_mark source) settled settled
      ((Directive.gapsLevel_iff _).mpr level) ?_
    rwa [List.nil_append, List.flatMap_def, Directive.mark,
      Directive.map_text_markFrom, Directive.flatten_lines]
  refine (faults_eq_nil_iff _).mpr ?_
  change causes ((all _).map _) = []
  rwa [causes, List.filterMap_map]

/-- A directive that goes on holds a whole comment, over both of its lines. -/
theorem faults_stripped_withinGap :
    let source := "#define X 1 /* a ;\nb */\nx = 1\n".toList
    Directive.LeavesComments (Directive.mark source) ∧
      (Analysis.ofText false source).faults = [] ∧
      (Analysis.ofText true source).faults = [] := by
  intro source
  have level : Directive.LeavesComments (Directive.mark source) := by
    decide +kernel
  have clean : (Analysis.ofText false source).faults = [] := by decide +kernel
  exact ⟨level, clean, faults_stripped source level clean⟩

/-- A directive that ends a comment leaves it without its end. -/
theorem faults_stripped_commentEnd :
    let source := "/*\n#define X */\n".toList
    (Analysis.ofText false source).faults = [] ∧
      (Analysis.ofText true source).faults = [(.openComment, ⟨0, 3⟩)] := by
  decide +kernel

end Clipper
