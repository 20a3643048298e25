import Mathlib.Algebra.Order.Ring.Nat
import Mathlib.Data.List.Chain
import Clipper.Proofs.Directive.RemovedLines

/-!
# Runs of kept lines

What is left of a text are the lines that are not removed, one after the other.
Its segments are the runs of such lines, each as long as it can be.  It holds no
directive: it is cut into the lines that were kept, and all of them are kept
again.

A run is described without the walk that finds it: it is a part of the marked
lines, all of them kept, with no kept line next to it on either side.  The
segments then stand for the runs one by one, in order, and each holds the
offsets of its run in both texts.  That the text left over is cut into the
kept lines again needs that every line but the last ends in its line feed.
-/

namespace Clipper.Directive

open Source

/-! ## Runs -/

/--
Kept lines one after the other, with no
kept line directly before or behind them.
-/
structure IsRun (lines before run after : List Line) : Prop where
  split : lines = before ++ (run ++ after)
  nonempty : run ≠ []
  kept : ∀ line ∈ run, line.kept = true
  opens : ∀ line ∈ before.getLast?, line.kept = false
  closes : ∀ line ∈ after.head?, line.kept = false

namespace IsRun

variable {lines rest before run after : List Line}

theorem not_nil : ¬IsRun [] before run after := by
  intro isRun
  have none := List.append_eq_nil_iff.mp isRun.split.symm
  exact isRun.nonempty (List.append_eq_nil_iff.mp none.2).1

/-- A removed line stands before every run. -/
theorem cons_removed_iff
    {line : Line}
    (removed : line.kept = false) :
    IsRun (line :: rest) before run after ↔
      ∃ more, before = line :: more ∧ IsRun rest more run after := by
  constructor
  · rintro ⟨split, nonempty, kept, opens, closes⟩
    cases before with
    | nil =>
        cases run with
        | nil => exact absurd rfl nonempty
        | cons first run =>
            rw [List.nil_append, List.cons_append] at split
            have isKept := kept first List.mem_cons_self
            rw [← (List.cons.inj split).1, removed] at isKept
            cases isKept
    | cons first more =>
        obtain ⟨rfl, later⟩ := List.cons.inj split
        refine ⟨more, rfl, later, nonempty, kept, fun last isLast => ?_, closes⟩
        refine opens last ?_
        rw [List.getLast?_cons, Option.mem_def.mp isLast]
        rfl
  · rintro ⟨more, rfl, split, nonempty, kept, opens, closes⟩
    refine ⟨congrArg (line :: ·) split, nonempty, kept, fun last isLast =>
      ?_, closes⟩
    rw [List.getLast?_cons] at isLast
    cases shape : more.getLast? with
    | none =>
        rw [shape] at isLast
        obtain rfl : line = last := Option.some.inj isLast
        exact removed
    | some other =>
        rw [shape] at isLast
        obtain rfl : other = last := Option.some.inj isLast
        exact opens other shape

/--
A run that stands first is the first one;
what runs behind it runs behind its end.
-/
theorem append_kept_iff
    {first : List Line}
    (nonempty : first ≠ [])
    (kept : ∀ line ∈ first, line.kept = true)
    (closes : ∀ line ∈ rest.head?, line.kept = false) :
    IsRun (first ++ rest) before run after ↔
      (before = [] ∧ run = first ∧ after = rest) ∨
        ∃ more, before = first ++ more ∧ IsRun rest more run after := by
  constructor
  · intro isRun
    rcases List.eq_nil_or_concat before with rfl | ⟨early, last, rfl⟩
    · have split : first ++ rest = run ++ after := isRun.split
      have own := takeWhile_dropWhile_iff.mpr ⟨split, isRun.kept, isRun.closes⟩
      have given := takeWhile_dropWhile_iff.mpr ⟨rfl, kept, closes⟩
      exact .inl ⟨rfl, own.1.symm.trans given.1, own.2.symm.trans given.2⟩
    · -- The line before the run is removed, so it is none of the first ones.
      refine .inr ?_
      have split := isRun.split
      have removed := isRun.opens last
          (by rw [List.concat_eq_append, List.getLast?_concat]; rfl)
      rw [List.concat_eq_append, List.append_assoc] at split
      rcases List.append_eq_append_iff.mp split
        with ⟨more, rfl, shape⟩ | ⟨more, rfl, shape⟩
      · refine ⟨more ++ [last], ?_, ?_, isRun.nonempty, isRun.kept, ?_,
          isRun.closes⟩
        · rw [List.concat_eq_append, List.append_assoc]
        · rw [shape, List.append_assoc]
        · intro line isLast
          rw [List.getLast?_concat] at isLast
          obtain rfl : last = line := Option.some.inj isLast
          exact removed
      · cases more with
        | nil =>
            refine ⟨[last], ?_, shape.symm, isRun.nonempty, isRun.kept, ?_,
              isRun.closes⟩
            · rw [List.concat_eq_append, List.append_nil]
            · intro line isLast
              obtain rfl : last = line := Option.some.inj isLast
              exact removed
        | cons other more =>
            obtain ⟨rfl, -⟩ := List.cons.inj shape
            have isKept := kept last
                (List.mem_append_right early List.mem_cons_self)
            rw [removed] at isKept
            cases isKept
  · rintro (⟨rfl, rfl, rfl⟩ | ⟨more, rfl, isRun⟩)
    · exact ⟨rfl, nonempty, kept, fun _ none => (nomatch none), closes⟩
    · refine ⟨?_, isRun.nonempty, isRun.kept, fun line isLast =>
        ?_, isRun.closes⟩
      · rw [isRun.split, List.append_assoc]
      · cases more with
        | nil =>
            -- The next run does not begin where the first one ends.
            obtain ⟨next, others, shape⟩ :=
              List.exists_cons_of_ne_nil isRun.nonempty
            have isKept := isRun.kept next (shape ▸ List.mem_cons_self)
            rw [closes next (by rw [isRun.split, shape]; rfl)] at isKept
            cases isKept
        | cons other more =>
            refine isRun.opens line ?_
            rw [List.getLast?_append, List.getLast?_cons, Option.some_or]
              at isLast
            rwa [List.getLast?_cons]

end IsRun

/--
Lines are gone through one removed line,
or one run of kept lines, after the other.
-/
@[elab_as_elim]
theorem runs_induction
    {motive : List Line → Prop}
    (none : motive [])
    (gap : ∀ line rest, line.kept = false → motive rest → motive (line :: rest))
    (run : ∀ first rest, first ≠ [] → (∀ line ∈ first, line.kept = true) →
      (∀ line ∈ rest.head?, line.kept = false) → motive rest →
      motive (first ++ rest))
    (lines : List Line) :
    motive lines := by
  induction size : lines.length using Nat.strongRecOn generalizing lines with
  | ind length hypothesis =>
      subst size
      cases lines with
      | nil => exact none
      | cons line rest =>
          cases kept : line.kept with
          | false =>
              exact gap line rest kept
                (hypothesis _ (Nat.lt_succ_self _) rest rfl)
          | true =>
              have cut : (line :: rest).takeWhile Line.kept =
                  line :: rest.takeWhile Line.kept ∧
                  (line :: rest).dropWhile Line.kept =
                    rest.dropWhile Line.kept :=
                ⟨List.takeWhile_cons_of_pos kept,
                  List.dropWhile_cons_of_pos kept⟩
              obtain ⟨whole, allKept, closes⟩ := takeWhile_dropWhile_iff.mp cut
              have shorter :=
                (List.dropWhile_suffix Line.kept (l := rest)).length_le
              rw [whole]
              refine run _ _ (List.cons_ne_nil _ _) allKept closes
                (hypothesis _ ?_ _ rfl)
              exact Nat.lt_succ_of_le shorter

/-! ## Segments -/

/-- A segment of kept lines, for lines that begin at the two given offsets. -/
def segmentOf
    (filtered original : Nat)
    (before run : List Line) :
    Segment :=
  ⟨filtered + byteWidth (keptText before), original + widthOf before,
    widthOf run⟩

theorem segmentsFrom_removed
    {line : Line}
    (removed : line.kept = false)
    (filtered original : Nat)
    (rest : List Line) :
    segmentsFrom filtered original (line :: rest) =
      segmentsFrom filtered (original + byteWidth line.text) rest := by
  simp [segmentsFrom, removed]

/-- Lines from a removed one on have no segment at their beginning. -/
theorem original_lt_of_segmentsFrom
    {rest : List Line}
    {segments : List Segment}
    {segment : Segment}
    {filtered original : Nat}
    (texts : ∀ line ∈ rest, line.text ≠ [])
    (closes : ∀ line ∈ rest.head?, line.kept = false)
    (shape : segmentsFrom filtered original rest = segment :: segments) :
    original < segment.original := by
  cases rest with
  | nil => cases shape
  | cons line rest =>
      rw [segmentsFrom_removed (closes line rfl)] at shape
      have laid := laid_segmentsFrom filtered
          (original + byteWidth line.text) rest
      rw [shape] at laid
      have wide := byteWidth_pos (texts line List.mem_cons_self)
      have after := laid.2.1
      omega

/--
A run of kept lines is one segment.  The segment goes on through the whole
run, and the line that closes the run, if there is one, begins the rest.
-/
theorem segmentsFrom_run
    {run rest : List Line}
    (nonempty : run ≠ [])
    (kept : ∀ line ∈ run, line.kept = true)
    (texts : ∀ line ∈ rest, line.text ≠ [])
    (closes : ∀ line ∈ rest.head?, line.kept = false)
    (filtered original : Nat) :
    segmentsFrom filtered original (run ++ rest) =
      ⟨filtered, original, widthOf run⟩ ::
        segmentsFrom (filtered + widthOf run)
          (original + widthOf run) rest := by
  induction run generalizing filtered original with
  | nil => exact absurd rfl nonempty
  | cons line run hypothesis =>
      rw [List.cons_append, segmentsFrom, if_pos (kept line List.mem_cons_self)]
      cases run with
      | nil =>
          rw [List.nil_append]
          have width : widthOf [line] = byteWidth line.text := by
            rw [widthOf_cons]
            rfl
          rw [width]
          split
          · next none => rw [none]
          · next segment others shape =>
              have after := original_lt_of_segmentsFrom texts closes shape
              rw [if_neg (Nat.ne_of_gt after), shape]
      | cons next run =>
          have later := fun other member =>
              kept other (List.mem_cons_of_mem line member)
          rw [hypothesis (List.cons_ne_nil _ _) later]
          dsimp only
          rw [if_pos rfl, widthOf_cons line, Nat.add_assoc, Nat.add_assoc]

/-- The segments are the runs of kept lines. -/
theorem mem_segmentsFrom_iff
    {lines : List Line}
    (texts : ∀ line ∈ lines, line.text ≠ [])
    (filtered original : Nat)
    (segment : Segment) :
    segment ∈ segmentsFrom filtered original lines ↔
      ∃ before run after, IsRun lines before run after ∧
        segment = segmentOf filtered original before run := by
  induction lines using runs_induction generalizing filtered original with
  | none =>
      refine ⟨fun member => (nomatch member), ?_⟩
      rintro ⟨before, run, after, isRun, -⟩
      exact absurd isRun IsRun.not_nil
  | gap line rest removed hypothesis =>
      have onRest := hypothesis
        (fun other member => texts other (List.mem_cons_of_mem line member))
        filtered (original + byteWidth line.text)
      rw [segmentsFrom_removed removed, onRest]
      have place (more run : List Line) :
          segmentOf filtered original (line :: more) run =
            segmentOf filtered (original + byteWidth line.text) more run := by
        rw [segmentOf, segmentOf, byteWidth_keptText_cons, removed,
          widthOf_cons, Nat.add_assoc]
        simp
      constructor
      · rintro ⟨more, run, after, isRun, rfl⟩
        exact ⟨line :: more, run, after,
          (IsRun.cons_removed_iff removed).mpr ⟨more, rfl, isRun⟩,
          (place more run).symm⟩
      · rintro ⟨before, run, after, isRun, rfl⟩
        obtain ⟨more, rfl, onMore⟩ := (IsRun.cons_removed_iff removed).mp isRun
        exact ⟨more, run, after, onMore, place more run⟩
  | run first rest nonempty kept closes hypothesis =>
      have textsOfRest : ∀ line ∈ rest, line.text ≠ [] :=
        fun line member => texts line (List.mem_append_right first member)
      have onRest := hypothesis textsOfRest (filtered + widthOf first)
          (original + widthOf first)
      rw [segmentsFrom_run nonempty kept textsOfRest closes,
        List.mem_cons, onRest]
      have place (more run : List Line) :
          segmentOf filtered original (first ++ more) run =
            segmentOf (filtered + widthOf first) (original + widthOf first)
              more run := by
        have all : first.filter Line.kept = first :=
          List.filter_eq_self.mpr kept
        simp [segmentOf, keptText, widthOf, all, Nat.add_assoc]
      constructor
      · rintro (rfl | ⟨more, run, after, isRun, rfl⟩)
        · refine ⟨[], first, rest, ?_, rfl⟩
          exact (IsRun.append_kept_iff nonempty kept closes).mpr
            (.inl ⟨rfl, rfl, rfl⟩)
        · refine ⟨first ++ more, run, after, ?_, (place more run).symm⟩
          exact (IsRun.append_kept_iff nonempty kept closes).mpr
            (.inr ⟨more, rfl, isRun⟩)
      · rintro ⟨before, run, after, isRun, rfl⟩
        rcases (IsRun.append_kept_iff nonempty kept closes).mp isRun with
          ⟨rfl, rfl, rfl⟩ | ⟨more, rfl, onMore⟩
        · exact .inl rfl
        · exact .inr ⟨more, run, after, onMore, place more run⟩

/--
Segments of a text of some width, one after the other: they are the whole of it,
and between any two of them something of the source text is left out.
-/
structure Tile (segments : List Segment) (width : Nat) : Prop where
  begins : ∀ first ∈ segments.head?, first.filtered = 0
  next : segments.IsChain (fun earlier later =>
    later.filtered = earlier.filtered + earlier.length ∧
      earlier.original + earlier.length < later.original)
  whole : (segments.map Segment.length).sum = width

namespace Laid

variable {filteredEnd originalEnd filtered original : Nat}
    {segments : List Segment}

/--
Segments that are laid out follow each other without a break in the filtered
text, and with a break in the source text.
-/
theorem isChain
    (laid : Laid filteredEnd originalEnd filtered original segments) :
    segments.IsChain (fun earlier later =>
      later.filtered = earlier.filtered + earlier.length ∧
        earlier.original + earlier.length < later.original) := by
  induction segments generalizing filtered original with
  | nil => exact .nil
  | cons first rest hypothesis =>
      rcases laid with ⟨begins, -, -, later⟩
      cases rest with
      | nil => exact .singleton first
      | cons second others =>
          refine .cons_cons ⟨?_, later.2.1⟩ (hypothesis later)
          rw [later.1, begins]

theorem sum_length
    (laid : Laid filteredEnd originalEnd filtered original segments) :
    filtered + (segments.map Segment.length).sum = filteredEnd := by
  induction segments generalizing filtered original with
  | nil => exact laid
  | cons first rest hypothesis =>
      rw [List.map_cons, List.sum_cons, ← Nat.add_assoc]
      exact hypothesis laid.2.2.2

theorem tile (laid : Laid filteredEnd originalEnd 0 original segments) :
    Tile segments filteredEnd := by
  refine ⟨fun first isFirst => ?_, laid.isChain, ?_⟩
  · cases segments with
    | nil => cases isFirst
    | cons other rest =>
        obtain rfl : other = first := Option.some.inj isFirst
        exact laid.1
  · rw [← laid.sum_length, Nat.zero_add]

end Laid

/-! ## What is left -/

/-- Lines none of which opens a directive are all kept. -/
theorem markFrom_of_opens_none
    {texts : List (List Char)}
    (none : ∀ text ∈ texts, opensDirective text = false) :
    markFrom false texts = texts.map (⟨·, true⟩) := by
  induction texts with
  | nil => rfl
  | cons text rest hypothesis =>
      rw [markFrom_cons, none text List.mem_cons_self, List.map_cons]
      refine congrArg _ (hypothesis fun other member => ?_)
      exact none other (List.mem_cons_of_mem text member)

/-- The lines of a text without its directives are the lines that were kept. -/
theorem mark_keptText (source : List Char) :
    mark (keptText (mark source)) = (mark source).filter Line.kept := by
  have texts : (mark source).map Line.text = lines source :=
    map_text_markFrom false _
  have areLines : AreLines (((mark source).filter Line.kept).map Line.text) :=
    (areLines_lines source).sublist (texts ▸ List.filter_sublist.map Line.text)
  have none : ∀ text ∈ ((mark source).filter Line.kept).map Line.text,
      opensDirective text = false := by
    intro text member
    obtain ⟨line, isKept, rfl⟩ := List.mem_map.mp member
    obtain ⟨isLine, kept⟩ := List.mem_filter.mp isKept
    obtain ⟨before, after, split⟩ := List.append_of_mem isLine
    refine Bool.eq_false_iff.mpr fun opens => ?_
    rw [(kept_markFrom_iff split).mpr (.inl opens)] at kept
    cases kept
  rw [mark, keptText, List.flatMap_def, areLines.lines_flatten,
    markFrom_of_opens_none none, List.map_map]
  refine (List.map_congr_left fun line member => ?_).trans (List.map_id _)
  exact congrArg (Line.mk line.text) (List.mem_filter.mp member).2.symm

/--
A text without its directives is what is left of its lines when those are
removed that begin with a directive or go on with one; its segments are the
longest runs of the other lines, each with the places where it stood and stands,
one after the other.  Of what is left, nothing is removed.
-/
theorem ofSource_keepsRuns (source : List Char) :
    (((mark source).map Line.text).flatten = source ∧
        AreLines ((mark source).map Line.text)) ∧
      (∀ before line after, mark source = before ++ line :: after →
        (line.kept = false ↔
          BeginsDirective line.text ∨
            ∃ earlier ∈ before.getLast?, earlier.kept = false ∧
              EndsInSemicolon earlier.text)) ∧
      (Filtered.ofSource source).text =
        (((mark source).filter Line.kept).map Line.text).flatten ∧
      (∀ segment, segment ∈ (Filtered.ofSource source).segments ↔
        ∃ before run after, IsRun (mark source) before run after ∧
          segment = ⟨byteWidth (keptText before), widthOf before,
            widthOf run⟩) ∧
      Tile (Filtered.ofSource source).segments
        (byteWidth (Filtered.ofSource source).text) ∧
      (Filtered.ofSource (Filtered.ofSource source).text).text =
        (Filtered.ofSource source).text ∧
      ∀ line ∈ mark (Filtered.ofSource source).text, line.kept = true := by
  have texts : (mark source).map Line.text = lines source :=
    map_text_markFrom false _
  have again : mark (Filtered.ofSource source).text =
      (mark source).filter Line.kept :=
    mark_keptText source
  have nonempty : ∀ line ∈ mark source, line.text ≠ [] := fun line member =>
    (areLines_lines source).nonempty _ (texts ▸ List.mem_map_of_mem member)
  refine ⟨⟨?_, ?_⟩, fun before line after split =>
    ?_, List.flatMap_def, fun segment => ?_,
      (Filtered.laid_ofSource source).tile, ?_, fun line member => ?_⟩
  · rw [texts, flatten_lines]
  · rw [texts]
    exact areLines_lines source
  · rw [kept_markFrom_iff split, opensDirective_iff]
    simp only [Bool.false_eq_true, and_false, false_or, isContinued_iff]
  · have runs := mem_segmentsFrom_iff nonempty 0 0 segment
    simp only [segmentOf, Nat.zero_add] at runs
    exact runs
  · change keptText (mark (Filtered.ofSource source).text) =
      keptText (mark source)
    rw [again, keptText, List.filter_filter, keptText]
    simp
  · rw [again] at member
    exact (List.mem_filter.mp member).2

/-- The line behind a directive that goes on is removed with it. -/
example :
    (Filtered.ofSource "a\n#define b;\nc\nd".toList).segments =
      [⟨0, 0, 2⟩, ⟨2, 15, 1⟩] := by
  decide +kernel

end Clipper.Directive
