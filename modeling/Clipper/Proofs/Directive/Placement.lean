import Mathlib.Data.List.TakeWhile
import Clipper.Directive.Filtered
import Clipper.Proofs.Source.Containment
import Clipper.Proofs.Source.Width

/-!
# Placement of filtered text

The segments of a filtered text lie one after the other: without a break in the
filtered text, and with a break between any two in the source text.  Therefore a
span of the filtered text is placed inside the source text, and the end of the
filtered text at its end.

This holds of the segments that come from marked lines, and not of any list of
them; so it is proved along the walk over the lines.  `Laid` is what the walk
keeps: the segments so far lie in order, and end at or before the offsets that
the walk has reached in both texts.
-/

namespace Clipper.Directive

open Clipper.Source

/-! ## Lines -/

/--
The lines of a text, put together, are the text again.  So no byte is lost
when a text is cut into lines.
-/
theorem flatten_lines (source : List Char) :
    (lines source).flatten = source := by
  induction source with
  | nil => rfl
  | cons character rest hypothesis =>
      unfold lines
      split
      · rw [List.flatten_cons, hypothesis]
        rfl
      · split
        · next noLine =>
            rw [noLine] at hypothesis
            rw [← hypothesis]
            rfl
        · next line later shape =>
            rw [shape] at hypothesis
            rw [← hypothesis]
            rfl

/-- Marks leave the texts of lines as they are. -/
theorem map_text_markFrom
    (inside : Bool)
    (texts : List (List Char)) :
    (markFrom inside texts).map Line.text = texts := by
  induction texts generalizing inside with
  | nil => rfl
  | cons text rest hypothesis =>
      unfold markFrom
      split
      · rw [List.map_cons, hypothesis]
      · rw [List.map_cons, hypothesis]

/-- The number of bytes of some lines. -/
def widthOf (lines : List Line) : Nat :=
  byteWidth (lines.flatMap Line.text)

theorem widthOf_mark (source : List Char) :
    widthOf (mark source) = byteWidth source := by
  unfold widthOf mark
  rw [List.flatMap_def, map_text_markFrom, flatten_lines]

theorem widthOf_cons
    (line : Line)
    (rest : List Line) :
    widthOf (line :: rest) = byteWidth line.text + widthOf rest := by
  simp [widthOf]

theorem keptText_cons
    (line : Line)
    (rest : List Line) :
    keptText (line :: rest) = (if line.kept then line.text else []) ++
      keptText rest := by
  cases kept : line.kept <;> simp [keptText, kept]

theorem byteWidth_keptText_cons
    (line : Line)
    (rest : List Line) :
    byteWidth (keptText (line :: rest)) =
      (if line.kept then byteWidth line.text else 0) +
        byteWidth (keptText rest) := by
  cases kept : line.kept <;> simp [keptText, kept]

theorem byteWidth_keptText_le (lines : List Line) :
    byteWidth (keptText lines) ≤ widthOf lines := by
  induction lines with
  | nil => exact Nat.le_refl 0
  | cons line rest hypothesis =>
      rw [byteWidth_keptText_cons, widthOf_cons]
      split
      · omega
      · omega

/-! ## Segments -/

/--
Segments from two offsets on, up to the ends of the two
texts.  In the filtered text each begins where the one
before it ends; in the source text it begins later.
-/
def Laid
    (filteredEnd originalEnd : Nat)
    (filtered original : Nat) :
    List Segment → Prop
  | [] => filtered = filteredEnd
  | segment :: rest =>
      segment.filtered = filtered ∧
        original ≤ segment.original ∧
        segment.original + segment.length ≤ originalEnd ∧
        Laid filteredEnd originalEnd
          (filtered + segment.length)
          (segment.original + segment.length + 1) rest

namespace Laid

variable {filteredEnd originalEnd filtered original : Nat}
    {segments : List Segment}

/-- Segments that begin from an offset on begin from an earlier one on. -/
theorem earlier
    {before : Nat}
    (laid : Laid filteredEnd originalEnd filtered original segments)
    (order : before ≤ original) :
    Laid filteredEnd originalEnd filtered before segments := by
  cases segments with
  | nil => exact laid
  | cons segment rest =>
      rcases laid with ⟨begins, after, ends, later⟩
      exact ⟨begins, Nat.le_trans order after, ends, later⟩

theorem filtered_le
    (laid : Laid filteredEnd originalEnd filtered original segments) :
    filtered ≤ filteredEnd := by
  induction segments generalizing filtered original with
  | nil => exact Nat.le_of_eq laid
  | cons segment rest hypothesis =>
      have later := hypothesis laid.2.2.2
      omega

/-- No segment sticks out of the texts. -/
theorem within
    (laid : Laid filteredEnd originalEnd filtered original segments)
    {segment : Segment}
    (member : segment ∈ segments) :
    segment.filtered ≤ filteredEnd ∧ segment.original + segment.length ≤
      originalEnd := by
  induction segments generalizing filtered original with
  | nil => cases member
  | cons first rest hypothesis =>
      rcases laid with ⟨begins, -, ends, later⟩
      rcases List.mem_cons.mp member with rfl | isLater
      · have bound := later.filtered_le
        exact ⟨by omega, ends⟩
      · exact hypothesis later isLater

/-- The last segment ends with the filtered text. -/
theorem last
    (laid : Laid filteredEnd originalEnd filtered original segments)
    {segment : Segment}
    (isLast : segments.getLast? = some segment) :
    segment.filtered + segment.length = filteredEnd := by
  induction segments generalizing filtered original with
  | nil => cases isLast
  | cons first rest hypothesis =>
      rcases laid with ⟨begins, -, -, later⟩
      cases rest with
      | nil =>
          obtain rfl : first = segment := by simpa using isLast
          rw [begins]
          exact later
      | cons second others =>
          rw [List.getLast?_cons_cons] at isLast
          exact hypothesis later isLast

end Laid

/--
The segments of marked lines are laid out between the offsets at which
the walk begins and ends.  The induction is on the lines, with a case for
each step of the walk.
-/
theorem laid_segmentsFrom
    (filtered original : Nat)
    (lines : List Line) :
    Laid (filtered + byteWidth (keptText lines)) (original + widthOf lines)
      filtered original (segmentsFrom filtered original lines) := by
  induction lines generalizing filtered original with
  | nil => rfl
  | cons line rest hypothesis =>
      rw [byteWidth_keptText_cons, widthOf_cons]
      unfold segmentsFrom
      dsimp only
      split
      · have laid := hypothesis (filtered + byteWidth line.text)
            (original + byteWidth line.text)
        rw [Nat.add_assoc, Nat.add_assoc] at laid
        split
        · next noSegment =>
            rw [noSegment] at laid
            exact ⟨rfl, Nat.le_refl _, by dsimp only; omega, laid⟩
        · next segment later shape =>
            rw [shape] at laid
            rcases laid with ⟨begins, after, ends, laterLaid⟩
            split
            · next joins =>
                refine ⟨rfl, Nat.le_refl _, by dsimp only; omega, ?_⟩
                dsimp only
                rw [joins, Nat.add_assoc original, Nat.add_assoc filtered]
                  at laterLaid
                exact laterLaid
            · next apart =>
                refine ⟨rfl, Nat.le_refl _, by dsimp only; omega, begins, ?_,
                  ends, laterLaid⟩
                dsimp only
                omega
      · have laid := hypothesis filtered (original + byteWidth line.text)
        rw [Nat.zero_add]
        rw [Nat.add_assoc] at laid
        exact laid.earlier (Nat.le_add_right _ _)

/-! ## Placing spans -/

namespace Filtered

theorem laid_ofSource (source : List Char) :
    Laid (byteWidth (ofSource source).text) (ofSource source).sourceWidth 0 0
      (ofSource source).segments := by
  have laid := laid_segmentsFrom 0 0 (mark source)
  rwa [Nat.zero_add, Nat.zero_add, widthOf_mark] at laid

theorem byteWidth_text_le (source : List Char) :
    byteWidth (ofSource source).text ≤ byteWidth source := by
  have narrow := byteWidth_keptText_le (mark source)
  rwa [widthOf_mark] at narrow

/--
A segment places an offset inside the source text if it lies inside
the source text itself.
-/
theorem within?_le
    {filtered : Filtered}
    (inside : ∀ segment ∈ filtered.segments,
      segment.original + segment.length ≤ filtered.sourceWidth)
    {segment : Segment}
    (member : segment ∈ filtered.segments)
    {offset place : Nat}
    (placed : within? segment offset = some place) :
    place ≤ filtered.sourceWidth := by
  have bound := inside segment member
  unfold within? at placed
  split at placed
  · cases placed
    omega
  · cases placed

/-- What is found among the first segments lies in the source text. -/
theorem bind_within?_le
    {filtered : Filtered}
    (inside : ∀ segment ∈ filtered.segments,
      segment.original + segment.length ≤ filtered.sourceWidth)
    {test : Segment → Bool}
    {offset place : Nat}
    (placed :
      ((filtered.segments.takeWhile test).getLast?.bind (within? · offset)) =
        some place) :
    place ≤ filtered.sourceWidth := by
  rcases Option.bind_eq_some_iff.mp placed with ⟨segment, isLast, found⟩
  have member := (List.takeWhile_prefix test).subset
      (List.mem_of_getLast? isLast)
  exact within?_le inside member found

/-- A span of the filtered text is placed inside the source text. -/
theorem below_place
    (source : List Char)
    {span : Span}
    (inside : (SpanFamily.below (byteWidth (ofSource source).text)).span span) :
    (SpanFamily.below (byteWidth source)).span
      ((ofSource source).place span) := by
  have segmentsInside : ∀ segment ∈ (ofSource source).segments,
      segment.original + segment.length ≤ (ofSource source).sourceWidth :=
    fun segment member => ((laid_ofSource source).within member).2
  have family : (ofSource source).sourceWidth = byteWidth source := rfl
  unfold place
  cases placed : (ofSource source).place? span with
  | none =>
      have narrow := byteWidth_text_le source
      exact ⟨inside.1, Nat.le_trans inside.2 narrow⟩
  | some outer =>
      rw [Option.getD_some]
      unfold place? at placed
      split at placed
      · cases placed
        exact ⟨Nat.le_refl _, Nat.le_of_eq family⟩
      · rcases Option.bind_eq_some_iff.mp placed with ⟨start, startPlaced, rest⟩
        have startInside := bind_within?_le segmentsInside startPlaced
        split at rest
        · split at rest
          · cases rest
            exact ⟨Nat.le_refl _, Nat.le_of_eq family⟩
          · cases rest
            exact ⟨Nat.le_refl _, startInside⟩
        · rcases Option.bind_eq_some_iff.mp rest with ⟨stop, stopPlaced, rest⟩
          have stopInside := bind_within?_le segmentsInside stopPlaced
          cases rest
          exact ⟨Nat.le_max_right _ _, Nat.max_le.mpr ⟨stopInside, startInside⟩⟩

/-- The end of the filtered text is placed at the end of the source text. -/
theorem place?_end (source : List Char) :
    (ofSource source).place? (Span.empty (byteWidth (ofSource source).text)) =
      some (Span.empty (byteWidth source)) := by
  have laid := laid_ofSource source
  unfold place?
  split
  · rfl
  · next someSegment =>
      have all : (ofSource source).segments.takeWhile
          (fun segment =>
            decide (segment.filtered ≤ byteWidth (ofSource source).text)) =
              (ofSource source).segments := by
        rw [List.takeWhile_eq_self_iff]
        intro segment member
        exact decide_eq_true (laid.within member).1
      obtain ⟨segment, isLast⟩ : ∃ segment,
          (ofSource source).segments.getLast? = some segment := by
        cases last : (ofSource source).segments.getLast? with
        | none => simp_all
        | some segment => exact ⟨segment, rfl⟩
      have ends := laid.last isLast
      have start :
          (ofSource source).placeStart? (byteWidth (ofSource source).text) =
            some (segment.original +
              (byteWidth (ofSource source).text - segment.filtered)) := by
        unfold placeStart?
        rw [all, isLast]
        exact if_pos (by omega)
      have whole : (ofSource source).sourceWidth = byteWidth source := rfl
      simp [Span.empty, Span.isEmpty, start, whole]

theorem place_end (source : List Char) :
    (ofSource source).place (Span.empty (byteWidth (ofSource source).text)) =
      Span.empty (byteWidth source) := by
  rw [place, place?_end, Option.getD_some]

end Filtered

end Clipper.Directive
