import Clipper.Proofs.Grammar.ProgramSpans
import Clipper.Proofs.Source.Bytes

/-!
# Where the bytes of a filtered text come from

Every byte of a filtered text is a byte of a kept line of the source text.  The
offsets of these bytes in the source text, in increasing order, are the origins
of the filtered text.  A span of the filtered text is placed by them: it begins
where its first byte came from and ends where its last byte ends.  The segments
that the placing searches through are runs of consecutive origins.

The origins are listed by a walk over the kept lines, which is simple to
reason about; the segments are what the program computes with, and a search in
them finds the origin of an offset.  For the end of a span, the byte before it
counts, so that a span that ends with a run is placed at the end of this run
and not at the beginning of the next one.
-/

namespace Clipper

namespace Directive

open Source

/-! ## Origins -/

/--
The offsets of the bytes of the kept lines, for lines that begin at an offset.
-/
def keptOffsets (original : Nat) : List Line → List Nat
  | [] => []
  | line :: rest =>
      let width := byteWidth line.text
      if line.kept then List.range' original width ++
        keptOffsets (original + width) rest
      else keptOffsets (original + width) rest

/-- The source offsets of the bytes of the filtered text, in order. -/
def origins (source : List Char) : List Nat :=
  keptOffsets 0 (mark source)

/--
The source offset of the byte at an offset of the filtered text.  The end of the
filtered text comes from the end of the source text.
-/
def origin
    (source : List Char)
    (offset : Nat) :
    Nat :=
  (origins source).getD offset (byteWidth source)

/-- The kept lines have one origin for each byte of their text. -/
theorem length_keptOffsets
    (original : Nat)
    (lines : List Line) :
    (keptOffsets original lines).length = byteWidth (keptText lines) := by
  induction lines generalizing original with
  | nil => rfl
  | cons line rest hypothesis =>
      rw [byteWidth_keptText_cons, keptOffsets]
      cases line.kept with
      | false => simp [hypothesis]
      | true => simp [hypothesis]

/-- The bytes of kept lines stand within the lines. -/
theorem keptOffsets_bounds
    (original : Nat)
    (lines : List Line) :
    ∀ offset ∈ keptOffsets original lines,
      original ≤ offset ∧ offset < original + widthOf lines := by
  induction lines generalizing original with
  | nil => exact fun offset member => absurd member List.not_mem_nil
  | cons line rest hypothesis =>
      intro offset member
      have later := hypothesis (original + byteWidth line.text) offset
      rw [widthOf_cons]
      rw [keptOffsets] at member
      split at member
      · rcases List.mem_append.mp member with isHere | isLater
        · have here := List.mem_range'_1.mp isHere
          omega
        · have bounds := later isLater
          omega
      · have bounds := later member
        omega

/--
The origins of kept lines increase, as the lines stand in the
order of the source text.
-/
theorem keptOffsets_increasing
    (original : Nat)
    (lines : List Line) :
    (keptOffsets original lines).Pairwise (· < ·) := by
  induction lines generalizing original with
  | nil => exact .nil
  | cons line rest hypothesis =>
      rw [keptOffsets]
      split
      · rw [List.pairwise_append]
        refine ⟨List.pairwise_lt_range' 1, hypothesis _,
          fun first isHere second isLater => ?_⟩
        have here := List.mem_range'_1.mp isHere
        have later := (keptOffsets_bounds _ _ second isLater).1
        omega
      · exact hypothesis _

/-- At the offsets of the kept bytes stand the bytes of the kept text. -/
theorem bytes_keptOffsets
    (before : List Char)
    (lines : List Line) :
    (keptOffsets (byteWidth before) lines).map
        (fun offset => (bytes (before ++ lines.flatMap Line.text))[offset]?) =
      (bytes (keptText lines)).map some := by
  induction lines generalizing before with
  | nil => rfl
  | cons line rest hypothesis =>
      have later := hypothesis (before ++ line.text)
      rw [byteWidth_append, List.append_assoc, ← List.flatMap_cons] at later
      rw [keptOffsets]
      cases kept : line.kept with
      | false =>
          have same : keptText (line :: rest) = keptText rest := by
            simp [keptText, kept]
          rw [same, if_neg Bool.false_ne_true, later]
      | true =>
          have split : keptText (line :: rest) =
              line.text ++ keptText rest := by
            simp [keptText, kept]
          have here :
              (List.range' (byteWidth before) (byteWidth line.text)).map
                  (fun offset =>
                    (bytes (before ++ (line :: rest).flatMap
                      Line.text))[offset]?) =
                (bytes line.text).map some := by
            apply List.ext_getElem
            · simp
            · intro index inRange inLine
              have bound : index < byteWidth line.text := by simpa using inLine
              simp [List.getElem?_append, bound]
          rw [split, if_pos rfl, List.map_append, later, here, bytes_append,
            List.map_append]

/-! ## Segments are runs of origins -/

/-- The source offsets of the bytes of some segments, in order. -/
def segmentOffsets (segments : List Segment) : List Nat :=
  segments.flatMap (fun segment => List.range' segment.original segment.length)

/--
The offsets that the segments cover are the origins of the kept lines.  A
segment grows with every line of its run, and so does the run of origins.
-/
theorem segmentOffsets_segmentsFrom
    (filtered original : Nat)
    (lines : List Line) :
    segmentOffsets (segmentsFrom filtered original lines) =
      keptOffsets original lines := by
  induction lines generalizing filtered original with
  | nil => rfl
  | cons line rest hypothesis =>
      unfold segmentsFrom keptOffsets
      dsimp only
      split
      · have later := hypothesis (filtered + byteWidth line.text)
            (original + byteWidth line.text)
        rw [← later]
        split
        · next noSegment => simp [segmentOffsets, noSegment]
        · next segment others shape =>
            rw [shape]
            split
            · next joins => simp [segmentOffsets, joins, ← List.range'_append_1]
            · next apart => simp [segmentOffsets]
      · exact hypothesis filtered _

/--
Among segments that are laid one after the other, an offset lies in the last of
those that begin no later, and there stands the origin with its number.
-/
theorem Laid.last_begun
    {filteredEnd originalEnd filtered original offset : Nat}
    {segments : List Segment}
    (laid : Laid filteredEnd originalEnd filtered original segments)
    (begun : filtered ≤ offset)
    (inside : offset < filteredEnd) :
    ∃ segment,
      (segments.takeWhile
        (fun segment => decide (segment.filtered ≤ offset))).getLast? =
          some segment ∧
        segment.filtered ≤ offset ∧
        offset < segment.filtered + segment.length ∧
        (segmentOffsets segments)[offset - filtered]? =
          some (segment.original + (offset - segment.filtered)) := by
  induction segments generalizing filtered original with
  | nil =>
      obtain rfl : filtered = filteredEnd := laid
      omega
  | cons first rest hypothesis =>
      obtain ⟨rfl, -, -, later⟩ := laid
      have taken :
          (first :: rest).takeWhile
            (fun segment => decide (segment.filtered ≤ offset)) =
              first :: rest.takeWhile
                (fun segment => decide (segment.filtered ≤ offset)) :=
        List.takeWhile_cons_of_pos (decide_eq_true begun)
      by_cases past : first.filtered + first.length ≤ offset
      · obtain ⟨segment, isLast, begins, ends, found⟩ := hypothesis later past
        refine ⟨segment, ?_, begins, ends, ?_⟩
        · rw [taken, List.getLast?_cons, isLast]
          rfl
        · have far : first.length ≤ offset - first.filtered := by omega
          rw [segmentOffsets, List.flatMap_cons,
            List.getElem?_append_right (by simpa using far), List.length_range',
            Nat.sub_sub]
          exact found
      · have short : offset - first.filtered < first.length := by omega
        refine ⟨first, ?_, begun, by omega, ?_⟩
        · -- The next segment begins where this one ends, behind the offset.
          have stops :
              rest.takeWhile (fun segment =>
                decide (segment.filtered ≤ offset)) = [] := by
            cases rest with
            | nil => rfl
            | cons second others =>
                have begins : second.filtered = first.filtered + first.length :=
                  later.1
                exact List.takeWhile_cons_of_neg (by simp [begins, past])
          rw [taken, stops]
          rfl
        · rw [segmentOffsets, List.flatMap_cons,
            List.getElem?_append_left (by simpa using short),
            List.getElem?_range' short, Nat.one_mul]

/-! ## Placing by origins -/

section

variable {source : List Char}

theorem length_origins (source : List Char) :
    (origins source).length = byteWidth (Filtered.ofSource source).text :=
  length_keptOffsets 0 (mark source)

theorem origin_of_lt
    {offset : Nat}
    (inside : offset < byteWidth (Filtered.ofSource source).text) :
    (origins source)[offset]? = some (origin source offset) := by
  rw [← length_origins] at inside
  rw [origin, List.getD_eq_getElem?_getD, List.getElem?_eq_getElem inside,
    Option.getD_some]

theorem origin_end (source : List Char) :
    origin source (byteWidth (Filtered.ofSource source).text) =
      byteWidth source := by
  rw [origin, ← length_origins]
  simp

/-- The origins increase, up to the end of the source text. -/
theorem origin_lt_origin
    {first last : Nat}
    (order : first < last)
    (inside : last ≤ byteWidth (Filtered.ofSource source).text) :
    origin source first < origin source last := by
  have firstFound := origin_of_lt (Nat.lt_of_lt_of_le order inside)
  rcases Nat.lt_or_eq_of_le inside with before | rfl
  · have lastFound := origin_of_lt before
    have increasing :=
      List.pairwise_iff_getElem.mp (keptOffsets_increasing 0 (mark source))
    rw [List.getElem?_eq_some_iff] at firstFound lastFound
    obtain ⟨firstBound, firstIs⟩ := firstFound
    obtain ⟨lastBound, lastIs⟩ := lastFound
    rw [← firstIs, ← lastIs]
    exact increasing first last firstBound lastBound order
  · rw [origin_end]
    have bound :=
      (keptOffsets_bounds 0 (mark source) _ (List.mem_of_getElem? firstFound)).2
    rwa [widthOf_mark, Nat.zero_add] at bound

/-- The byte at an offset of the filtered text is the byte at its origin. -/
theorem bytes_origin
    {offset : Nat}
    (inside : offset < byteWidth (Filtered.ofSource source).text) :
    (bytes (Filtered.ofSource source).text)[offset]? =
      (bytes source)[origin source offset]? := by
  have same := congrArg (·[offset]?) (bytes_keptOffsets [] (mark source))
  have lines : (mark source).flatMap Line.text = source := by
    rw [mark, List.flatMap_def, map_text_markFrom, flatten_lines]
  have found : (keptOffsets 0 (mark source))[offset]? =
      some (origin source offset) :=
    origin_of_lt inside
  have bound : offset < (bytes (keptText (mark source))).length := by
    rw [length_bytes]
    exact inside
  simp only [List.nil_append, byteWidth_nil, lines, List.getElem?_map, found,
    Option.map_some, List.getElem?_eq_getElem bound, Option.some.injEq] at same
  rw [same]
  exact List.getElem?_eq_getElem bound

namespace Filtered

/-- The segment in which a byte of the filtered text lies tells its origin. -/
theorem last_begun
    {offset : Nat}
    (inside : offset < byteWidth (ofSource source).text) :
    ∃ segment,
      ((ofSource source).segments.takeWhile
          (fun segment => decide (segment.filtered ≤ offset))).getLast? =
          some segment ∧
        segment.filtered ≤ offset ∧
        offset < segment.filtered + segment.length ∧
        segment.original + (offset - segment.filtered) =
          origin source offset := by
  obtain ⟨segment, isLast, begins, ends, found⟩ :=
    (laid_ofSource source).last_begun (Nat.zero_le offset) inside
  refine ⟨segment, isLast, begins, ends, ?_⟩
  have same : segmentOffsets (ofSource source).segments = origins source :=
    segmentOffsets_segmentsFrom 0 0 (mark source)
  rw [same, Nat.sub_zero, origin_of_lt inside, Option.some.injEq] at found
  exact found.symm

theorem placeStart?_eq
    {offset : Nat}
    (inside : offset < byteWidth (ofSource source).text) :
    (ofSource source).placeStart? offset = some (origin source offset) := by
  obtain ⟨segment, isLast, begins, ends, found⟩ := last_begun inside
  rw [placeStart?, isLast, ← found]
  exact if_pos (by omega)

/--
A span that ends behind a byte of the filtered text ends behind the
origin of this byte.
-/
theorem placeStop?_eq
    {offset : Nat}
    (inside : offset < byteWidth (ofSource source).text) :
    (ofSource source).placeStop? (offset + 1) =
      some (origin source offset + 1) := by
  obtain ⟨segment, isLast, begins, ends, found⟩ := last_begun inside
  -- A segment begins before the next offset when it begins no later than this
  -- one.
  simp only [placeStop?, Nat.lt_succ_iff, isLast]
  refine (if_pos (by omega)).trans ?_
  rw [← found]
  congr 1
  omega

/-- A filtered text that has a byte has a segment. -/
theorem segments_ne_nil
    {offset : Nat}
    (inside : offset < byteWidth (ofSource source).text) :
    (ofSource source).segments.isEmpty = false := by
  obtain ⟨segment, isLast, -⟩ := last_begun inside
  cases shape : (ofSource source).segments with
  | nil =>
      rw [shape] at isLast
      cases isLast
  | cons first rest => rfl

/--
A span with a byte is placed from the origin
of its first byte to that of its last.
-/
theorem place?_nonempty
    {first last : Nat}
    (order : first < last)
    (inside : last ≤ byteWidth (ofSource source).text) :
    (ofSource source).place? ⟨first, last⟩ =
      some ⟨origin source first, origin source (last - 1) + 1⟩ := by
  have firstInside := Nat.lt_of_lt_of_le order inside
  have lastInside : last - 1 < byteWidth (ofSource source).text := by omega
  have stops := placeStop?_eq lastInside
  rw [Nat.sub_add_cancel (by omega)] at stops
  have ordered : origin source first ≤ origin source (last - 1) + 1 := by
    rcases Nat.lt_or_eq_of_le (Nat.le_sub_one_of_lt order) with before | same
    · have increases := origin_lt_origin before (Nat.le_of_lt lastInside)
      omega
    · rw [same]
      omega
  have notEmpty : (Span.mk first last).isEmpty = false := by
    simpa [Span.isEmpty] using Nat.ne_of_lt order
  simp [place?, segments_ne_nil firstInside, placeStart?_eq firstInside,
    notEmpty, stops, ordered]

/--
An empty span before the end is placed at the origin of the byte after it.
-/
theorem place?_empty
    {offset : Nat}
    (inside : offset < byteWidth (ofSource source).text) :
    (ofSource source).place? (.empty offset) =
      some (.empty (origin source offset)) := by
  have notEnd : offset ≠ byteWidth (ofSource source).text := Nat.ne_of_lt inside
  simp [place?, segments_ne_nil inside, Span.empty, Span.isEmpty,
    placeStart?_eq inside, notEnd]

end Filtered

/-- The span of the source text from which the bytes of a span came. -/
def originSpan
    (source : List Char)
    (span : Span) :
    Span :=
  ⟨origin source span.start,
    if span.isEmpty then origin source span.start
    else origin source (span.stop - 1) + 1⟩

/-- Every span of the filtered text is placed at the origins of its bytes. -/
theorem Filtered.place?_eq
    {span : Span}
    (inside : (SpanFamily.below (byteWidth (ofSource source).text)).span span) :
    (ofSource source).place? span = some (originSpan source span) := by
  obtain ⟨first, last⟩ := span
  obtain ⟨order, bound⟩ := inside
  dsimp only at order bound
  rcases Nat.lt_or_eq_of_le order with nonempty | rfl
  · have notEmpty : first ≠ last := Nat.ne_of_lt nonempty
    rw [place?_nonempty nonempty bound]
    simp [originSpan, Span.isEmpty, notEmpty]
  · rcases Nat.lt_or_eq_of_le bound with before | rfl
    · rw [← Span.empty, place?_empty before]
      simp [originSpan, Span.empty, Span.isEmpty]
    · rw [← Span.empty, place?_end]
      simp [originSpan, Span.empty, Span.isEmpty, origin_end]

/-- The origins of a span lie before the origin of what follows it. -/
theorem originSpan_stop_le
    {span : Span}
    (inside :
      (SpanFamily.below (byteWidth (Filtered.ofSource source).text)).span span)
    {next : Nat}
    (order : span.stop ≤ next)
    (bound : next ≤ byteWidth (Filtered.ofSource source).text) :
    (originSpan source span).stop ≤ origin source next := by
  have start : span.start ≤ span.stop := inside.1
  rw [originSpan]
  dsimp only
  split
  · next empty =>
      have same : span.start = span.stop := by simpa [Span.isEmpty] using empty
      rcases Nat.lt_or_eq_of_le order with before | rfl
      · exact Nat.le_of_lt (origin_lt_origin (same ▸ before) bound)
      · rw [same]
  · next nonempty =>
      have differ : span.start ≠ span.stop := by
        simpa [Span.isEmpty] using nonempty
      exact origin_lt_origin (by omega) bound

/-! ## Texts without directives -/

/--
Where all lines are kept, every byte is its own origin, counted
from the first line.
-/
theorem keptOffsets_of_kept
    {lines : List Line}
    (kept : ∀ line ∈ lines, line.kept = true)
    (original : Nat) :
    keptOffsets original lines = List.range' original (widthOf lines) := by
  induction lines generalizing original with
  | nil => rfl
  | cons line rest hypothesis =>
      rw [List.forall_mem_cons] at kept
      rw [keptOffsets, if_pos kept.1, hypothesis kept.2, List.range'_append_1,
        widthOf_cons]

section

variable (allKept : ∀ line ∈ mark source, line.kept = true)

include allKept

theorem text_of_kept : (Filtered.ofSource source).text = source := by
  have same : (mark source).filter Line.kept = mark source :=
    List.filter_eq_self.mpr allKept
  change keptText (mark source) = source
  rw [keptText, same, mark, List.flatMap_def, map_text_markFrom, flatten_lines]

/-- Where all lines are kept, an offset comes from itself. -/
theorem origin_of_kept
    {offset : Nat}
    (inside : offset ≤ byteWidth source) :
    origin source offset = offset := by
  rcases Nat.lt_or_eq_of_le inside with before | rfl
  · rw [origin, origins, keptOffsets_of_kept allKept, widthOf_mark,
      List.getD_eq_getElem?_getD, List.getElem?_range' before]
    simp
  · have atEnd := origin_end source
    rwa [text_of_kept allKept] at atEnd

/-- Where no line is removed, every span is placed where it stands. -/
theorem place?_of_kept
    {span : Span}
    (inside : (SpanFamily.below (byteWidth source)).span span) :
    (Filtered.ofSource source).place? span = some span := by
  have insideText := inside
  rw [← text_of_kept allKept] at insideText
  obtain ⟨order, bound⟩ := inside
  have start : origin source span.start = span.start :=
    origin_of_kept allKept (Nat.le_trans order bound)
  have stop : origin source (span.stop - 1) = span.stop - 1 :=
    origin_of_kept allKept (Nat.le_trans (Nat.sub_le _ _) bound)
  rw [Filtered.place?_eq insideText, originSpan, start, stop]
  obtain ⟨first, last⟩ := span
  by_cases same : first = last
  · simp [Span.isEmpty, same]
  · dsimp only at order
    have restored : last - 1 + 1 = last := by omega
    simp [Span.isEmpty, same, restored]

/--
In a text without directives, the lexemes are those of the text: every span is
placed where it stands.
-/
theorem allOutsideDirectives_of_kept :
    Lexeme.allOutsideDirectives source = Lexeme.all source := by
  have stays : ∀ lexeme ∈ Lexeme.all source,
      lexeme.moveTo ((Filtered.ofSource source).place lexeme.token.span) =
        lexeme := by
    intro lexeme member
    have inside := Lexeme.below_all source (List.mem_map_of_mem member)
    rw [Filtered.place, place?_of_kept allKept inside]
    rfl
  rw [Lexeme.allOutsideDirectives, text_of_kept allKept]
  exact (List.map_congr_left stays).trans (List.map_id' _)

end

end

/--
The origins of the bytes of a filtered text increase, and the same bytes stand
there; the end of the filtered text comes from the end of the source text.  A
span with a byte is placed from the origin of its first byte to the end of its
last, an empty span at the origin of its offset.  So every span of a token is
placed, later beginnings stay later, and spans one after the other stay so.
Where no line is removed, every span stays where it is, and an analysis is the
same with and without the directives removed.
-/
theorem spans_placed_by_origin (source : List Char) :
    origin source (byteWidth (Filtered.ofSource source).text) =
      byteWidth source ∧
      let filtered := Filtered.ofSource source
      let width := byteWidth filtered.text
      ((∀ first last, first < last → last ≤ width →
        origin source first < origin source last) ∧
          ∀ offset < width,
            (bytes filtered.text)[offset]? =
              (bytes source)[origin source offset]?) ∧
        ((∀ first last, first < last → last ≤ width →
            filtered.place? ⟨first, last⟩ =
              some ⟨origin source first, origin source (last - 1) + 1⟩) ∧
          (∀ offset < width,
            filtered.place? (.empty offset) =
              some (.empty (origin source offset))) ∧
          filtered.place? (.empty width) = some (.empty (byteWidth source))) ∧
        (∀ token ∈ Lexeme.tokens (Lexeme.all filtered.text),
          token.span.start ≤ token.span.stop ∧ token.span.stop ≤ width ∧
            (filtered.place? token.span).isSome = true) ∧
        (∀ first second,
          (SpanFamily.below width).span first →
            (SpanFamily.below width).span second →
            ∃ firstPlace secondPlace,
              filtered.place? first = some firstPlace ∧
                filtered.place? second = some secondPlace ∧
                (first.start < second.start →
                  firstPlace.start < secondPlace.start) ∧
                (first.stop ≤ second.start →
                  firstPlace.stop ≤ secondPlace.start)) ∧
        ((∀ line ∈ mark source, line.kept = true) →
          (∀ span, (SpanFamily.below width).span span →
            filtered.place? span = some span) ∧
            Analysis.ofText true source = Analysis.ofText false source) := by
  refine ⟨origin_end source, ?_⟩
  intro filtered width
  refine ⟨⟨fun _ _ => origin_lt_origin, fun _ => bytes_origin⟩,
    ⟨fun _ _ => Filtered.place?_nonempty, fun _ => Filtered.place?_empty,
      Filtered.place?_end source⟩, ?_, ?_, ?_⟩
  · intro token member
    have inside := Lexeme.below_all filtered.text member
    refine ⟨inside.1, inside.2, ?_⟩
    rw [Filtered.place?_eq inside]
    rfl
  · intro first second firstInside secondInside
    refine ⟨originSpan source first, originSpan source second,
      Filtered.place?_eq firstInside, Filtered.place?_eq secondInside, ?_, ?_⟩
    · exact fun earlier =>
        origin_lt_origin earlier (Nat.le_trans secondInside.1 secondInside.2)
    · exact fun apart =>
        originSpan_stop_le firstInside apart
          (Nat.le_trans secondInside.1 secondInside.2)
  · intro allKept
    constructor
    · intro span inside
      refine place?_of_kept allKept ?_
      rwa [← text_of_kept allKept]
    · rw [Analysis.ofText, Analysis.ofText, if_pos rfl,
        allOutsideDirectives_of_kept allKept]
      rfl

/--
Two lines that a directive parts meet in
the filtered text, and are placed apart.
-/
example :
    let filtered := Filtered.ofSource "ab\n#define X\ncd".toList
    filtered.place? ⟨0, 3⟩ = some ⟨0, 3⟩ ∧ filtered.place? ⟨3, 5⟩ =
      some ⟨13, 15⟩ := by
  decide +kernel

end Directive

end Clipper
