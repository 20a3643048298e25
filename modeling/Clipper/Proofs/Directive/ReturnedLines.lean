import Clipper.Proofs.Lexeme.ReturnedScan
import Clipper.Proofs.TokenSlices

/-!
# Directives in a text with carriage returns

The lines of a text get their carriage returns, and are marked as before: what
marks a line is told without the blanks at its ends.  So the text without its
directives gets the returns too, and what it has at a place comes from the
corresponding place of the source text.

A return stands at the end of its line, before the line feed, and a blank at
the end of a line changes no mark: not the name that a directive begins with,
and not whether its last visible character is a semicolon.  The filtered text
with returns is therefore the filtered text, with a return in each of its
lines; the returns of removed lines are gone with them.
-/

namespace Clipper.Directive

open Clipper.Source
open Relabelled (relabel)

/-! ## Lines -/

/-- The lines of a text with returns are its lines, each with its return. -/
theorem lines_withReturns (source : List Char) :
    lines (withReturns source) = (lines source).map withReturns := by
  induction source with
  | nil => rfl
  | cons character rest hypothesis =>
      by_cases isNewline : character = '\n'
      · subst isNewline
        rw [withReturns_newline, lines, lines, lines, hypothesis]
        rfl
      · rw [withReturns_cons isNewline, lines, lines, if_neg isNewline,
          if_neg isNewline, hypothesis]
        cases lines rest with
        | nil =>
            exact congrArg (fun line => [line])
              (withReturns_cons isNewline []).symm
        | cons line later =>
            exact congrArg (fun line => line :: later.map withReturns)
              (withReturns_cons isNewline line).symm

theorem trimStart_withReturns (line : List Char) :
    Text.trimStart (withReturns line) = withReturns (Text.trimStart line) :=
  dropWhile_withReturns rfl line

/--
A return does not change whether a line opens a directive: it is behind the
name, where only letters count.
-/
theorem opensDirective_withReturns (line : List Char) :
    opensDirective (withReturns line) = opensDirective line := by
  rw [opensDirective, opensDirective, trimStart_withReturns]
  cases Text.trimStart line with
  | nil => rfl
  | cons first rest =>
      by_cases isNewline : first = '\n'
      · subst isNewline
        rfl
      · rw [withReturns_cons isNewline]
        by_cases opens : first = '#'
        · subst opens
          have word : (Text.trimStart (withReturns rest)).takeWhile
              Char.isAlpha = (Text.trimStart rest).takeWhile Char.isAlpha := by
            rw [trimStart_withReturns, takeWhile_withReturns_of_stops rfl rfl]
          exact congrArg
            (fun word => names.contains (lowerCase (String.ofList word))) word
        · split
          · next shape => exact absurd (List.cons.inj shape).1 opens
          · split
            · next shape => exact absurd (List.cons.inj shape).1 opens
            · rfl

theorem isContinued_withReturns (line : List Char) :
    isContinued (withReturns line) = isContinued line := by
  rw [isContinued, isContinued, Text.trimEnd, Text.trimEnd,
    List.getLast?_reverse, List.getLast?_reverse,
    head?_dropWhile_reverse_withReturns rfl]

/-- The line with its carriage return. -/
def Line.returned (line : Line) : Line :=
  ⟨withReturns line.text, line.kept⟩

/-- Lines with returns are marked as the lines without them. -/
theorem markFrom_withReturns
    (inside : Bool)
    (texts : List (List Char)) :
    markFrom inside (texts.map withReturns) =
      (markFrom inside texts).map Line.returned := by
  induction texts generalizing inside with
  | nil => rfl
  | cons text rest hypothesis =>
      rw [List.map_cons, markFrom, markFrom, opensDirective_withReturns,
        isContinued_withReturns, hypothesis, hypothesis]
      split <;> rfl

theorem mark_withReturns (source : List Char) :
    mark (withReturns source) = (mark source).map Line.returned := by
  rw [mark, mark, lines_withReturns, markFrom_withReturns]

theorem keptText_returned (lines : List Line) :
    keptText (lines.map Line.returned) = withReturns (keptText lines) := by
  induction lines with
  | nil => rfl
  | cons line rest hypothesis =>
      rw [List.map_cons, keptText_cons, keptText_cons, hypothesis,
        withReturns_append]
      cases kept : line.kept <;> simp [Line.returned, kept]

/-- The text without its directives has the returns of its lines. -/
theorem text_withReturns (source : List Char) :
    (Filtered.ofSource (withReturns source)).text =
      withReturns (Filtered.ofSource source).text := by
  change keptText (mark (withReturns source)) =
    withReturns (keptText (mark source))
  rw [mark_withReturns, keptText_returned]

theorem texts_returned (lines : List Line) :
    (lines.map Line.returned).flatMap Line.text =
      withReturns (lines.flatMap Line.text) := by
  induction lines with
  | nil => rfl
  | cons line rest hypothesis =>
      rw [List.map_cons, List.flatMap_cons, List.flatMap_cons, hypothesis,
        withReturns_append]
      rfl

/-! ## Origins -/

/-- A character of the kept text stands on a kept line. -/
theorem exists_line_of_keptText
    {lines : List Line}
    {before after : List Char}
    {character : Char}
    (text : keptText lines = before ++ character :: after) :
    ∃ earlier line later front behind,
      lines = earlier ++ line :: later ∧
        line.kept = true ∧
        line.text = front ++ character :: behind ∧
        before = keptText earlier ++ front := by
  induction lines generalizing before with
  | nil => simp [keptText] at text
  | cons line rest hypothesis =>
      have onLater
          (more : List Char)
          (onRest : keptText rest = more ++ character :: after)
          (split : before = (if line.kept then line.text else []) ++ more) :
          ∃ earlier place later front behind,
            line :: rest = earlier ++ place :: later ∧
              place.kept = true ∧
              place.text = front ++ character :: behind ∧
              before = keptText earlier ++ front := by
        obtain ⟨earlier, place, later, front, behind, rfl, isKept, onLine,
            rfl⟩ := hypothesis onRest
        refine ⟨line :: earlier, place, later, front, behind, rfl,
          isKept, onLine, ?_⟩
        rw [split, keptText_cons, List.append_assoc]
      rw [keptText_cons] at text
      cases kept : line.kept with
      | false =>
          rw [kept] at text onLater
          exact onLater before text rfl
      | true =>
          rw [kept, if_pos rfl] at text onLater
          rcases List.append_eq_append_iff.mp text with
            ⟨more, whole, onRest⟩ | ⟨here, onLine, split⟩
          · exact onLater more onRest whole
          · cases here with
            | nil =>
                exact onLater [] split.symm
                  (by rw [onLine, List.append_nil, List.append_nil])
            | cons first behind =>
                cases split
                exact ⟨[], line, rest, before, behind, rfl, kept, onLine, rfl⟩

/--
The origins of two lists of lines are those of the first, then those of the
second, which begin behind the first.
-/
theorem keptOffsets_append
    (original : Nat)
    (first second : List Line) :
    keptOffsets original (first ++ second) =
      keptOffsets original first ++
        keptOffsets (original + widthOf first) second := by
  induction first generalizing original with
  | nil => rfl
  | cons line rest hypothesis =>
      rw [List.cons_append, keptOffsets, keptOffsets, hypothesis, widthOf_cons,
        Nat.add_assoc]
      split
      · rw [List.append_assoc]
      · rfl

/-- The bytes of a kept line come from one place of the source text. -/
theorem keptOffsets_of_line
    {line : Line}
    (kept : line.kept = true)
    {index : Nat}
    (inLine : index < byteWidth line.text)
    (original : Nat)
    (earlier later : List Line) :
    (keptOffsets original (earlier ++ line :: later))[byteWidth
      (keptText earlier) + index]? =
      some (original + widthOf earlier + index) := by
  rw [keptOffsets_append, ← length_keptOffsets original earlier,
    List.getElem?_append_right (Nat.le_add_right _ _), Nat.add_sub_cancel_left,
    keptOffsets, if_pos kept, List.getElem?_append_left (by simpa using inLine),
    List.getElem?_range' inLine, Nat.one_mul]

/-- Where the text of a kept line comes from. -/
theorem origin_of_line
    {source front rest : List Char}
    {earlier later : List Line}
    {line : Line}
    (shape : mark source = earlier ++ line :: later)
    (kept : line.kept = true)
    (onLine : line.text = front ++ rest)
    {index : Nat}
    (inside : index < byteWidth rest) :
    origin source (byteWidth (keptText earlier ++ front) + index) =
      byteWidth (earlier.flatMap Line.text ++ front) + index := by
  have inLine : byteWidth front + index < byteWidth line.text := by
    rw [onLine, byteWidth_append]
    omega
  have found := keptOffsets_of_line kept inLine 0 earlier later
  rw [origin, origins, shape, List.getD_eq_getElem?_getD, byteWidth_append,
    byteWidth_append, Nat.add_assoc, found, widthOf, Option.getD_some,
    Nat.zero_add, Nat.add_assoc]

/--
A character of the filtered text is a character of the source text; with the
returns in both texts, it comes from there with its own return.
-/
theorem exists_origin
    {source before after : List Char}
    {character : Char}
    (text : (Filtered.ofSource source).text = before ++ character :: after) :
    ∃ front behind,
      source = front ++ character :: behind ∧
        (∀ index < character.utf8Size,
          origin source (byteWidth before + index) = byteWidth front + index) ∧
        ∀ index < byteWidth (returned character),
          origin (withReturns source) (byteWidth (withReturns before) + index) =
            byteWidth (withReturns front) + index := by
  obtain ⟨earlier, line, later, front, behind, shape, kept, onLine, rfl⟩ :=
    exists_line_of_keptText text
  have whole : (mark source).flatMap Line.text = source := by
    rw [List.flatMap_def, mark, map_text_markFrom, flatten_lines]
  refine ⟨earlier.flatMap Line.text ++ front,
    behind ++ later.flatMap Line.text, ?_, ?_, ?_⟩
  · rw [← whole, shape, List.flatMap_append, List.flatMap_cons, onLine]
    simp
  · intro index inside
    refine origin_of_line shape kept onLine ?_
    rw [byteWidth_cons]
    omega
  · intro index inside
    have returnedShape : mark (withReturns source) =
        earlier.map Line.returned ++ line.returned ::
          later.map Line.returned := by
      rw [mark_withReturns, shape, List.map_append, List.map_cons]
    have returnedLine : line.returned.text =
        withReturns front ++ (returned character ++ withReturns behind) := by
      rw [Line.returned, onLine, withReturns_append]
      rfl
    rw [withReturns_append, withReturns_append, ← keptText_returned,
      ← texts_returned]
    refine origin_of_line returnedShape kept returnedLine ?_
    rw [byteWidth_append]
    omega

/-! ## Places -/

theorem withReturns_singleton (character : Char) :
    withReturns [character] = returned character :=
  List.flatMap_singleton ..

theorem byteWidth_returned_pos (character : Char) :
    0 < byteWidth (returned character) := by
  rw [returned]
  split
  · decide
  · exact byteWidth_pos (List.cons_ne_nil _ _)

/-- Where a character begins in the source text with the returns. -/
theorem origin_start_withReturns
    {source before after : List Char}
    {character : Char}
    (text : (Filtered.ofSource source).text = before ++ character :: after) :
    origin (withReturns source) (byteWidth (withReturns before)) =
      returnedOffset source (origin source (byteWidth before)) := by
  obtain ⟨front, behind, shape, places, returnedPlaces⟩ := exists_origin text
  have place := places 0 character.utf8Size_pos
  have returnedPlace := returnedPlaces 0 (byteWidth_returned_pos character)
  simp only [Nat.add_zero] at place returnedPlace
  rw [place, returnedPlace, shape, returnedOffset_append]

/-- Where a character ends in the source text with the returns. -/
theorem origin_stop_withReturns
    {source before after : List Char}
    {character : Char}
    (text : (Filtered.ofSource source).text = before ++ character :: after) :
    origin (withReturns source)
      (byteWidth (withReturns (before ++ [character])) - 1) + 1 =
      returnedOffset source
        (origin source (byteWidth (before ++ [character]) - 1) + 1) := by
  obtain ⟨front, behind, shape, places, returnedPlaces⟩ := exists_origin text
  have positive := character.utf8Size_pos
  have returnedPositive := byteWidth_returned_pos character
  have place := places (character.utf8Size - 1) (by omega)
  have returnedPlace :=
    returnedPlaces (byteWidth (returned character) - 1) (by omega)
  have width (text : List Char) : byteWidth (text ++ [character]) =
      byteWidth text + (character.utf8Size - 1) + 1 := by
    rw [byteWidth_append, byteWidth_cons, byteWidth_nil]
    omega
  have returnedWidth (text : List Char) :
      byteWidth (withReturns (text ++ [character])) =
      byteWidth (withReturns text) +
        (byteWidth (returned character) - 1) + 1 := by
    rw [withReturns_append, byteWidth_append, withReturns_singleton]
    omega
  have whole : source = (front ++ [character]) ++ behind := by
    rw [shape, List.append_assoc]
    rfl
  rw [width, returnedWidth, Nat.add_sub_cancel, Nat.add_sub_cancel, place,
    returnedPlace, ← width, ← returnedWidth]
  exact (whole ▸ returnedOffset_append (front ++ [character]) behind).symm

/-- Text of the filtered text is placed from its first to its last byte. -/
theorem place_of_text
    {source before raw after : List Char}
    (text : (Filtered.ofSource source).text = before ++ (raw ++ after))
    (nonempty : raw ≠ []) :
    (Filtered.ofSource source).place
      ⟨byteWidth before, byteWidth (before ++ raw)⟩ =
      ⟨origin source (byteWidth before),
        origin source (byteWidth (before ++ raw) - 1) + 1⟩ := by
  have wide := byteWidth_pos nonempty
  rw [Filtered.place, Filtered.place?_nonempty, Option.getD_some]
  · rw [byteWidth_append]
    omega
  · rw [text, byteWidth_append, byteWidth_append, byteWidth_append]
    omega

/--
Text of the filtered text is placed with the
returns where it is placed without them.
-/
theorem place_withReturns
    {source before raw after : List Char}
    (text : (Filtered.ofSource source).text = before ++ (raw ++ after))
    (nonempty : raw ≠ []) :
    (Filtered.ofSource (withReturns source)).place
        (relabel (.returned (Filtered.ofSource source).text)
          ⟨byteWidth before, byteWidth (before ++ raw)⟩) =
      relabel (.returned source)
        ((Filtered.ofSource source).place
          ⟨byteWidth before, byteWidth (before ++ raw)⟩) := by
  have moved
      (first second : List Char)
      (whole : (Filtered.ofSource source).text = first ++ second) :
      relabel (.returned (Filtered.ofSource source).text) (byteWidth first) =
        byteWidth (withReturns first) := by
    rw [whole]
    exact returnedOffset_append first second
  have whole : (Filtered.ofSource source).text = (before ++ raw) ++ after := by
    rw [text, List.append_assoc]
  have returnedText : (Filtered.ofSource (withReturns source)).text =
      withReturns before ++ (withReturns raw ++ withReturns after) := by
    rw [text_withReturns, text, withReturns_append, withReturns_append]
  have start : origin (withReturns source) (byteWidth (withReturns before)) =
      returnedOffset source (origin source (byteWidth before)) := by
    obtain ⟨first, tail, rfl⟩ := List.exists_cons_of_ne_nil nonempty
    exact origin_start_withReturns text
  have stop : origin (withReturns source)
      (byteWidth (withReturns (before ++ raw)) - 1) + 1 =
      returnedOffset source
        (origin source (byteWidth (before ++ raw) - 1) + 1) := by
    rw [← List.dropLast_append_getLast nonempty, ← List.append_assoc] at whole ⊢
    rw [List.append_assoc] at whole
    exact origin_stop_withReturns whole
  rw [relabel_span, moved before (raw ++ after) text,
    moved (before ++ raw) after whole, place_of_text text nonempty,
    relabel_span, withReturns_append,
    place_of_text returnedText (mt withReturns_eq_nil_iff.mp nonempty), start,
    ← withReturns_append, stop]
  rfl

/--
The end of the filtered text is placed at the end of the source text, with
returns as without them.
-/
theorem place_end_withReturns (source : List Char) :
    (Filtered.ofSource (withReturns source)).place
        (relabel (.returned (Filtered.ofSource source).text)
          (Span.empty (byteWidth (Filtered.ofSource source).text))) =
      relabel (.returned source)
        ((Filtered.ofSource source).place
          (Span.empty (byteWidth (Filtered.ofSource source).text))) := by
  have moved (text : List Char) :
      relabel (.returned text) (byteWidth text) =
        byteWidth (withReturns text) :=
    returnedOffset_end text
  have atEnd := Filtered.place_end (withReturns source)
  rw [text_withReturns] at atEnd
  rw [relabel_empty, moved, atEnd, Filtered.place_end, relabel_empty, moved]

/-! ## Lexemes -/

/--
The place of a lexeme of the filtered text
is found with the returns as without them.
-/
theorem place_lexeme_withReturns
    {source : List Char}
    {lexeme : Lexeme}
    (member : lexeme ∈ Lexeme.all (Filtered.ofSource source).text) :
    (Filtered.ofSource (withReturns source)).place
        (relabel (.returned (Filtered.ofSource source).text)
          lexeme.token.span) =
      relabel (.returned source)
        ((Filtered.ofSource source).place lexeme.token.span) := by
  by_cases isEnd : lexeme.token.kind = .endOfFile
  · obtain ⟨earlier, word, shape, notEnd⟩ :=
      Lexeme.endsAt_all (Filtered.ofSource source).text
    have isToken : lexeme.token ∈
        Lexeme.tokens (Lexeme.all (Filtered.ofSource source).text) :=
      List.mem_map_of_mem member
    rw [shape, List.mem_append, List.mem_singleton] at isToken
    rcases isToken with isEarlier | isLast
    · exact absurd isEnd (notEnd _ isEarlier)
    · rw [isLast]
      exact place_end_withReturns source
  · obtain ⟨before, first, tail, after, madeOf⟩ :=
      Lexeme.exists_madeOf member isEnd
    have whole := madeOf.whole
    rw [madeOf.span, ← byteWidth_reverse before, ← byteWidth_append]
    exact place_withReturns whole (List.cons_ne_nil _ _)

/--
Outside directives, the lexemes of the text
with the returns are those of the text.
-/
theorem allOutsideDirectives_withReturns (source : List Char) :
    Lexeme.allOutsideDirectives (withReturns source) =
      (Lexeme.allOutsideDirectives source).map
        (relabel (.returned source)) := by
  simp only [Lexeme.allOutsideDirectives]
  rw [text_withReturns, Lexeme.all_withReturns, List.map_map, List.map_map]
  refine List.map_congr_left fun lexeme member => ?_
  have placed := place_lexeme_withReturns member
  exact congrArg
    (fun span => Lexeme.mk
      ⟨lexeme.token.kind, span,
        (Relabelling.returned source).lexeme lexeme.token.kind
        lexeme.token.lexeme⟩ lexeme.fault?) placed

end Clipper.Directive
