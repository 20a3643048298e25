import Clipper.Proofs.Lexeme.ReturnedPieces
import Clipper.Proofs.Lexeme.ScannerRuns

/-!
# The lexemes of a text with carriage returns

A text is scanned together with the same text with carriage returns.  Both
scanners have done the same characters, or the second one has also done the
return of the line end that is ahead, as it does where a comment ends with its
line.  In the next step both skip that line end, so they cut off the same
lexemes, which differ in the offsets and in the text of a comment without an
end.

The two cases are the constructors of a relation between a scanner and the
text that was done, so a step is a case analysis over them and over the sort
of piece that is ahead.  The relabelling of the spans is that of the whole
text, which is the same for both scanners; that is why the text that was done
is part of the relation.
-/

namespace Clipper.Lexeme

open Clipper.Source
open Relabelled (relabel)

instance : Relabelled Lexeme where
  relabel change lexeme := ⟨relabel change lexeme.token, lexeme.fault?⟩

namespace Scanner

variable {text done : List Char} {scanner next other : Scanner Unit}
    {taken : Taken}

/-- The second scanner stands at the same place of the text with the returns. -/
inductive Abreast (text done : List Char) (scanner other : Scanner Unit) :
    Prop where
  /-- Both have done the same characters. -/
  | same
      (leads : (ofText .plain text).Leads done scanner)
      (returned : (ofText .plain (withReturns text)).Leads
        (withReturns done) other)
  /-- The second has also done the return of the line end ahead. -/
  | pastReturn
      (leads : (ofText .plain text).Leads done scanner)
      (returned : (ofText .plain (withReturns text)).Leads
        (withReturns done ++ ['\r']) other)
      (feed : scanner.cut.after.head? = some '\n')

/-! ## Steps from what is ahead -/

/-- The step over a comment up to the end of its line. -/
theorem exists_step_of_line
    {first : Char}
    {line after : List Char}
    (ahead : scanner.cut.after = first :: (line ++ after))
    (piece :
      (cutPiece .plain () scanner.cut.before scanner.cut.offset first
        (line ++ after)).1 =
        lineCommentPiece (line ++ after))
    (oneLine : '\n' ∉ line)
    (ends : AtLineEnd after) :
    ∃ taken next,
      scanner.step? .plain = some (taken, next) ∧
        taken.raw = first :: line ∧ taken.content = .skipped := by
  have inLine : ∀ character ∈ line, (character != '\n') = true := by
    intro character member
    refine bne_iff_ne.mpr ?_
    rintro rfl
    exact oneLine member
  have stops : ∀ character ∈ after.head?, (character != '\n') = false := by
    intro character member
    rw [ends character member]
    rfl
  refine exists_step_of_piece ahead (piece.trans ?_)
  rw [lineCommentPiece, firstLine, takeWhile_append_of_head inLine stops]

/-! ## Steps that keep two scanners abreast -/

section

variable
  (leads : (ofText .plain text).Leads done scanner)
  (returned : (ofText .plain (withReturns text)).Leads (withReturns done) other)

include leads returned

/-- Where the same characters are done, the same are ahead. -/
theorem after_of_same : other.cut.after = withReturns scanner.cut.after := by
  have whole := returned.after_eq
  rw [congrArg withReturns leads.after_eq, withReturns_append] at whole
  exact (List.append_cancel_left whole).symm

theorem atLineStart_of_same :
    atLineStart other.cut.before = atLineStart scanner.cut.before := by
  rw [returned.before_eq, leads.before_eq, atLineStart_withReturns]

/-- Places with the same characters done correspond to each other. -/
theorem offset_of_same : other.cut.offset =
    returnedOffset text scanner.cut.offset := by
  rw [returned.offset_eq, leads.offset_eq, leads.after_eq,
    returnedOffset_append]

end

/-- Behind the return of a line end, the line feed is ahead. -/
theorem after_of_pastReturn
    (leads : (ofText .plain text).Leads done scanner)
    (returned : (ofText .plain (withReturns text)).Leads
      (withReturns done ++ ['\r']) other)
    {rest : List Char}
    (ahead : scanner.cut.after = '\n' :: rest) :
    other.cut.after = '\n' :: withReturns rest := by
  have whole := returned.after_eq
  rw [congrArg withReturns leads.after_eq, withReturns_append, ahead,
    withReturns_newline, List.append_assoc] at whole
  exact (List.cons.inj (List.append_cancel_left whole)).2.symm

/-- What two scanners cut off at corresponding places makes the same lexeme. -/
theorem lexeme?_withReturns
    {otherTaken : Taken}
    (kind : ∀ kind lexeme, taken.content = .token kind lexeme → kind ≠ .error)
    (raw : otherTaken.raw = withReturns taken.raw)
    (span : otherTaken.span = relabel (.returned text) taken.span)
    (content : otherTaken.content = taken.content) :
    otherTaken.lexeme? = taken.lexeme?.map (relabel (.returned text)) := by
  rw [Taken.lexeme?, Taken.lexeme?, raw, span, content]
  cases made : taken.content with
  | skipped => rfl
  | token isKind lexeme =>
      have same := Relabelling.lexeme_returned
          (kind isKind lexeme made) text lexeme
      simp only [ofContent?, Option.map_some, relabel, same]
  | fault cause =>
      simp [ofContent?, relabel, Relabelling.returned]

/--
The second scanner makes the same lexeme and remains abreast of the first.
-/
def Follows (text done : List Char) (taken : Taken)
    (next other : Scanner Unit) : Prop :=
  ∃ otherTaken otherNext,
    other.step? .plain = some (otherTaken, otherNext) ∧
      otherTaken.lexeme? = taken.lexeme?.map (relabel (.returned text)) ∧
      Abreast text (done ++ taken.raw) next otherNext

/-- Where both scanners skip, there is no lexeme to compare. -/
theorem follows_of_skipped
    {otherTaken : Taken}
    {otherNext : Scanner Unit}
    (stepOther : other.step? .plain = some (otherTaken, otherNext))
    (skipped : taken.content = .skipped)
    (otherSkipped : otherTaken.content = .skipped)
    (abreast : Abreast text (done ++ taken.raw) next otherNext) :
    Follows text done taken next other := by
  refine ⟨otherTaken, otherNext, stepOther, ?_, abreast⟩
  rw [lexeme?_of_skipped skipped, lexeme?_of_skipped otherSkipped]
  rfl

/--
Spaces are passed with the returns among them, and with the line end ahead.
-/
theorem Abreast.follows_spaces
    (abreast : Abreast text done scanner other)
    (step : scanner.step? .plain = some (taken, next))
    (skipped : taken.content = .skipped)
    (spaces : ∀ character ∈ taken.raw, isSpace character = true)
    (stops : ∀ character ∈ next.cut.after.head?, isSpace character = false) :
    Follows text done taken next other := by
  have takes := takes_of_step? step
  have nonempty := takes.nonempty
  have shape := takes.after
  have going := leads_of_step? step
  cases abreast with
  | same leads returned =>
      have ahead := after_of_same leads returned
      rw [shape, withReturns_append] at ahead
      obtain ⟨otherTaken, otherNext, stepOther, raw, content⟩ :=
        exists_step_of_spaces ahead (mt withReturns_eq_nil_iff.mp nonempty)
          (forall_mem_withReturns rfl spaces) (isSpace_head?_withReturns stops)
      have otherGoing := returned.trans (leads_of_step? stepOther)
      rw [raw, ← withReturns_append] at otherGoing
      exact follows_of_skipped stepOther skipped content
        (.same (leads.trans going) otherGoing)
  | pastReturn leads returned feed =>
      obtain ⟨first, tail, isRaw⟩ := List.exists_cons_of_ne_nil nonempty
      rw [isRaw] at shape spaces
      obtain rfl : first = '\n' := by
        rw [shape] at feed
        exact Option.some.inj feed
      have ahead : other.cut.after =
          '\n' :: withReturns (tail ++ next.cut.after) :=
        after_of_pastReturn leads returned shape
      rw [List.forall_mem_cons] at spaces
      have otherSpaces : ∀ character ∈ '\n' :: withReturns tail,
          isSpace character = true :=
        List.forall_mem_cons.mpr ⟨rfl, forall_mem_withReturns rfl spaces.2⟩
      rw [withReturns_append, ← List.cons_append] at ahead
      obtain ⟨otherTaken, otherNext, stepOther, raw, content⟩ :=
        exists_step_of_spaces ahead (List.cons_ne_nil _ _) otherSpaces
          (isSpace_head?_withReturns stops)
      have otherGoing := returned.trans (leads_of_step? stepOther)
      have whole : withReturns done ++ ['\r'] ++ otherTaken.raw =
          withReturns (done ++ taken.raw) := by
        rw [raw, isRaw, withReturns_append, withReturns_newline,
          List.append_assoc]
        rfl
      rw [whole] at otherGoing
      exact follows_of_skipped stepOther skipped content
        (.same (leads.trans going) otherGoing)

/-- A comment up to the end of its line takes the return of that end. -/
theorem follows_comment
    {first : Char}
    {tail : List Char}
    (leads : (ofText .plain text).Leads done scanner)
    (returned : (ofText .plain (withReturns text)).Leads
      (withReturns done) other)
    (step : scanner.step? .plain = some (taken, next))
    (skipped : taken.content = .skipped)
    (raw : taken.raw = first :: tail)
    (visible : first ≠ '\n')
    (line : (firstLine (tail ++ next.cut.after)).length = tail.length)
    (otherPiece :
      (cutPiece .plain () other.cut.before other.cut.offset first
          (withReturns (tail ++ next.cut.after))).1 =
        lineCommentPiece (withReturns (tail ++ next.cut.after))) :
    Follows text done taken next other := by
  have shape := (takes_of_step? step).after
  have going := leads.trans (leads_of_step? step)
  have passed : firstLine (tail ++ next.cut.after) = tail :=
    (run_of_length line).1
  have ends := atLineEnd_drop_firstLine (tail ++ next.cut.after)
  rw [passed, List.drop_left] at ends
  have oneLine : '\n' ∉ tail := passed ▸ newline_not_mem_firstLine _
  have ahead := after_of_same leads returned
  rw [shape, raw, List.cons_append, withReturns_cons visible,
    withReturns_append, withReturns_of_oneLine oneLine] at ahead
  rw [withReturns_append, withReturns_of_oneLine oneLine] at otherPiece
  cases behind : next.cut.after with
  | nil =>
      rw [behind] at ahead otherPiece
      obtain ⟨otherTaken, otherNext, stepOther, otherRaw, content⟩ :=
        exists_step_of_line ahead otherPiece oneLine fun _ member => by
          cases member
      have otherGoing := returned.trans (leads_of_step? stepOther)
      have same : otherTaken.raw = withReturns taken.raw := by
        rw [otherRaw, raw, withReturns_cons visible,
          withReturns_of_oneLine oneLine]
      rw [same, ← withReturns_append] at otherGoing
      exact follows_of_skipped stepOther skipped content
        (.same going otherGoing)
  | cons feed later =>
      obtain rfl : feed = '\n' := ends feed (by rw [behind]; rfl)
      have moved : tail ++ withReturns ('\n' :: later) =
          (tail ++ ['\r']) ++ '\n' :: withReturns later := by
        rw [withReturns_newline, List.append_assoc]
        rfl
      rw [behind, moved] at ahead otherPiece
      obtain ⟨otherTaken, otherNext, stepOther, otherRaw, content⟩ :=
        exists_step_of_line ahead otherPiece (by simpa using oneLine)
          (by simp [AtLineEnd])
      have otherGoing := returned.trans (leads_of_step? stepOther)
      have whole :
          withReturns done ++ otherTaken.raw =
            withReturns (done ++ taken.raw) ++ ['\r'] := by
        rw [otherRaw, raw, withReturns_append, withReturns_cons visible,
          withReturns_of_oneLine oneLine, List.append_assoc]
        rfl
      rw [whole] at otherGoing
      exact follows_of_skipped stepOther skipped content
        (.pastReturn going otherGoing (by rw [behind]; rfl))

/-- A piece that grows by its returns makes the same lexeme. -/
theorem follows_piece
    {first : Char}
    {tail : List Char}
    (leads : (ofText .plain text).Leads done scanner)
    (returned : (ofText .plain (withReturns text)).Leads
      (withReturns done) other)
    (step : scanner.step? .plain = some (taken, next))
    (raw : taken.raw = first :: tail)
    (visible : first ≠ '\n')
    (otherPiece :
      (cutPiece .plain () other.cut.before other.cut.offset first
          (withReturns (tail ++ next.cut.after))).1 =
        ⟨(withReturns tail).length, taken.content⟩) :
    Follows text done taken next other := by
  have takes := takes_of_step? step
  have going := leads.trans (leads_of_step? step)
  have ahead := after_of_same leads returned
  rw [takes.after, raw, List.cons_append, withReturns_cons visible,
    withReturns_append] at ahead
  rw [withReturns_append] at otherPiece
  obtain ⟨otherTaken, otherNext, stepOther, otherRaw, content⟩ :=
    exists_step_of_piece ahead otherPiece
  have same : otherTaken.raw = withReturns taken.raw := by
    rw [otherRaw, raw, withReturns_cons visible]
  have otherGoing := returned.trans (leads_of_step? stepOther)
  rw [same, ← withReturns_append] at otherGoing
  refine ⟨otherTaken, otherNext, stepOther, ?_, .same going otherGoing⟩
  refine lexeme?_withReturns
    (fun kind lexeme isToken => (takes.kind kind lexeme isToken).2) same ?_
    content
  rw [(takes_of_step? stepOther).span, takes.span, relabel_span,
    offset_of_same leads returned, offset_of_same going otherGoing]
  rfl

/--
A piece that opens with a visible character is followed from the same place.
-/
theorem follows_visible
    (leads : (ofText .plain text).Leads done scanner)
    (returned : (ofText .plain (withReturns text)).Leads
      (withReturns done) other)
    (step : scanner.step? .plain = some (taken, next))
    {first : Char}
    {tail : List Char}
    (raw : taken.raw = first :: tail)
    (piece :
      (cutPiece .plain () scanner.cut.before scanner.cut.offset first
        (tail ++ next.cut.after)).1 = ⟨tail.length, taken.content⟩)
    (visible : isSpace first = false) :
    Follows text done taken next other := by
  have noFeed : first ≠ '\n' := by
    rintro rfl
    cases visible
  have begins := Opening.begins scanner.cut.before first
      (tail ++ next.cut.after)
  have sameStart (_ : first = '*') :
      atLineStart other.cut.before = atLineStart scanner.cut.before :=
    atLineStart_of_same leads returned
  have same :
      Opening.of other.cut.before first (withReturns (tail ++ next.cut.after)) =
        Opening.of scanner.cut.before first (tail ++ next.cut.after) :=
    Opening.of_withReturns sameStart
  cases opening : Opening.of scanner.cut.before first (tail ++ next.cut.after)
    with
  | space =>
      rw [opening, Opening.Begins, visible] at begins
      cases begins
  | lineComment | starComment =>
      rw [opening] at same
      rw [cutPiece, opening] at piece
      obtain ⟨length, content⟩ := Piece.mk.inj piece
      refine follows_comment leads returned step content.symm raw
        noFeed length ?_
      rw [cutPiece, same]
  | blockComment =>
      rw [opening] at same begins
      rw [cutPiece, opening] at piece
      dsimp only at piece
      refine follows_piece leads returned step raw noFeed ?_
      rw [cutPiece, same]
      dsimp only
      rw [blockCommentPiece_withReturns begins.2, piece, List.take_left]
  | _ =>
      have noGap :
          (Opening.of scanner.cut.before first (tail ++ next.cut.after)).isGap =
            false := by
        rw [opening]
        rfl
      have oneLine := newline_not_mem_tail scanner.cut.offset noGap
      rw [piece, List.take_left] at oneLine
      refine follows_piece leads returned step raw noFeed ?_
      rw [cutPiece_withReturns noFeed sameStart noGap, piece,
        withReturns_of_oneLine oneLine]

/-- Scanners that are abreast make the same step. -/
theorem Abreast.follows
    (abreast : Abreast text done scanner other)
    (step : scanner.step? .plain = some (taken, next)) :
    Follows text done taken next other := by
  obtain ⟨first, tail, raw, shape, piece⟩ := piece_of_step? step
  cases space : isSpace first with
  | true =>
      obtain ⟨skipped, spaces, stops⟩ := spaces_of_step? step raw space
      exact abreast.follows_spaces step skipped spaces stops
  | false =>
      cases abreast with
      | same leads returned =>
          exact follows_visible leads returned step raw piece space
      | pastReturn leads returned feed =>
          rw [shape] at feed
          cases Option.some.inj feed
          cases space

/-! ## Scans -/

/-- Scanners that are abreast find the same lexemes. -/
theorem Abreast.lexemes_eq
    (abreast : Abreast text done scanner other) :
    other.lexemes .plain =
      (scanner.lexemes .plain).map (relabel (.returned text)) := by
  refine lexemes_eq_map
    (fun scanner other => ∃ done, Abreast text done scanner other) ?_ ?_
    ⟨done, abreast⟩
  · rintro scanner other ⟨done, leads, returned⟩ atEnd
    · have otherEnd := after_of_same leads returned
      rw [atEnd] at otherEnd
      refine ⟨otherEnd, ?_⟩
      rw [offset_of_same leads returned]
      rfl
    · next feed =>
        rw [atEnd] at feed
        cases feed
  · rintro scanner other taken next ⟨done, abreast⟩ step
    obtain ⟨otherTaken, otherNext, stepOther, same, later⟩ :=
      abreast.follows step
    exact ⟨otherTaken, otherNext, stepOther, same, _, later⟩

end Scanner

/--
The lexemes of the text with the returns are
those of the text, with their offsets moved.
-/
theorem all_withReturns (text : List Char) :
    all (withReturns text) = (all text).map (relabel (.returned text)) := by
  rw [all_eq_allWith_plain, all_eq_allWith_plain]
  exact (Scanner.Abreast.same (Scanner.leads_refl _)
    (Scanner.leads_refl _)).lexemes_eq

end Clipper.Lexeme
