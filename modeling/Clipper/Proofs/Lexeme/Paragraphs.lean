import Clipper.Proofs.Lexeme.Excerpt
import Clipper.Proofs.Lexeme.LinePieces
import Clipper.Proofs.Lexeme.ReaderSimulation
import Clipper.Proofs.Lexeme.ScannerRuns

/-!
# Paragraphs are scanned alone

Where a text ends with a line and the next text begins with an empty line, no
piece looks from one text into the other: strings, words and comments to the end
of a line stay on their lines, a semicolon sees that the next line is blank, and
a block comment that is closed is closed before the end.  Only the spaces
between the texts are skipped in one piece.  So the lexemes of both texts
together are those of the first one, and those of the second one moved behind
it.

The proof follows the scanner of the first text and the scanner of both.
Before the border every piece is the same, and at the border the second
scanner skips the spaces of both texts at once.  The theorem has two
conditions, and both are needed: without the empty line a semicolon could
continue over the border, and with an open comment the second text would be
part of it.
-/

namespace Clipper

open Source

/-- The span that lies further behind. -/
def Span.shift
    (width : Nat)
    (span : Span) :
    Span :=
  ⟨span.start + width, span.stop + width⟩

/-- The token that lies further behind. -/
def Token.shift
    (width : Nat)
    (token : Token) :
    Token :=
  { token with span := token.span.shift width }

namespace Lexeme

/-- The lexeme that lies further behind. -/
def shift
    (width : Nat)
    (lexeme : Lexeme) :
    Lexeme :=
  lexeme.moveTo (lexeme.token.span.shift width)

variable {before rest second : List Char} {offset : Nat} {first : Char}

/-! ## Lines at the end of a text -/

/-- A line that ends within a text is the same when more text follows. -/
theorem firstLine_append_of_mem
    {text : List Char}
    (line : '\n' ∈ text)
    (more : List Char) :
    firstLine (text ++ more) = firstLine text := by
  obtain ⟨inner, later, rfl, oneLine⟩ := List.eq_append_cons_of_mem line
  have inLine : ∀ character ∈ inner, (character != '\n') = true := by
    intro character member
    refine bne_iff_ne.mpr ?_
    rintro rfl
    exact oneLine member
  rw [List.append_assoc, List.cons_append, firstLine, firstLine,
    takeWhile_append_of_head inLine (by simp),
    takeWhile_append_of_head inLine (by simp)]

/-- What is left of a text that ends with a line ends with the line. -/
theorem getLast?_dropWhile
    (test : Char → Bool)
    {text : List Char}
    (stops : test '\n' = false)
    (ends : text.getLast? = some '\n') :
    text.dropWhile test ≠ [] ∧ (text.dropWhile test).getLast? = some '\n' := by
  have nonempty : text.dropWhile test ≠ [] := by
    intro none
    have passed := List.dropWhile_eq_nil_iff.mp none '\n'
        (List.mem_of_getLast? ends)
    rw [stops] at passed
    cases passed
  refine ⟨nonempty, ?_⟩
  rw [← ends]
  conv_rhs => rw [← List.takeWhile_append_dropWhile (p := test) (l := text)]
  exact (List.getLast?_append_of_ne_nil _ nonempty).symm

/--
The blanks and the comment at the beginning
of a text end before its last line feed.
-/
theorem afterBlanksAndComment_of_ends
    (ends : rest.getLast? = some '\n')
    (second : List Char) :
    (afterBlanksAndComment rest).getLast? = some '\n' ∧
      afterBlanksAndComment (rest ++ second) = afterBlanksAndComment rest ++
        second := by
  obtain ⟨nonempty, endsBehind⟩ := getLast?_dropWhile isBlank rfl ends
  simp only [afterBlanksAndComment, dropWhile_append_of_ne_nil nonempty]
  generalize rest.dropWhile isBlank = line at nonempty endsBehind ⊢
  have sameComment : opensLineComment (line ++ second) =
      opensLineComment line := by
    obtain ⟨first, tail, rfl⟩ := List.exists_cons_of_ne_nil nonempty
    rw [Bool.eq_iff_iff, List.cons_append, opensLineComment_cons,
      opensLineComment_cons]
    cases tail with
    | nil =>
        obtain rfl : first = '\n' := Option.some.inj endsBehind
        simp
    | cons next tail => exact Iff.rfl
  rw [sameComment]
  split
  · obtain ⟨nonemptyBehind, endsLine⟩ :=
      getLast?_dropWhile (· != '\n') (by decide) endsBehind
    exact ⟨endsLine, dropWhile_append_of_ne_nil nonemptyBehind⟩
  · exact ⟨endsBehind, rfl⟩

/-- A semicolon does not continue its line over an empty line. -/
theorem continuesLine_paragraph
    (ends : rest.getLast? = some '\n')
    (begins : second.head? = some '\n') :
    continuesLine (';' :: (rest ++ second)) = continuesLine (';' :: rest) := by
  obtain ⟨endsBehind, behind⟩ := afterBlanksAndComment_of_ends ends second
  rw [continuesLine, continuesLine, behind]
  cases shape : afterBlanksAndComment rest with
  | nil =>
      rw [shape] at endsBehind
      cases endsBehind
  | cons character next =>
      by_cases feed : character = '\n'
      · subst feed
        change (firstLine (next ++ second)).any _ = (firstLine next).any _
        cases next with
        | nil =>
            obtain ⟨later, rfl⟩ := List.head?_eq_some_iff.mp begins
            rfl
        | cons following next =>
            rw [shape, List.getLast?_cons_cons] at endsBehind
            rw [firstLine_append_of_mem (List.mem_of_getLast? endsBehind)]
      · simp [feed]

/-! ## Pieces at the end of a text -/

/-- The fault of a piece that is no token. -/
def Content.fault? : Content → Option Fault
  | .fault cause => some cause
  | _ => none

theorem extra_semicolonPiece (rest : List Char) :
    (semicolonPiece rest).extra = 0 := by
  unfold semicolonPiece
  split <;> rfl

theorem fault?_semicolonPiece (rest : List Char) :
    (semicolonPiece rest).content.fault? = none := by
  unfold semicolonPiece
  split <;> rfl

/-- A block comment that is closed ends where it is closed, whatever follows. -/
theorem blockCommentPiece_append
    (star : rest.head? = some '*')
    (closed : (blockCommentPiece rest).content ≠ .fault .openComment)
    (more : List Char) :
    blockCommentPiece (rest ++ more) = blockCommentPiece rest := by
  obtain ⟨inside, rfl⟩ := List.head?_eq_some_iff.mp star
  cases found : commentLength? inside with
  | none => simp [blockCommentPiece, found] at closed
  | some length =>
      have foundBefore : commentLength? (inside ++ more) = some length :=
        commentLength?_append found
      simp [blockCommentPiece, found, foundBefore]

/--
The visible pieces of a text that ends with a line reach as far and have the
same faults before any text.  Only a semicolon looks at the next line, and an
empty one is as good as none.
-/
theorem cutPiece_ended
    (visible : isSpace first = false)
    (ends : rest.getLast? = some '\n')
    (closed : (cutPiece .plain () before offset first rest).1.content ≠
      .fault .openComment)
    (second : List Char) :
    let piece := (cutPiece .plain () before offset first rest).1
    let other := (cutPiece .plain () before offset first (rest ++ second)).1
    other.extra = piece.extra ∧ other.content.fault? = piece.content.fault? ∧
      (second.head? = some '\n' → other.content = piece.content) := by
  intro piece other
  have nonempty : rest ≠ [] := by
    rintro rfl
    cases ends
  have noFeed : first ≠ '\n' := by
    rintro rfl
    cases visible
  have same : Opening.of before first (rest ++ second) =
      Opening.of before first rest := by
    refine Opening.of_congr (fun _ => rfl) fun _ _ => ?_
    rw [List.head?_append_of_ne_nil _ nonempty]
  have alike (equal : other = piece) :
      other.extra = piece.extra ∧ other.content.fault? = piece.content.fault? ∧
        (second.head? = some '\n' → other.content = piece.content) := by
    rw [equal]
    exact ⟨rfl, rfl, fun _ => rfl⟩
  have opens := Opening.begins before first rest
  -- Block comments and semicolons look behind their line, and the other pieces
  -- do not.
  cases opening : Opening.of before first rest with
  | space =>
      rw [opening, Opening.Begins, visible] at opens
      cases opens
  | blockComment =>
      rw [opening] at opens
      rw [cutPiece, opening] at closed
      refine alike ?_
      change (cutPiece _ _ _ _ _ _).1 = (cutPiece _ _ _ _ _ _).1
      rw [cutPiece, cutPiece, same, opening]
      exact blockCommentPiece_append opens.2 closed second
  | semicolon =>
      have shape : piece = semicolonPiece rest := by
        change (cutPiece _ _ _ _ _ _).1 = _
        rw [cutPiece, opening]
      have otherShape : other = semicolonPiece (rest ++ second) := by
        change (cutPiece _ _ _ _ _ _).1 = _
        rw [cutPiece, same, opening]
      rw [shape, otherShape]
      refine ⟨?_, ?_, fun begins => ?_⟩
      · rw [extra_semicolonPiece, extra_semicolonPiece]
      · rw [fault?_semicolonPiece, fault?_semicolonPiece]
      · simp only [semicolonPiece, continuesLine_paragraph ends begins]
  | _ =>
      refine alike (cutPiece_of_line
        (firstLine_append_of_mem (List.mem_of_getLast? ends) _) noFeed
        (fun _ => rfl) ?_)
      rw [opening]
      rfl

/--
A piece does not depend on its offset, nor on what stands before its line.
-/
theorem cutPiece_of_start
    {other : List Char}
    (sameStart : first = '*' → atLineStart other = atLineStart before)
    (place offset : Nat)
    (rest : List Char) :
    (cutPiece .plain () other place first rest).1 =
      (cutPiece .plain () before offset first rest).1 := by
  have same : Opening.of other first rest = Opening.of before first rest :=
    Opening.of_congr sameStart fun _ _ => Iff.rfl
  cases opening : Opening.of before first rest with
  | space | blockComment | semicolon => rw [cutPiece, cutPiece, same, opening]
  | _ =>
      have noFeed : first ≠ '\n' := by
        rintro rfl
        cases opening
      refine cutPiece_of_line rfl noFeed sameStart ?_
      rw [opening]
      rfl

/-! ## Scanners further behind -/

namespace Scanner

/--
The second scanner is further behind, at the
same text, and begins a line as the first does.
-/
structure Behind
    (width : Nat)
    (scanner other : Scanner Unit) :
    Prop where
  after : other.cut.after = scanner.cut.after
  offset : other.cut.offset = scanner.cut.offset + width
  starts : atLineStart other.cut.before = atLineStart scanner.cut.before

/-- Behind the same characters, places begin a line alike if they did before. -/
theorem atLineStart_append_congr
    {earlier later : List Char}
    (same : atLineStart later = atLineStart earlier)
    (before : List Char) :
    atLineStart (before ++ later) = atLineStart (before ++ earlier) := by
  by_cases visible : ∃ character ∈ before, isBlank character = false
  · rw [atLineStart_append visible, atLineStart_append visible]
  · have blank : ∀ character ∈ before, isBlank character = true := by
      intro character member
      rw [← Bool.not_eq_false]
      exact fun isVisible => visible ⟨character, member, isVisible⟩
    rw [atLineStart, atLineStart, List.dropWhile_append_of_pos blank,
      List.dropWhile_append_of_pos blank]
    exact same

/-- A scanner further behind finds the same lexemes there. -/
theorem Behind.lexemes_eq
    {width : Nat}
    {scanner other : Scanner Unit}
    (behind : Behind width scanner other) :
    other.lexemes .plain = (scanner.lexemes .plain).map (shift width) := by
  refine lexemes_eq_map (Behind width) ?_ ?_ behind
  · intro scanner other behind atEnd
    refine ⟨behind.after.trans atEnd, ?_⟩
    rw [behind.offset]
    rfl
  · intro scanner other taken next behind step
    obtain ⟨first, tail, raw, shape, piece⟩ := piece_of_step? step
    have ahead : other.cut.after = first :: (tail ++ next.cut.after) :=
      behind.after.trans shape
    obtain ⟨otherTaken, otherNext, stepOther, otherRaw, content⟩ :=
      exists_step_of_piece ahead
        ((cutPiece_of_start (fun _ => behind.starts) _ _ _).trans piece)
    have sameRaw : otherTaken.raw = taken.raw := otherRaw.trans raw.symm
    have takes := takes_of_step? step
    have otherTakes := takes_of_step? stepOther
    have moved : otherNext.cut.offset = next.cut.offset + width := by
      rw [otherTakes.offset, takes.offset, behind.offset, sameRaw]
      omega
    refine ⟨otherTaken, otherNext, stepOther, ?_, ?_, moved, ?_⟩
    · have span : otherTaken.span = taken.span.shift width := by
        rw [otherTakes.span, takes.span, moved, behind.offset]
        rfl
      rw [Taken.lexeme?, Taken.lexeme?, content, sameRaw, span]
      cases taken.content <;> rfl
    · have whole := otherTakes.after
      rw [behind.after, takes.after, sameRaw] at whole
      exact (List.append_cancel_left whole).symm
    · rw [otherTakes.before, takes.before, sameRaw]
      exact atLineStart_append_congr behind.starts _

/-! ## Spaces are skipped -/

/-- From one place, the same text leads to one place. -/
theorem Leads.unique
    {scanner last other : Scanner Unit}
    {raw : List Char}
    (leads : scanner.Leads raw last)
    (leadsOther : scanner.Leads raw other) :
    last = other := by
  have after : last.cut.after = other.cut.after :=
    List.append_cancel_left (leads.after.symm.trans leadsOther.after)
  have before := leads.before.trans leadsOther.before.symm
  have offset := leads.offset.trans leadsOther.offset.symm
  obtain ⟨⟨_, _, _⟩, _⟩ := last
  obtain ⟨⟨_, _, _⟩, _⟩ := other
  cases after
  cases before
  cases offset
  rfl

/-- Behind some of the spaces ahead, the same lexemes are left. -/
theorem Leads.lexemes_of_spaces
    {scanner last : Scanner Unit}
    {gap : List Char}
    (leads : scanner.Leads gap last)
    (spaces : ∀ character ∈ gap, isSpace character = true) :
    scanner.lexemes .plain = last.lexemes .plain := by
  cases gap with
  | nil => rw [leads.unique (leads_refl scanner)]
  | cons first tail =>
      have whole : first :: tail ++ last.cut.after.takeWhile isSpace ++
          last.cut.after.dropWhile isSpace = scanner.cut.after := by
        rw [leads.after, List.append_assoc, List.takeWhile_append_dropWhile]
      have stops : ∀ character ∈ (last.cut.after.dropWhile isSpace).head?,
          isSpace character = false := by
        intro character member
        have stop := List.head?_dropWhile_not isSpace last.cut.after
        rw [member] at stop
        simpa using stop
      have run : ∀ character ∈ last.cut.after.takeWhile isSpace,
          isSpace character = true :=
        fun _ member => List.mem_takeWhile_imp member
      obtain ⟨taken, next, step, raw, content⟩ :=
        exists_step_of_spaces whole.symm (by simp)
          (List.forall_mem_append.mpr ⟨spaces, run⟩) stops
      have going := leads_of_step? step
      rw [raw] at going
      rw [lexemes_of_step? step, lexeme?_of_skipped content]
      by_cases none : last.cut.after.takeWhile isSpace = []
      -- Either the first of the two steps goes as far, or a second one takes
      -- the other spaces.
      · rw [none, List.append_nil] at going
        rw [going.unique leads]
        rfl
      · obtain ⟨takenLast, nextLast, stepLast, rawLast, contentLast⟩ :=
          exists_step_of_spaces
            (List.takeWhile_append_dropWhile (p := isSpace)).symm none run stops
        have goingLast := leads.trans (rawLast ▸ leads_of_step? stepLast)
        rw [lexemes_of_step? stepLast, lexeme?_of_skipped contentLast,
          going.unique goingLast]

/-! ## Paragraphs -/

/-- The second scanner has more text behind the text of the first. -/
structure Followed
    (more : List Char)
    (scanner other : Scanner Unit) :
    Prop where
  before : other.cut.before = scanner.cut.before
  after : other.cut.after = scanner.cut.after ++ more
  offset : other.cut.offset = scanner.cut.offset

/--
The text that is left ends with a line, or
nothing is left behind the end of a line.
-/
def EndsLine (scanner : Scanner Unit) : Prop :=
  scanner.cut.after.getLast? = some '\n' ∨
    scanner.cut.after = [] ∧ atLineStart scanner.cut.before = true

variable {more : List Char} {scanner next other : Scanner Unit} {taken : Taken}

/-- A step over the same characters keeps the text behind. -/
theorem Followed.onward
    {otherNext : Scanner Unit}
    (followed : Followed more scanner other)
    (step : scanner.step? .plain = some (taken, next))
    (going : other.Leads taken.raw otherNext) :
    Followed more next otherNext := by
  have takes := takes_of_step? step
  refine ⟨?_, ?_, ?_⟩
  · rw [going.before, takes.before, followed.before]
  · have whole := going.after
    rw [followed.after, takes.after, List.append_assoc] at whole
    exact (List.append_cancel_left whole).symm
  · rw [going.offset, takes.offset, followed.offset]

/--
A step leaves a text that ends with a line,
or it passes the end of the last line.
-/
theorem EndsLine.onward
    (ends : scanner.EndsLine)
    (step : scanner.step? .plain = some (taken, next)) :
    next.EndsLine := by
  have takes := takes_of_step? step
  obtain ⟨first, tail, raw, shape, -⟩ := piece_of_step? step
  rcases ends with ends | ⟨atEnd, -⟩
  · rw [takes.after] at ends
    by_cases left : next.cut.after = []
    · refine .inr ⟨left, ?_⟩
      rw [left, List.append_nil, List.getLast?_eq_some_iff] at ends
      obtain ⟨line, ends⟩ := ends
      rw [takes.before, ends, List.reverse_append]
      rfl
    · rw [List.getLast?_append_of_ne_nil _ left] at ends
      exact .inl ends
  · rw [shape] at atEnd
    cases atEnd

/--
With more text behind it, a scanner takes the
same piece off, up to what a semicolon is.
-/
theorem Followed.step
    (followed : Followed more scanner other)
    (ends : scanner.EndsLine)
    (step : scanner.step? .plain = some (taken, next))
    (closed : taken.content ≠ .fault .openComment) :
    ∃ content otherNext, Followed more next otherNext ∧
      other.lexemes .plain =
          (ofContent? taken.raw taken.span content).toList ++
            otherNext.lexemes .plain ∧
        content.fault? = taken.content.fault? ∧
          (more.head? = some '\n' → content = taken.content) := by
  obtain ⟨first, tail, raw, shape, piece⟩ := piece_of_step? step
  have ahead : other.cut.after =
      first :: (tail ++ (next.cut.after ++ more)) := by
    rw [followed.after, shape, List.append_assoc]
    rfl
  cases visible : isSpace first with
  | true =>
      -- The spaces of both texts are one piece, so the step of `other` may go
      -- further.
      obtain ⟨skipped, spaces, -⟩ := spaces_of_step? step raw visible
      have takes := takes_of_step? step
      let place : Scanner Unit :=
        ⟨⟨next.cut.before, next.cut.after ++ more, next.cut.offset⟩, ()⟩
      have going : other.Leads taken.raw place := by
        refine ⟨?_, ?_, ?_⟩
        · rw [ahead, raw]
          rfl
        · rw [followed.before]
          exact takes.before
        · rw [followed.offset]
          exact takes.offset
      refine ⟨taken.content, place, ⟨rfl, rfl, rfl⟩, ?_, rfl, fun _ => rfl⟩
      rw [going.lexemes_of_spaces spaces, skipped]
      rfl
  | false =>
      have endsTail : (tail ++ next.cut.after).getLast? = some '\n' := by
        rcases ends with ends | ⟨atEnd, -⟩
        · rw [shape, List.cons_append, List.getLast?_cons] at ends
          cases last : (tail ++ next.cut.after).getLast? with
          | none =>
              rw [last] at ends
              obtain rfl : first = '\n' := Option.some.inj ends
              cases visible
          | some character =>
              rw [last] at ends
              exact ends
        · rw [shape] at atEnd
          cases atEnd
      rw [← followed.before, ← followed.offset] at piece
      have pieceOther := cutPiece_ended visible endsTail (by rwa [piece]) more
      rw [piece, List.append_assoc] at pieceOther
      obtain ⟨extra, fault, content⟩ := pieceOther
      obtain ⟨otherTaken, otherNext, stepOther, otherRaw, otherContent⟩ :=
        exists_step_of_piece ahead (congrArg (Piece.mk · _) extra)
      have sameRaw : otherTaken.raw = taken.raw := otherRaw.trans raw.symm
      have onward := followed.onward step (sameRaw ▸ leads_of_step? stepOther)
      rw [← otherContent] at fault content
      refine ⟨otherTaken.content, otherNext, onward, ?_, fault, content⟩
      have span : otherTaken.span = taken.span := by
        rw [(takes_of_step? stepOther).span, (takes_of_step? step).span,
          onward.offset, followed.offset]
      rw [lexemes_of_step? stepOther, Taken.lexeme?, sameRaw, span]

/-- At the end of a line, what is left ahead is the text behind. -/
theorem Followed.behind_of_ended
    (followed : Followed more scanner other)
    (atEnd : scanner.cut.after = [])
    (starts : atLineStart scanner.cut.before = true) :
    Behind scanner.cut.offset (ofText .plain more) other := by
  refine ⟨?_, ?_, ?_⟩
  · rw [followed.after, atEnd]
    rfl
  · rw [followed.offset]
    exact (Nat.zero_add _).symm
  · rw [followed.before, starts]
    rfl

/--
With an empty line behind the text, its
lexemes come before those of the text behind.
-/
theorem Followed.lexemes
    {scanner other : Scanner Unit}
    (followed : Followed more scanner other)
    (ends : scanner.EndsLine)
    (begins : more.head? = some '\n')
    (closed : ∀ lexeme ∈ scanner.lexemes .plain,
      lexeme.fault? ≠ some .openComment) :
    ∃ body,
      scanner.lexemes .plain =
          body ++
            [endOfFile (scanner.cut.offset + byteWidth scanner.cut.after)] ∧
        other.lexemes .plain =
          body ++
            (allWith .plain more).map
              (shift (scanner.cut.offset + byteWidth scanner.cut.after)) := by
  cases step : scanner.step? .plain with
  | none =>
      have atEnd := (step?_eq_none_iff scanner).mp step
      refine ⟨[], ?_, ?_⟩
      · rw [lexemes_of_ended step, atEnd]
        rfl
      · have starts : atLineStart scanner.cut.before = true := by
          rcases ends with ends | ⟨-, starts⟩
          · rw [atEnd] at ends
            cases ends
          · exact starts
        have behind := followed.behind_of_ended atEnd starts
        rw [atEnd]
        exact behind.lexemes_eq
  | some result =>
      obtain ⟨taken, next⟩ := result
      rw [lexemes_of_step? step] at closed ⊢
      have closedPiece : taken.content ≠ .fault .openComment := by
        intro opened
        refine closed ⟨⟨.error, taken.span, String.ofList taken.raw⟩,
          some .openComment⟩ ?_ rfl
        rw [Taken.lexeme?, opened]
        exact List.mem_cons_self
      obtain ⟨content, otherNext, onward, found, -, same⟩ :=
        followed.step ends step closedPiece
      rw [same begins] at found
      obtain ⟨body, own, behind⟩ :=
        onward.lexemes (ends.onward step) begins fun lexeme member =>
          closed lexeme (List.mem_append_right _ member)
      have takes := takes_of_step? step
      have width : next.cut.offset + byteWidth next.cut.after =
          scanner.cut.offset + byteWidth scanner.cut.after := by
        rw [takes.offset, takes.after, byteWidth_append, Nat.add_assoc]
      rw [width] at own behind
      refine ⟨taken.lexeme?.toList ++ body, ?_, ?_⟩
      · rw [own, List.append_assoc]
      · rw [found, behind, List.append_assoc]
        rfl
termination_by scanner.cut.after.length
decreasing_by exact step?_shorter step

end Scanner

theorem spannedFault?_shift
    (width : Nat)
    (lexeme : Lexeme) :
    (lexeme.shift width).spannedFault? =
      lexeme.spannedFault?.map
        (fun fault => (fault.1, fault.2.shift width)) := by
  cases lexeme with
  | mk token fault? => cases fault? <;> rfl

theorem tokens_shift
    (width : Nat)
    (lexemes : List Lexeme) :
    tokens (lexemes.map (shift width)) =
      (tokens lexemes).map (Token.shift width) := by
  rw [tokens, tokens, List.map_map, List.map_map]
  rfl

theorem faults_shift
    (width : Nat)
    (lexemes : List Lexeme) :
    faults (lexemes.map (shift width)) =
      (faults lexemes).map (fun fault => (fault.1, fault.2.shift width)) := by
  rw [faults, faults, List.filterMap_map, List.map_filterMap]
  exact congrArg (List.filterMap · lexemes) (funext (spannedFault?_shift width))

/--
The lexemes of the text behind an empty line
come behind those of the text before it.
-/
theorem all_append_paragraph
    {text more : List Char}
    (ends : text = [] ∨ text.getLast? = some '\n')
    (begins : more.head? = some '\n')
    (closed : ∀ lexeme ∈ all text, lexeme.fault? ≠ some .openComment) :
    ∃ body,
      all text = body ++ [endOfFile (byteWidth text)] ∧
        all (text ++ more) = body ++
          (all more).map (shift (byteWidth text)) := by
  have endsLine : (Scanner.ofText .plain text).EndsLine := by
    rcases ends with rfl | ends
    · exact .inr ⟨rfl, rfl⟩
    · exact .inl ends
  have followed : Scanner.Followed more (.ofText .plain text)
      (.ofText .plain (text ++ more)) :=
    ⟨rfl, rfl, rfl⟩
  have width : (Scanner.ofText .plain text).cut.offset +
      byteWidth (Scanner.ofText .plain text).cut.after = byteWidth text :=
    Nat.zero_add _
  simp only [all_eq_allWith_plain] at closed ⊢
  rw [← width]
  exact followed.lexemes endsLine begins closed

/--
Where a text ends with a line, has no open comment, and the next text begins
with an empty line, the tokens and faults of both texts together are those of
the first text without its end, and behind them those of the second text moved
by the first text's width.
-/
theorem all_paragraphs
    (text more : List Char)
    (ends : text = [] ∨ text.getLast? = some '\n')
    (begins : more.head? = some '\n')
    (closed : ∀ fault ∈ faults (all text), fault.1 ≠ .openComment) :
    ∃ body,
      tokens (all text) = body ++ [.endOfFile (byteWidth text)] ∧
        tokens (all (text ++ more)) =
            body ++ (tokens (all more)).map (Token.shift (byteWidth text)) ∧
          faults (all (text ++ more)) =
            faults (all text) ++
              (faults (all more)).map
                (fun fault => (fault.1, fault.2.shift (byteWidth text))) := by
  have noneOpen : ∀ lexeme ∈ all text, lexeme.fault? ≠ some .openComment := by
    intro lexeme member opened
    have isFault : (.openComment, lexeme.token.span) ∈ faults (all text) := by
      refine List.mem_filterMap.mpr ⟨lexeme, member, ?_⟩
      rw [spannedFault?, opened]
      rfl
    exact closed _ isFault rfl
  obtain ⟨body, own, both⟩ := all_append_paragraph ends begins noneOpen
  refine ⟨tokens body, ?_, ?_, ?_⟩
  · rw [own, tokens, List.map_append]
    rfl
  · rw [both, ← tokens_shift, tokens, tokens, tokens, List.map_append]
  · have noFault : [endOfFile (byteWidth text)].filterMap spannedFault? = [] :=
      rfl
    rw [both, ← faults_shift, own, faults, faults, faults,
      List.filterMap_append, List.filterMap_append, noFault, List.append_nil]

/--
A star that begins the line behind an empty line begins a comment in both texts.
-/
theorem all_paragraphs_comment :
    ∃ body,
      tokens (all "x := [a] /* y */ ;\n".toList) = body ++ [.endOfFile 19] ∧
        tokens (all ("x := [a] /* y */ ;\n".toList ++ "\n* z\n\"".toList)) =
            body ++ (tokens (all "\n* z\n\"".toList)).map (Token.shift 19) ∧
          faults (all ("x := [a] /* y */ ;\n".toList ++ "\n* z\n\"".toList)) =
            faults (all "x := [a] /* y */ ;\n".toList) ++
              (faults (all "\n* z\n\"".toList)).map
                (fun fault => (fault.1, fault.2.shift 19)) :=
  all_paragraphs "x := [a] /* y */ ;\n".toList "\n* z\n\"".toList
    (.inr (by decide)) (by decide) (by decide +kernel)

end Lexeme

end Clipper
