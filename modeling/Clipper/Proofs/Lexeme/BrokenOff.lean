import Clipper.Proofs.Lexeme.Paragraphs

/-!
# Texts that break off

Let a text end with a line, and let more text follow.  Strings, words and
comments to the end of a line do not reach across, and a semicolon has no fault
whatever the next line is. A block comment alone goes on in the text that
follows, if the first text breaks off within it.  So the faults of both texts
together are those of the first text up to its open comment, and those of the
second text behind the opening of a comment, if there is an open one.

A scanner of the longer text is followed up to the step that leaves the first
text.  Before that step both scanners cut the same pieces, apart from what the
end of the text does to a semicolon.  The step itself either ends exactly at
the border, or it is the step of a block comment; then it is a fault of the
first text alone, and what is left of the comment belongs to the second text.
-/

namespace Clipper.Lexeme

open Source

variable {before rest inside more : List Char} {offset : Nat} {first : Char}

/-! ## Causes -/

/-- The causes of the faults of lexemes, in order. -/
def causes (lexemes : List Lexeme) : List Fault :=
  lexemes.filterMap fault?

@[simp]
theorem causes_append (earlier later : List Lexeme) :
    causes (earlier ++ later) = causes earlier ++ causes later :=
  List.filterMap_append ..

theorem causes_map_shift
    (width : Nat)
    (lexemes : List Lexeme) :
    causes (lexemes.map (shift width)) = causes lexemes := by
  rw [causes, causes, List.filterMap_map]
  rfl

theorem causes_ofContent?
    (raw : List Char)
    (span : Span)
    (content : Content) :
    causes (ofContent? raw span content).toList = content.fault?.toList := by
  cases content <;> rfl

theorem Content.fault?_eq_some
    {content : Content}
    {cause : Fault} :
    content.fault? = some cause ↔ content = .fault cause := by
  cases content <;> simp [Content.fault?]

theorem faults_eq_nil_iff (lexemes : List Lexeme) : faults lexemes = [] ↔
    causes lexemes = [] := by
  rw [faults, causes, List.filterMap_eq_nil_iff, List.filterMap_eq_nil_iff]
  refine forall₂_congr fun lexeme _ => ?_
  rw [spannedFault?, Option.map_eq_none_iff]

/-! ## Comments without an end -/

/--
A text that is not the end of a comment, and
has no star at its end, may stand before one.
-/
theorem commentLength?_append_of_none
    (isOpen : commentLength? inside = none)
    (noStar : inside.getLast? ≠ some '*')
    (more : List Char) :
    commentLength? (inside ++ more) =
      (commentLength? more).map (· + inside.length) := by
  fun_induction commentLength? inside with
  | case1 => exact Option.map_id'.symm
  | case2 rest => cases isOpen
  | case3 first rest notClosed hypothesis =>
      have noStarBehind : rest.getLast? ≠ some '*' := by
        intro star
        refine noStar ?_
        rw [List.getLast?_cons, star]
        rfl
      rw [List.cons_append, commentLength?,
        hypothesis (Option.map_eq_none_iff.mp isOpen) noStarBehind,
        Option.map_map]
      · rfl
      · rintro after rfl same
        cases rest with
        | nil => exact noStar rfl
        | cons second rest =>
            obtain ⟨rfl, -⟩ := List.cons.inj same
            exact notClosed rest rfl rfl

/-- Only a block comment that is not closed breaks off. -/
theorem opening_of_openComment
    (opened : (cutPiece .plain () before offset first rest).1.content =
      .fault .openComment) :
    first = '/' ∧ ∃ inside, rest = '*' :: inside ∧
    commentLength? inside = none := by
  have opens := Opening.begins before first rest
  rw [cutPiece] at opened
  cases opening : Opening.of before first rest with
  | blockComment =>
      rw [opening] at opens opened
      obtain ⟨slash, star⟩ := opens
      obtain ⟨inside, rfl⟩ := List.head?_eq_some_iff.mp star
      refine ⟨slash, inside, rfl, ?_⟩
      cases closed : commentLength? inside with
      | none => rfl
      | some length => simp [blockCommentPiece, closed] at opened
  | space | lineComment | starComment | digit | name =>
      rw [opening] at opened
      cases opened
  | semicolon | quote | bracket | dot | scope | sign =>
      rw [opening] at opened
      simp only [semicolonPiece, quotePiece, bracketPiece, dotPiece,
        scopePiece, signPiece]
        at opened
      repeat' split at opened
      all_goals cases opened

namespace Scanner

variable {scanner other next : Scanner Unit} {taken : Taken}

theorem causes_lexemes_of_step?
    (step : scanner.step? .plain = some (taken, next)) :
    causes (scanner.lexemes .plain) =
      taken.content.fault?.toList ++ causes (next.lexemes .plain) := by
  rw [lexemes_of_step? step, causes_append, Taken.lexeme?, causes_ofContent?]

theorem causes_lexemes_of_ended
    (ended : scanner.cut.after = []) :
    causes (scanner.lexemes .plain) = [] := by
  rw [lexemes_of_ended ((step?_eq_none_iff scanner).mpr ended)]
  rfl

theorem Behind.causes_eq
    {width : Nat}
    (behind : Behind width scanner other) :
    causes (other.lexemes .plain) = causes (scanner.lexemes .plain) := by
  rw [behind.lexemes_eq, causes_map_shift]

/-- The piece at the opening of a block comment. -/
theorem cutPiece_comment
    (before : List Char)
    (offset : Nat)
    (inside : List Char) :
    (cutPiece .plain () before offset '/' ('*' :: inside)).1 =
      blockCommentPiece ('*' :: inside) := by
  have opening : Opening.of before '/' ('*' :: inside) = .blockComment := rfl
  rw [cutPiece, opening]

/-- A block comment that is not closed is the last piece of its text. -/
theorem causes_of_openComment
    (ahead : scanner.cut.after = '/' :: '*' :: inside)
    (isOpen : commentLength? inside = none) :
    causes (scanner.lexemes .plain) = [.openComment] := by
  have piece : (cutPiece .plain () scanner.cut.before scanner.cut.offset '/'
      ('*' :: inside ++ [])).1 =
      ⟨('*' :: inside).length, .fault .openComment⟩ := by
    rw [List.append_nil, cutPiece_comment]
    simp [blockCommentPiece, isOpen]
  obtain ⟨taken, next, step, raw, content⟩ :=
    exists_step_of_piece (by rw [ahead, List.append_nil]) piece
  have atEnd : next.cut.after = [] := by
    have whole := (takes_of_step? step).after
    rw [ahead, raw] at whole
    simpa using whole
  rw [causes_lexemes_of_step? step, content, causes_lexemes_of_ended atEnd]
  rfl

/-- A block comment that is closed is skipped. -/
theorem exists_step_of_comment
    {length : Nat}
    (ahead : scanner.cut.after = '/' :: '*' :: inside)
    (closed : commentLength? inside = some length) :
    ∃ taken next,
      scanner.step? .plain = some (taken, next) ∧
        taken.raw = '/' :: '*' :: inside.take length ∧
        taken.content = .skipped := by
  have bound : (inside.take length).length = length := by
    obtain ⟨inner, later, rfl, rfl, -⟩ := commentLength?_spec closed
    simp
  have whole : '/' :: '*' :: inside =
      '/' :: ('*' :: inside.take length ++ inside.drop length) := by
    rw [List.cons_append, List.take_append_drop]
  refine exists_step_of_piece (ahead.trans whole) ?_
  rw [List.cons_append, List.take_append_drop, cutPiece_comment]
  simp [blockCommentPiece, closed, bound, Nat.add_comm]

/-- Behind the end of a comment, nothing tells how much of it stood before. -/
theorem Leads.behind_comment
    {ending : List Char}
    {start : Scanner Unit}
    (ahead : scanner.cut.after = '/' :: '*' :: (inside ++ more))
    (leads : scanner.Leads ('/' :: '*' :: (inside ++ ending)) next)
    (leadsStart : (ofText .plain ('/' :: '*' :: more)).Leads
      ('/' :: '*' :: ending) start)
    (visible : ∃ character ∈ ending, isBlank character = false) :
    Behind (scanner.cut.offset + byteWidth inside) start next := by
  refine ⟨?_, ?_, ?_⟩
  · have whole := leads.after
    have wholeStart := leadsStart.after_eq
    rw [ahead] at whole
    simp only [List.cons_append, List.append_assoc, List.cons.injEq, true_and,
      List.append_cancel_left_eq] at whole wholeStart
    exact List.append_cancel_left (whole.symm.trans wholeStart)
  · rw [leads.offset, leadsStart.offset_eq]
    simp only [byteWidth_cons, byteWidth_append]
    omega
  · have visibleBefore : ∃ character ∈ ending.reverse,
        isBlank character = false := by
      simpa only [List.mem_reverse] using visible
    rw [leads.before, leadsStart.before_eq]
    simp only [List.reverse_cons, List.reverse_append, List.append_assoc]
    rw [atLineStart_append visibleBefore, atLineStart_append visibleBefore]

/--
Where a text breaks off within a comment, the comment goes on in the text that
follows: there it is as if the comment began just before.
-/
theorem causes_of_resumed
    (ahead : scanner.cut.after = '/' :: '*' :: (inside ++ more))
    (isOpen : commentLength? inside = none)
    (noStar : inside.getLast? ≠ some '*') :
    causes (scanner.lexemes .plain) =
      causes (allWith .plain ('/' :: '*' :: more)) := by
  have resumed := commentLength?_append_of_none isOpen noStar more
  cases closed : commentLength? more with
  | none =>
      rw [closed] at resumed
      rw [causes_of_openComment ahead resumed]
      exact (causes_of_openComment rfl closed).symm
  | some length =>
      rw [closed, Option.map_some, Nat.add_comm] at resumed
      obtain ⟨taken, next, step, raw, content⟩ :=
        exists_step_of_comment ahead resumed
      have aheadStart : (ofText .plain ('/' :: '*' :: more)).cut.after =
          '/' :: '*' :: more := rfl
      obtain ⟨start, behindStart, stepStart, rawStart, contentStart⟩ :=
        exists_step_of_comment aheadStart closed
      rw [List.take_length_add_append] at raw
      have visible : ∃ character ∈ more.take length,
          isBlank character = false := by
        obtain ⟨inner, later, rfl, rfl, -⟩ := commentLength?_spec closed
        rw [List.take_length_add_append]
        exact ⟨'/', List.mem_append_right _ (by simp), rfl⟩
      have behind : Behind (scanner.cut.offset + byteWidth inside)
          behindStart next :=
        Leads.behind_comment ahead (raw ▸ leads_of_step? step)
          (rawStart ▸ leads_of_step? stepStart) visible
      rw [causes_lexemes_of_step? step, content, allWith,
        causes_lexemes_of_step? stepStart, contentStart, behind.causes_eq]

/-! ## Texts that end with a line -/

/-- The opening of a comment, if there is an open one. -/
def reopening (isOpen : Bool) : List Char :=
  if isOpen then ['/', '*'] else []

/-- The cause of an open comment, if there is one. -/
def openCause (isOpen : Bool) : List Fault :=
  if isOpen then [.openComment] else []

/--
Where the text of a scanner ends with a line,
text that follows is told by its open comment.
-/
theorem EndsLine.causes
    {scanner : Scanner Unit}
    (ends : scanner.EndsLine) :
    ∃ found isOpen,
      .openComment ∉ found ∧
        causes (scanner.lexemes .plain) = found ++ openCause isOpen ∧
          ∀ more other, Followed more scanner other →
            causes (other.lexemes .plain) =
              found ++ causes (allWith .plain (reopening isOpen ++ more)) := by
  cases step : scanner.step? .plain with
  | none =>
      have atEnd := (step?_eq_none_iff scanner).mp step
      have starts : atLineStart scanner.cut.before = true := by
        rcases ends with ends | ⟨-, starts⟩
        · rw [atEnd] at ends
          cases ends
        · exact starts
      refine ⟨[], false, List.not_mem_nil, causes_lexemes_of_ended atEnd, ?_⟩
      intro more other followed
      exact (followed.behind_of_ended atEnd starts).causes_eq
  | some result =>
      obtain ⟨taken, next⟩ := result
      by_cases opened : taken.content = .fault .openComment
      · obtain ⟨first, tail, -, shape, piece⟩ := piece_of_step? step
        obtain ⟨rfl, inside, comment, isOpen⟩ :=
          opening_of_openComment ((congrArg Piece.content piece).trans opened)
        rw [List.cons_append, comment] at shape
        have noStar : inside.getLast? ≠ some '*' := by
          intro star
          rcases ends with ends | ⟨atEnd, -⟩
          · rw [shape, List.getLast?_cons, List.getLast?_cons, star] at ends
            cases ends
          · rw [shape] at atEnd
            cases atEnd
        refine ⟨[], true, List.not_mem_nil,
          causes_of_openComment shape isOpen, ?_⟩
        intro more other followed
        refine causes_of_resumed ?_ isOpen noStar
        rw [followed.after, shape]
        rfl
      · obtain ⟨found, isOpen, none, own, onward⟩ := (ends.onward step).causes
        refine ⟨taken.content.fault?.toList ++ found, isOpen, ?_, ?_, ?_⟩
        · rw [List.mem_append, not_or, Option.mem_toList]
          exact ⟨fun cause => opened (Content.fault?_eq_some.mp cause), none⟩
        · rw [causes_lexemes_of_step? step, own, List.append_assoc]
        · intro more other followed
          obtain ⟨content, otherNext, followedNext, made, fault, -⟩ :=
            followed.step ends step opened
          rw [made, causes_append, causes_ofContent?, fault,
            onward more otherNext followedNext, List.append_assoc]
termination_by scanner.cut.after.length
decreasing_by exact step?_shorter step

end Scanner

theorem causes_all_nil : causes (all []) = [] := by
  rw [all_eq_allWith_plain]
  exact Scanner.causes_lexemes_of_ended rfl

/-- Whether a text breaks off within a block comment. -/
def breaksOff (text : List Char) : Bool :=
  (causes (all text)).contains .openComment

/--
Behind a text that ends with a line, more text has the
causes that it has behind the opening of a comment, if the
first text breaks off within one, or alone if it does not.
-/
theorem causes_append_line
    {text : List Char}
    (ends : text = [] ∨ text.getLast? = some '\n') :
    ∃ found,
      .openComment ∉ found ∧
        causes (all text) = found ++ Scanner.openCause (breaksOff text) ∧
          ∀ more,
            causes (all (text ++ more)) =
              found ++ causes
                (all (Scanner.reopening (breaksOff text) ++ more)) := by
  have endsLine : (Scanner.ofText .plain text).EndsLine := by
    rcases ends with rfl | ends
    · exact .inr ⟨rfl, rfl⟩
    · exact .inl ends
  obtain ⟨found, isOpen, noComment, own, onward⟩ := endsLine.causes
  have same : breaksOff text = isOpen := by
    rw [breaksOff, all_eq_allWith_plain, allWith, own, Bool.eq_iff_iff,
      List.contains_iff_mem, List.mem_append]
    cases isOpen <;> simp [noComment, Scanner.openCause]
  rw [same]
  refine ⟨found, noComment, by rwa [all_eq_allWith_plain], fun more => ?_⟩
  rw [all_eq_allWith_plain, all_eq_allWith_plain]
  exact onward more _ ⟨rfl, rfl, rfl⟩

end Clipper.Lexeme
