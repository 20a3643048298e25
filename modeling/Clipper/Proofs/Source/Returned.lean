import Clipper.Proofs.Source.Width
import Clipper.Proofs.Syntax.Relabelling
import Clipper.Source.Location
import Mathlib.Data.List.Induction
import Mathlib.Data.List.TakeWhile

/-!
# Carriage returns before line feeds

A text is written with one of two line ends: with a line feed alone, or with a
carriage return before it.  This module puts the carriage returns into a text,
says how far that moves its offsets, and shows that an offset stays in its line
and column.

An offset moves by the number of lines that begin at or before it.

The number of these lines is found by a walk over the text, and it grows with
the offset, so the moved offsets keep their order.  A text with returns is as
wide as the text and its line feeds together.  Spans move with both of their
ends; and the relabelling that moves them is the one under which all later
parts of the analysis are shown to be the same.
-/

namespace Clipper.Source

/-! ## The text -/

/--
A line feed with a carriage return before it; every other character by itself.
-/
def returned (character : Char) : List Char :=
  if character = '\n' then ['\r', '\n'] else [character]

/-- The text with a carriage return before each line feed. -/
def withReturns (text : List Char) : List Char :=
  text.flatMap returned

section

variable {text : List Char}

@[simp]
theorem withReturns_nil : withReturns [] = [] :=
  rfl

@[simp]
theorem withReturns_append (first second : List Char) :
    withReturns (first ++ second) = withReturns first ++ withReturns second :=
  List.flatMap_append

@[simp]
theorem withReturns_newline (rest : List Char) :
    withReturns ('\n' :: rest) = '\r' :: '\n' :: withReturns rest :=
  rfl

theorem withReturns_cons
    {character : Char}
    (visible : character ≠ '\n')
    (rest : List Char) :
    withReturns (character :: rest) = character :: withReturns rest := by
  rw [withReturns, List.flatMap_cons, returned, if_neg visible]
  rfl

theorem withReturns_of_oneLine (oneLine : '\n' ∉ text) :
    withReturns text = text := by
  induction text with
  | nil => rfl
  | cons character rest hypothesis =>
      rw [List.mem_cons, not_or] at oneLine
      rw [withReturns_cons (Ne.symm oneLine.1), hypothesis oneLine.2]

theorem withReturns_eq_nil_iff : withReturns text = [] ↔ text = [] := by
  cases text with
  | nil => exact Iff.rfl
  | cons character rest =>
      by_cases isNewline : character = '\n'
      · rw [isNewline, withReturns_newline]
        simp
      · rw [withReturns_cons isNewline]
        simp

/-- Only carriage returns come to the characters of a text. -/
theorem forall_mem_withReturns
    {property : Char → Prop}
    (atReturn : property '\r')
    (all : ∀ character ∈ text, property character) :
    ∀ character ∈ withReturns text, property character := by
  intro character member
  obtain ⟨origin, isThere, made⟩ := List.mem_flatMap.mp member
  rw [returned] at made
  split at made
  · next isNewline =>
      rcases List.mem_cons.mp made with rfl | isFeed
      · exact atReturn
      · obtain rfl := List.mem_singleton.mp isFeed
        exact all _ (isNewline ▸ isThere)
  · obtain rfl := List.mem_singleton.mp made
    exact all _ isThere

/-! ## Runs of characters -/

section Runs

variable {test : Char → Bool}

/--
A run that goes over line breaks, or stops
at them, is the same run with the returns.
-/
theorem takeWhile_withReturns
    (same : test '\r' = test '\n')
    (text : List Char) :
    (withReturns text).takeWhile test = withReturns (text.takeWhile test) := by
  induction text with
  | nil => rfl
  | cons first rest hypothesis =>
      by_cases isNewline : first = '\n'
      · rw [isNewline, withReturns_newline]
        cases passes : test '\n' with
        | true => simp [same, passes, hypothesis]
        | false => simp [same, passes]
      · rw [withReturns_cons isNewline]
        cases passes : test first with
        | true =>
            rw [List.takeWhile_cons_of_pos passes,
              List.takeWhile_cons_of_pos passes,
              withReturns_cons isNewline, hypothesis]
        | false => simp [passes]

theorem dropWhile_withReturns
    (same : test '\r' = test '\n')
    (text : List Char) :
    (withReturns text).dropWhile test = withReturns (text.dropWhile test) := by
  have split := congrArg withReturns
      (List.takeWhile_append_dropWhile (p := test) (l := text))
  rw [withReturns_append, ← takeWhile_withReturns same] at split
  exact List.append_cancel_left
    ((List.takeWhile_append_dropWhile).trans split.symm)

/-- What goes back over carriage returns stops at the same character. -/
theorem head?_dropWhile_reverse_withReturns
    (passes : test '\r' = true)
    (text : List Char) :
    ((withReturns text).reverse.dropWhile test).head? =
      (text.reverse.dropWhile test).head? := by
  induction text using List.reverseRecOn with
  | nil => rfl
  | append_singleton earlier last hypothesis =>
      rw [withReturns_append, List.reverse_append, List.reverse_append]
      by_cases isNewline : last = '\n'
      · subst isNewline
        change (('\n' :: '\r' :: (withReturns earlier).reverse).dropWhile
          test).head? =
          (('\n' :: earlier.reverse).dropWhile test).head?
        cases feed : test '\n' with
        | true =>
            rw [List.dropWhile_cons_of_pos feed,
              List.dropWhile_cons_of_pos feed,
              List.dropWhile_cons_of_pos passes, hypothesis]
        | false => simp [feed]
      · rw [withReturns_cons isNewline]
        change ((last :: (withReturns earlier).reverse).dropWhile test).head? =
          ((last :: earlier.reverse).dropWhile test).head?
        cases passesLast : test last with
        | true =>
            rw [List.dropWhile_cons_of_pos passesLast,
              List.dropWhile_cons_of_pos passesLast, hypothesis]
        | false => simp [passesLast]

/-- A run that stops at line breaks has none of them. -/
theorem takeWhile_withReturns_of_stops
    (stopsAtReturn : test '\r' = false)
    (stops : test '\n' = false)
    (text : List Char) :
    (withReturns text).takeWhile test = text.takeWhile test := by
  rw [takeWhile_withReturns (stopsAtReturn.trans stops.symm)]
  refine withReturns_of_oneLine fun member => ?_
  rw [List.mem_takeWhile_imp member] at stops
  cases stops

/--
The text with returns from behind the first one, if a line feed stands ahead.
-/
def pastReturn : List Char → List Char
  | '\n' :: rest => '\n' :: withReturns rest
  | text => withReturns text

theorem pastReturn_cons
    {character : Char}
    (visible : character ≠ '\n')
    (rest : List Char) :
    pastReturn (character :: rest) = character :: withReturns rest := by
  rw [pastReturn]
  · exact withReturns_cons visible rest
  · rintro _ ⟨⟩
    exact visible rfl

/--
What goes over carriage returns, but not over line feeds, stops behind a return.
-/
theorem dropWhile_withReturns_of_stops
    (passes : test '\r' = true)
    (stops : test '\n' = false)
    (text : List Char) :
    (withReturns text).dropWhile test = pastReturn (text.dropWhile test) := by
  induction text with
  | nil => rfl
  | cons first rest hypothesis =>
      by_cases isNewline : first = '\n'
      · rw [isNewline, withReturns_newline, List.dropWhile_cons_of_pos passes,
          List.dropWhile_cons_of_neg (by simp [stops]),
          List.dropWhile_cons_of_neg (by simp [stops])]
        rfl
      · rw [withReturns_cons isNewline]
        cases passesFirst : test first with
        | true =>
            rw [List.dropWhile_cons_of_pos passesFirst,
              List.dropWhile_cons_of_pos passesFirst, hypothesis]
        | false =>
            rw [List.dropWhile_cons_of_neg (by simp [passesFirst]),
              List.dropWhile_cons_of_neg (by simp [passesFirst]),
              pastReturn_cons isNewline]

end Runs

/-- A line has its carriage return at its end. -/
theorem firstLine_withReturns (text : List Char) :
    firstLine (withReturns text) =
      firstLine text ++ if '\n' ∈ text then ['\r'] else [] := by
  induction text with
  | nil => rfl
  | cons first rest hypothesis =>
      by_cases isNewline : first = '\n'
      · rw [isNewline, withReturns_newline]
        simp [firstLine]
      · have visible : (first != '\n') = true := bne_iff_ne.mpr isNewline
        have cons (others : List Char) :
            firstLine (first :: others) = first :: firstLine others :=
          List.takeWhile_cons_of_pos visible
        rw [withReturns_cons isNewline, cons, cons, hypothesis]
        simp [Ne.symm isNewline]

end

/-! ## Offsets -/

/--
How many lines, of those that begin at these
offsets, begin at or before an offset.
-/
def linesBegun (offset : Nat) (starts : List Nat) : Nat :=
  starts.countP (fun start => decide (start ≤ offset))

theorem linesBegun_append
    (offset : Nat)
    (first second : List Nat) :
    linesBegun offset (first ++ second) =
      linesBegun offset first + linesBegun offset second :=
  List.countP_append

theorem linesBegun_cons_of_le
    {offset start : Nat}
    (begun : start ≤ offset)
    (starts : List Nat) :
    linesBegun offset (start :: starts) = linesBegun offset starts + 1 :=
  List.countP_cons_of_pos (decide_eq_true begun)

theorem linesBegun_eq_length
    {offset : Nat}
    {starts : List Nat}
    (begun : ∀ start ∈ starts, start ≤ offset) :
    linesBegun offset starts = starts.length :=
  List.countP_eq_length.mpr fun start member =>
    decide_eq_true (begun start member)

theorem linesBegun_eq_zero
    {offset : Nat}
    {starts : List Nat}
    (later : ∀ start ∈ starts, offset < start) :
    linesBegun offset starts = 0 := by
  refine List.countP_eq_zero.mpr fun start member => ?_
  rw [decide_eq_true_eq, Nat.not_le]
  exact later start member

theorem linesBegun_mono
    {first second : Nat}
    (order : first ≤ second)
    (starts : List Nat) :
    linesBegun first starts ≤ linesBegun second starts := by
  refine List.countP_mono_left fun start _ before => ?_
  rw [decide_eq_true_eq] at before ⊢
  exact Nat.le_trans before order

/-- Where an offset of a text stands once the carriage returns are there. -/
def returnedOffset (text : List Char) (offset : Nat) : Nat :=
  offset + linesBegun offset (LineTable.startsAfter 0 text)

/--
The beginnings of lines in two texts are those in the first, and then those in
the second, moved behind it.
-/
theorem startsAfter_append
    (offset : Nat)
    (first second : List Char) :
    LineTable.startsAfter offset (first ++ second) =
      LineTable.startsAfter offset first ++
        LineTable.startsAfter (offset + byteWidth first) second := by
  induction first generalizing offset with
  | nil => rfl
  | cons character rest hypothesis =>
      rw [List.cons_append, LineTable.startsAfter,
        LineTable.startsAfter, hypothesis, byteWidth_cons, Nat.add_assoc]
      split <;> rfl

/-- Lines after the first begin behind the beginning of the text, and in it. -/
theorem startsAfter_bounds
    (offset : Nat)
    (text : List Char) :
    ∀ start ∈ LineTable.startsAfter offset text,
      offset < start ∧ start ≤ offset + byteWidth text := by
  induction text generalizing offset with
  | nil => exact fun start member => absurd member List.not_mem_nil
  | cons character rest hypothesis =>
      have positive := character.utf8Size_pos
      have later := hypothesis (offset + character.utf8Size)
      intro start member
      rw [byteWidth_cons]
      rw [LineTable.startsAfter] at member
      split at member
      · obtain rfl | member := List.mem_cons.mp member
        · omega
        · have bounds := later start member
          omega
      · have bounds := later start member
        omega

/-- Returns add one byte for every line that begins in the text. -/
theorem byteWidth_withReturns
    (offset : Nat)
    (text : List Char) :
    byteWidth (withReturns text) =
      byteWidth text + (LineTable.startsAfter offset text).length := by
  induction text generalizing offset with
  | nil => rfl
  | cons character rest hypothesis =>
      have later := hypothesis (offset + character.utf8Size)
      by_cases isNewline : character = '\n'
      · subst isNewline
        have one : '\n'.utf8Size = 1 := rfl
        have returnOne : '\r'.utf8Size = 1 := rfl
        rw [withReturns_newline, LineTable.startsAfter, if_pos rfl]
        simp only [byteWidth_cons, List.length_cons]
        omega
      · rw [withReturns_cons isNewline, LineTable.startsAfter, if_neg isNewline]
        simp only [byteWidth_cons]
        omega

/--
An offset between two characters moves as far as the text before it grows.
-/
theorem returnedOffset_append (before after : List Char) :
    returnedOffset (before ++ after) (byteWidth before) =
      byteWidth (withReturns before) := by
  have earlier : linesBegun (byteWidth before)
      (LineTable.startsAfter 0 before) =
      (LineTable.startsAfter 0 before).length := by
    refine linesBegun_eq_length fun start member => ?_
    have bounds := startsAfter_bounds 0 before start member
    omega
  have later : linesBegun (byteWidth before)
      (LineTable.startsAfter (0 + byteWidth before) after) = 0 := by
    refine linesBegun_eq_zero fun start member => ?_
    have bounds := startsAfter_bounds _ after start member
    omega
  rw [returnedOffset, startsAfter_append, linesBegun_append, earlier, later,
    Nat.add_zero, ← byteWidth_withReturns]

theorem returnedOffset_end (text : List Char) :
    returnedOffset text (byteWidth text) = byteWidth (withReturns text) := by
  have atEnd := returnedOffset_append text []
  rwa [List.append_nil] at atEnd

theorem returnedOffset_zero (text : List Char) : returnedOffset text 0 = 0 :=
  returnedOffset_append [] text

theorem returnedOffset_strictMono (text : List Char) :
    StrictMono (returnedOffset text) := by
  intro first second order
  have counts := linesBegun_mono (Nat.le_of_lt order)
      (LineTable.startsAfter 0 text)
  rw [returnedOffset, returnedOffset]
  omega

/-! ## Lines and columns -/

/--
Along the lines of a text, an offset that moved is located where it was before.
-/
theorem locate_withReturns
    (offset line start base shift : Nat)
    (text : List Char) :
    LineTable.locate (offset + shift +
      linesBegun offset (LineTable.startsAfter base text)) line
        (start + shift)
        (LineTable.startsAfter (base + shift) (withReturns text)) =
      LineTable.locate offset line start (LineTable.startsAfter base text) := by
  have column (start shift : Nat) :
      offset + shift + 0 - (start + shift) = offset - start :=
    Nat.add_sub_add_right offset shift start
  induction text generalizing line start base shift with
  | nil =>
      exact congrArg (fun column => Location.mk line (column + 1))
        (column start shift)
  | cons character rest hypothesis =>
      by_cases isNewline : character = '\n'
      · subst isNewline
        have starts : LineTable.startsAfter base ('\n' :: rest) =
            (base + 1) :: LineTable.startsAfter (base + 1) rest := rfl
        have returned : LineTable.startsAfter (base + shift)
            (withReturns ('\n' :: rest)) = (base + 1 + (shift + 1)) ::
              LineTable.startsAfter (base + 1 + (shift + 1))
                (withReturns rest) := by
          have place : base + 1 + (shift + 1) = base + shift + 1 + 1 := by omega
          rw [place]
          rfl
        rw [starts, returned, LineTable.locate, LineTable.locate]
        by_cases begun : base + 1 ≤ offset
        · have place (count : Nat) :
              offset + shift + (count + 1) = offset + (shift + 1) + count := by
            omega
          rw [linesBegun_cons_of_le begun, place, hypothesis, if_pos begun,
            if_pos (by omega)]
        · have none :
              linesBegun offset ((base + 1) ::
                LineTable.startsAfter (base + 1) rest) = 0 := by
            refine linesBegun_eq_zero (List.forall_mem_cons.mpr ⟨by omega, ?_⟩)
            intro later member
            have bounds := startsAfter_bounds _ rest later member
            omega
          rw [none, if_neg begun, if_neg (by omega), column]
      · have later := hypothesis line start (base + character.utf8Size) shift
        rw [Nat.add_right_comm base] at later
        rw [withReturns_cons isNewline, LineTable.startsAfter,
          LineTable.startsAfter, if_neg isNewline, if_neg isNewline]
        exact later

/-- An offset keeps its line and column when it moves. -/
theorem location_withReturns (text : List Char) (offset : Nat) :
    (LineTable.ofText (withReturns text)).location
      (returnedOffset text offset) = (LineTable.ofText text).location offset :=
  locate_withReturns offset 1 0 0 0 text

end Clipper.Source

namespace Clipper

open Source

/--
What the carriage returns do to all that is made of spans
and texts: offsets move, and of the texts of tokens only
those of pieces that are no tokens may hold line feeds.
-/
def Relabelling.returned (text : List Char) : Relabelling where
  offset := returnedOffset text
  lexeme kind lexeme :=
    if kind = .error then String.ofList (withReturns lexeme.toList) else lexeme
  offset_monotone := (returnedOffset_strictMono text).monotone
  offset_zero := returnedOffset_zero text
  lexeme_placeholder := rfl
  lexeme_endOfFile := rfl
  sameName _ _ := rfl

theorem Relabelling.lexeme_returned
    {kind : TokenKind}
    (sound : kind ≠ .error)
    (text : List Char)
    (lexeme : String) :
    (returned text).lexeme kind lexeme = lexeme :=
  if_neg sound

theorem Relabelling.lexeme_returned_error
    (text : List Char)
    (lexeme : String) :
    (returned text).lexeme .error lexeme =
      String.ofList (withReturns lexeme.toList) :=
  rfl

end Clipper
