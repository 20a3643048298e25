import Clipper.Proofs.Lexeme.LineMemory
import Clipper.Proofs.Lexeme.ReaderSimulation

/-!
# Questions to a line reader

A line reader that remembers its walks is meant for questions in increasing
order.  Of the two topics each has a memory of its own, so it is enough that the
questions on one topic do not go back.  Then every answer is the one that the
text gives at the place that is asked about, whatever was asked before.  A
scanner asks in such an order from the beginning of a text to its end; therefore
it cuts the same lexemes with the remembering reader and with one that walks
along the line anew each time.

An answer is described by the text alone: where the next quote or bracket is,
and what stands in between.  The descriptions show what the walks compute, and
the memory does not occur in them.
-/

namespace Clipper.Lexeme

open Clipper.Source

/-- What a line reader is asked about. -/
inductive Topic where
  /-- Whether a backslash escapes a quote. -/
  | escapedQuote
  /-- Where a path literal ends. -/
  | pathEnd
deriving DecidableEq

/-- A question about the text at an offset. -/
structure Question where
  topic : Topic
  offset : Nat
deriving DecidableEq

/-- An answer of a line reader. -/
inductive Answer where
  | escapedQuote (escapes : Bool)
  | pathEnd (close? : Option Nat)
deriving DecidableEq

/-- The questions on one topic stand at offsets that do not go back. -/
def InOrder (questions : List Question) : Prop :=
  questions.Pairwise (fun earlier later =>
    earlier.topic = later.topic → earlier.offset ≤ later.offset)

/-! ## Asking -/

section

variable {σ : Type} (reader : LineReader σ) (text : List Char)

/--
The answer of a line reader to a question
about a text, and its memory after that.
-/
def Question.ask
    (memory : σ)
    (question : Question) :
    Answer × σ :=
  let asked := textAt text question.offset
  match question.topic with
  | .escapedQuote =>
      let (escapes, later) := reader.escapesQuote memory question.offset asked
      (.escapedQuote escapes, later)
  | .pathEnd =>
      let (close?, later) := reader.pathEnd? memory question.offset asked
      (.pathEnd close?, later)

/-- The answers to questions that are asked one after the other. -/
def LineReader.answersFrom (memory : σ) : List Question → List Answer
  | [] => []
  | question :: later =>
      (question.ask reader text memory).1 ::
        answersFrom (question.ask reader text memory).2 later

/-- The answers to questions that are asked from the beginning. -/
def LineReader.answers (questions : List Question) : List Answer :=
  reader.answersFrom text reader.initial questions

/-- The memory after questions that were asked from the beginning. -/
def LineReader.memoryAfter (questions : List Question) : σ :=
  questions.foldl (fun memory question => (question.ask reader text memory).2)
    reader.initial

end

/-! ## What is right -/

/--
At an offset of a text a backslash and a double quote stand, and on the same
line a further double quote follows.
-/
def EscapedQuoteAt
    (text : List Char)
    (offset : Nat) :
    Prop :=
  ∃ before between after,
    text = before ++ '\\' :: '"' :: (between ++ '"' :: after) ∧
      byteWidth before = offset ∧
      '\n' ∉ between

/--
At an offset of a text a `[` stands, and the first `]` behind it at another one;
between them stand a backslash and no line break.
-/
def PathAt
    (text : List Char)
    (offset close : Nat) :
    Prop :=
  ∃ before inner after,
    text = before ++ '[' :: (inner ++ ']' :: after) ∧
      byteWidth before = offset ∧
      close = offset + 1 + byteWidth inner ∧
      ']' ∉ inner ∧ '\n' ∉ inner ∧ '\r' ∉ inner ∧ '\\' ∈ inner

/-- An answer says of a text what the question asks about. -/
def Question.Answered
    (text : List Char)
    (question : Question) :
    Answer → Prop
  | .escapedQuote escapes =>
      question.topic = .escapedQuote ∧
      (escapes = true ↔ EscapedQuoteAt text question.offset)
  | .pathEnd close? =>
      question.topic = .pathEnd ∧
        ∀ close, close? = some close ↔ PathAt text question.offset close

/-! ## Answers without a memory -/

/-- A line that holds a character is cut there, with no line feed before it. -/
theorem mem_takeWhile_iff
    {test : Char → Bool}
    {character : Char}
    (passes : test character = true)
    {text : List Char} :
    character ∈ text.takeWhile test ↔
      ∃ between after, text = between ++ character :: after ∧
        ∀ other ∈ between, test other := by
  constructor
  · intro member
    obtain ⟨between, later, shape⟩ := List.append_of_mem member
    obtain ⟨after, whole⟩ := List.takeWhile_prefix test (l := text)
    refine ⟨between, later ++ after, ?_, fun other inside => ?_⟩
    · rw [← whole, shape]
      simp
    · exact List.mem_takeWhile_imp (shape ▸ List.mem_append_left _ inside)
  · rintro ⟨between, after, rfl, all⟩
    rw [List.takeWhile_append_of_pos all, List.takeWhile_cons, if_pos passes]
    simp

/--
The answer of a walk says what it should: behind the backslash and the quote,
a further quote stands on the same line.
-/
theorem escapesQuote_textAt_iff
    {text : List Char}
    {offset : Nat} :
    escapesQuote (textAt text offset) = true ↔ EscapedQuoteAt text offset := by
  constructor
  · intro escapes
    unfold escapesQuote at escapes
    split at escapes
    · next rest shape =>
        rw [List.contains_iff_mem, firstLine, mem_takeWhile_iff (by decide)]
          at escapes
        obtain ⟨between, after, rfl, line⟩ := escapes
        obtain ⟨before, whole, place⟩ :=
          exists_before_textAt (shape ▸ List.cons_ne_nil _ _)
        rw [shape] at whole
        exact ⟨before, between, after, whole, place,
          fun feed => absurd (line _ feed) (by decide)⟩
    · cases escapes
  · rintro ⟨before, between, after, rfl, rfl, line⟩
    rw [textAt_append, escapesQuote, List.contains_iff_mem, firstLine,
      mem_takeWhile_iff (by decide)]
    refine ⟨between, after, rfl, fun other inside => ?_⟩
    rw [bne_iff_ne]
    rintro rfl
    exact line inside

/--
A text without closing brackets and line breaks is made of parts of a path.
-/
theorem isPathPart_of_not_mem
    {inner : List Char}
    (bracket : ']' ∉ inner)
    (lineFeed : '\n' ∉ inner)
    (carriageReturn : '\r' ∉ inner) :
    ∀ other ∈ inner, Lookahead.isPathPart other := by
  intro other inside
  have differs {character : Char} (absent : character ∉ inner) :
      other ≠ character := by
    rintro rfl
    exact absent inside
  simp [Lookahead.isPathPart, differs bracket, differs lineFeed,
    differs carriageReturn]

/--
The answer of a walk from a bracket is the first closing bracket of the line,
if there is one and a backslash stands before it.
-/
theorem pathEnd?_textAt_iff
    {text : List Char}
    {offset close : Nat} :
    pathEnd? offset (textAt text offset) = some close ↔
    PathAt text offset close := by
  constructor
  · intro ends
    unfold pathEnd? at ends
    split at ends
    · next rest shape =>
        simp only [Option.ite_none_right_eq_some, Option.some.injEq] at ends
        obtain ⟨⟨closed, backslash⟩, rfl⟩ := ends
        obtain ⟨before, whole, place⟩ :=
          exists_before_textAt (shape ▸ List.cons_ne_nil _ _)
        obtain ⟨after, drop⟩ := List.head?_eq_some_iff.mp closed
        have path : rest = Lookahead.pathText rest ++ ']' :: after := by
          rw [← drop]
          exact List.prefix_iff_eq_append.mp (List.takeWhile_prefix _) |>.symm
        have part {character : Char}
            (member : character ∈ Lookahead.pathText rest) :
            Lookahead.isPathPart character = true :=
          List.mem_takeWhile_imp member
        refine ⟨before, Lookahead.pathText rest, after, ?_, place, rfl, ?_, ?_,
          ?_, backslash⟩
        · rw [← path, ← shape]
          exact whole
        all_goals exact fun member => absurd (part member) (by decide)
    · cases ends
  · rintro ⟨before, inner, after, rfl, rfl, rfl, bracket, lineFeed,
      carriageReturn, backslash⟩
    have path : Lookahead.pathText (inner ++ ']' :: after) = inner := by
      have all := isPathPart_of_not_mem bracket lineFeed carriageReturn
      refine (List.takeWhile_append_of_pos all).trans ?_
      rw [List.takeWhile_cons, if_neg (by decide), List.append_nil]
    rw [textAt_append, pathEnd?, path]
    simp [backslash]

/-- Without a memory, every question is answered by the text. -/
theorem Question.answered_plain
    (text : List Char)
    (question : Question) :
    question.Answered text (question.ask .plain text ()).1 := by
  obtain ⟨topic, offset⟩ := question
  cases topic with
  | escapedQuote => exact ⟨rfl, escapesQuote_textAt_iff⟩
  | pathEnd => exact ⟨rfl, fun close => pathEnd?_textAt_iff⟩

theorem answered_plain_all
    (text : List Char)
    (questions : List Question) :
    List.Forall₂ (Question.Answered text) questions
      (LineReader.plain.answers text questions) := by
  induction questions with
  | nil => exact .nil
  | cons question questions hypothesis =>
      exact .cons (question.answered_plain text) hypothesis

/-! ## Answers from memory -/

namespace Lookahead

/-- A memory is right at the place that a question asks about. -/
def RightFor
    (text : List Char)
    (memory : Lookahead)
    (question : Question) :
    Prop :=
  ∀ before after, text = before ++ after → byteWidth before = question.offset →
    match question.topic with
    | .escapedQuote => memory.RightQuote question.offset after
    | .pathEnd => memory.RightBracket question.offset after

variable {text : List Char} {memory : Lookahead} {question : Question}

theorem RightFor.initial
    (text : List Char)
    (question : Question) :
    Lookahead.initial.RightFor text question := by
  intro before after _ _
  cases question.topic with
  | escapedQuote => exact .initial _ _
  | pathEnd => exact .initial _ _

/-- A memory that is right for a question answers it as a walk would. -/
theorem RightFor.answer (right : memory.RightFor text question) :
    (question.ask .remembering text memory).1 =
      (question.ask .plain text ()).1 := by
  obtain ⟨topic, offset⟩ := question
  by_cases empty : textAt text offset = []
  · cases topic with
    | escapedQuote | pathEnd =>
        simp only [Question.ask, empty]
        rfl
  · obtain ⟨before, whole, place⟩ := exists_before_textAt empty
    cases topic with
    | escapedQuote =>
        exact congrArg Answer.escapedQuote
          (RightQuote.answer (right _ _ whole place)).1
    | pathEnd =>
        exact congrArg Answer.pathEnd
          (RightBracket.answer (right _ _ whole place)).1

/-- A memory stays right for the questions that do not go back. -/
theorem RightFor.ask
    (right : memory.RightFor text question)
    {later : Question}
    (rightLater : memory.RightFor text later)
    (order : question.topic = later.topic → question.offset ≤ later.offset) :
    RightFor text (question.ask .remembering text memory).2 later := by
  intro before after whole place
  have unasked := rightLater before after whole place
  obtain ⟨topic, offset⟩ := question
  obtain ⟨laterTopic, laterOffset⟩ := later
  by_cases empty : textAt text offset = []
  · cases topic with
    | escapedQuote | pathEnd =>
        simp only [Question.ask, empty]
        exact unasked
  · obtain ⟨first, split, begins⟩ := exists_before_textAt empty
    have asked := right first _ split begins
    cases topic with
    | escapedQuote =>
        cases laterTopic with
        | pathEnd => exact RightBracket.escapesQuote unasked offset _
        | escapedQuote =>
            obtain ⟨raw, same, rfl⟩ :=
              exists_between split begins whole place (order rfl)
            exact (RightQuote.answer asked).2.pass same
    | pathEnd =>
        cases laterTopic with
        | escapedQuote => exact RightQuote.pathEnd? unasked offset _
        | pathEnd =>
            obtain ⟨raw, same, rfl⟩ :=
              exists_between split begins whole place (order rfl)
            exact (RightBracket.answer asked).2.pass same

end Lookahead

/--
Questions that are asked in order get from memory the answers that walks would
give, from any memory that is right for them.
-/
theorem answersFrom_remembering
    {text : List Char}
    {memory : Lookahead}
    {questions : List Question}
    (order : InOrder questions)
    (right : ∀ question ∈ questions, memory.RightFor text question) :
    LineReader.remembering.answersFrom text memory questions =
      LineReader.plain.answersFrom text () questions := by
  induction questions generalizing memory with
  | nil => rfl
  | cons question questions hypothesis =>
      obtain ⟨first, others⟩ := List.pairwise_cons.mp order
      have here := right question (List.mem_cons_self ..)
      have later :
          ∀ other ∈ questions,
            Lookahead.RightFor text (question.ask .remembering text memory).2
              other :=
        fun other member =>
          here.ask (right other (List.mem_cons_of_mem _ member))
            (first other member)
      rw [LineReader.answersFrom, LineReader.answersFrom, here.answer,
        hypothesis others later]

end Clipper.Lexeme
