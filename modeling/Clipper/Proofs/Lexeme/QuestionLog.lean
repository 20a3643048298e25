import Clipper.Proofs.Lexeme.Questions

/-!
# The questions of a scanner

A line reader that writes down its questions answers like the one that it is
made from.  What it has written down when a scanner comes to a place are
questions at earlier places, in increasing order, and its memory is what those
questions leave.  So the answers that a scanner gets from memory are right, and
a scanner that walks along the line anew for every question cuts the same
lexemes.

The log is kept by the reader and not by the scanner, so the scanner whose
questions are logged is the same function as before, with another reader.
What a reached scanner has in its log is an invariant of its steps: the
questions stand in order, before the place of the scanner, and their answers
are those of the text.  The result is that of a cache which is transparent.
-/

namespace Clipper.Lexeme

open Clipper.Source

/-- To pass a part of what follows is to be at a later place of the text. -/
theorem exists_before_pass
    {text raw after : List Char}
    {offset : Nat}
    (placed : ∃ before, text = before ++ (raw ++ after) ∧
      byteWidth before = offset) :
    ∃ before, text = before ++ after ∧
      byteWidth before = offset + byteWidth raw := by
  obtain ⟨before, whole, place⟩ := placed
  exact ⟨before ++
    raw, by rw [whole, List.append_assoc], by rw [byteWidth_append, place]⟩

/-- A line reader that writes down its questions, the last one at the end. -/
def LineReader.logged
    {σ : Type}
    (reader : LineReader σ) :
    LineReader (σ × List Question) where
  initial := (reader.initial, [])
  escapesQuote memory offset text :=
    let (escapes, later) := reader.escapesQuote memory.1 offset text
    (escapes, later, memory.2 ++ [⟨.escapedQuote, offset⟩])
  pathEnd? memory offset text :=
    let (close?, later) := reader.pathEnd? memory.1 offset text
    (close?, later, memory.2 ++ [⟨.pathEnd, offset⟩])

section

variable {σ : Type} (reader : LineReader σ) (text : List Char)

@[simp]
theorem LineReader.memoryAfter_append
    (questions : List Question)
    (question : Question) :
    reader.memoryAfter text (questions ++ [question]) =
      (question.ask reader text (reader.memoryAfter text questions)).2 := by
  simp [memoryAfter]

/-- What is written down when a scanner comes to an offset of a text. -/
structure LoggedAt
    (offset : Nat)
    (after : List Char)
    (logged : σ × List Question)
    (memory : σ) :
    Prop where
  place : ∃ before, text = before ++ after ∧ byteWidth before = offset
  memory : logged.1 = memory
  recalls : logged.1 = reader.memoryAfter text logged.2
  behind : ∀ question ∈ logged.2, question.offset ≤ offset
  increasing : logged.2.Pairwise
    (fun earlier later => earlier.offset ≤ later.offset)

variable {reader text}
variable {offset : Nat} {after : List Char} {logged : σ × List Question}
    {memory : σ}

theorem LoggedAt.textAt
    (holds : LoggedAt reader text offset after logged memory) :
    textAt text offset = after := by
  obtain ⟨before, rfl, rfl⟩ := holds.place
  exact textAt_append before after

/-- The question at the place itself is written down last. -/
theorem LoggedAt.ask
    (holds : LoggedAt reader text offset after logged memory)
    {question : Question}
    (here : question.offset = offset) :
    LoggedAt reader text offset after
      ((question.ask reader text logged.1).2, logged.2 ++ [question])
      (question.ask reader text memory).2 where
  place := holds.place
  memory := by rw [holds.memory]
  recalls := by rw [reader.memoryAfter_append, ← holds.recalls]
  behind := by
    intro other member
    rcases List.mem_append.mp member with earlier | last
    · exact holds.behind other earlier
    · cases List.mem_singleton.mp last
      exact Nat.le_of_eq here
  increasing := by
    rw [List.pairwise_append]
    refine ⟨holds.increasing, List.pairwise_singleton ..,
      fun earlier member last isLast => ?_⟩
    cases List.mem_singleton.mp isLast
    rw [here]
    exact holds.behind earlier member

variable (reader text)

/--
A reader with a log simulates the reader without it: the memories are the
same, and the log holds the questions that made the memory.
-/
theorem simulates_logged :
    reader.logged.Simulates reader (LoggedAt reader text) where
  pass raw after logged memory holds :=
    { holds with
      place := exists_before_pass holds.place
      behind := fun question member =>
        Nat.le_trans (holds.behind question member) (Nat.le_add_right _ _) }
  escapesQuote {offset _ _ _} holds := by
    have asked := holds.ask (Eq.refl (Question.mk .escapedQuote offset).offset)
    simp only [Question.ask, holds.textAt] at asked
    exact ⟨by rw [← holds.memory]; rfl, asked⟩
  pathEnd? {offset _ _ _} holds := by
    have asked := holds.ask (Eq.refl (Question.mk .pathEnd offset).offset)
    simp only [Question.ask, holds.textAt] at asked
    exact ⟨by rw [← holds.memory]; rfl, asked⟩

theorem loggedAt_initial :
    LoggedAt reader text 0 text reader.logged.initial reader.initial where
  place := ⟨[], rfl, rfl⟩
  memory := rfl
  recalls := rfl
  behind _ member := by cases member
  increasing := .nil

end

/--
The remembering reader is like the one
without a memory where its memory is right.
-/
theorem simulates_plain :
    LineReader.remembering.Simulates .plain
      (fun offset text memory (_ : Unit) =>
        memory.RightQuote offset text ∧ memory.RightBracket offset text) where
  pass _ _ _ _ right := ⟨right.1.pass rfl, right.2.pass rfl⟩
  escapesQuote right :=
    ⟨right.1.answer.1, right.1.answer.2, right.2.escapesQuote _ _⟩
  pathEnd? right :=
    ⟨right.2.answer.1, right.1.pathEnd? _ _, right.2.answer.2⟩

/-- The lexemes of a text are those that are cut without a memory. -/
theorem all_eq_allWith_plain (text : List Char) :
    all text = allWith .plain text :=
  simulates_plain.lexemes ⟨rfl, .initial _ _, .initial _ _⟩

/--
Questions of which those on one topic do not go back are answered from memory as
the text says at the place that is asked about, and as without a memory.  The
questions that a scanner has asked, wherever it has come to, are of this kind;
so the lexemes of a text are those that a scanner without a memory cuts.
-/
theorem memory_answers (text : List Char) :
    (∀ questions, InOrder questions →
        List.Forall₂ (Question.Answered text) questions
            (LineReader.remembering.answers text questions) ∧
          LineReader.remembering.answers text questions =
            LineReader.plain.answers text questions) ∧
      (∀ scanner, Scanner.Reached LineReader.remembering.logged text scanner →
        InOrder scanner.memory.2 ∧
          scanner.memory.1 =
            LineReader.remembering.memoryAfter text scanner.memory.2 ∧
          Scanner.Reached .remembering text ⟨scanner.cut, scanner.memory.1⟩) ∧
      allWith LineReader.remembering.logged text = all text ∧
      all text = allWith .plain text := by
  refine ⟨fun questions order => ?_, fun scanner comes => ?_, ?_, ?_⟩
  · have same : LineReader.remembering.answers text questions =
        LineReader.plain.answers text questions :=
      answersFrom_remembering order (fun question _ => .initial text question)
    rw [same]
    exact ⟨answered_plain_all text questions, rfl⟩
  · obtain ⟨other, otherComes, beside⟩ :=
      (simulates_logged .remembering text).reached
        (loggedAt_initial .remembering text) comes
    have written := beside.related
    have inOrder : InOrder scanner.memory.2 := by
      refine written.increasing.imp ?_
      intro _ _ order _
      exact order
    refine ⟨inOrder, written.recalls, ?_⟩
    rw [beside.cut, written.memory]
    exact otherComes
  · exact (simulates_logged .remembering text).lexemes
      ⟨rfl, loggedAt_initial .remembering text⟩
  · exact simulates_plain.lexemes ⟨rfl, .initial _ _, .initial _ _⟩

end Clipper.Lexeme
