import Clipper.Proofs.Lexeme.QuestionLog

/-!
# The quotes that are taken as escaped

Between double quotes a backslash before a quote escapes it when a further quote
follows on the line.  The question looks along the line up to its line feed,
whereas a string is given up at a carriage return as well.  So a quote that is
taken as escaped has a further one before the next line feed, and before the
next carriage return only if every carriage return belongs to a line end.

A line reader that writes down the quotes that it took as escaped answers like
the one that it is made from.

To state what was taken as escaped, the quotes must be seen; they leave no
trace in the tokens but a shorter text.  So the reader is made to note them,
and a simulation shows that the notes change no answer.  What is proved of the
notes at every place that a scanner reaches then holds of the lexemes that the
text has, for every source and not only for one that is well formed.
-/

namespace Clipper.Lexeme

open Clipper.Source

/--
A line reader that writes down where it took
a quote as escaped, the last one at the end.
-/
def LineReader.noting
    {σ : Type}
    (reader : LineReader σ) :
    LineReader (σ × List Nat) where
  initial := (reader.initial, [])
  escapesQuote memory offset text :=
    let (escapes, later) := reader.escapesQuote memory.1 offset text
    (escapes, later, if escapes then memory.2 ++ [offset] else memory.2)
  pathEnd? memory offset text :=
    let (close?, later) := reader.pathEnd? memory.1 offset text
    (close?, later, memory.2)

/--
The offsets in a text at which a backslash
and a quote are taken as an escaped quote.
-/
def escapesTaken (text : List Char) : List Nat :=
  let reader := LineReader.remembering.noting
  ((Scanner.ofText reader text).toEnd reader).memory.2

/-- A scanner that steps lead to has its end behind further steps. -/
theorem Scanner.Reached.toEnd
    {σ : Type}
    {reader : LineReader σ}
    {text : List Char}
    {scanner : Scanner σ}
    (comes : scanner.Reached reader text) :
    (scanner.toEnd reader).Reached reader text := by
  fun_induction scanner.toEnd reader with
  | case1 => exact comes
  | case2 scanner taken following step hypothesis =>
      exact hypothesis (.step comes step)

section

variable {σ : Type} {reader : LineReader σ}
    {related : Nat → List Char → σ → Unit → Prop}

/--
What is noted when a scanner comes to an offset
of a text are escaped quotes of the text.
-/
structure NotedAt
    (related : Nat → List Char → σ → Unit → Prop)
    (text : List Char)
    (offset : Nat)
    (after : List Char)
    (memory : σ × List Nat) :
    Prop where
  place : ∃ before, text = before ++ after ∧ byteWidth before = offset
  related : related offset after memory.1 ()
  noted : ∀ taken ∈ memory.2, EscapedQuoteAt text taken

theorem notedAt_initial
    {text : List Char}
    (holds : related 0 text reader.initial ()) :
    NotedAt related text 0 text reader.noting.initial :=
  ⟨⟨[], rfl, rfl⟩, holds, List.forall_mem_nil _⟩

/--
A reader that notes the escaped quotes simulates the one that walks anew, if
the reader without the notes does; and its notes are right at every place.
-/
theorem simulates_noting
    (simulates : reader.Simulates .plain related)
    (text : List Char) :
    reader.noting.Simulates .plain
      (fun offset after memory (_ : Unit) =>
        NotedAt related text offset after memory) where
  pass raw after memory _ holds :=
    { place := exists_before_pass holds.place
      related := simulates.pass raw holds.related
      noted := holds.noted }
  escapesQuote {offset rest memory _} holds := by
    obtain ⟨same, later⟩ := simulates.escapesQuote holds.related
    refine ⟨same, holds.place, later, ?_⟩
    change ∀ taken ∈ if (reader.escapesQuote memory.1 offset
      ('\\' :: '"' :: rest)).1 = true
      then memory.2 ++ [offset] else memory.2, EscapedQuoteAt text taken
    split
    · next escapes =>
        obtain ⟨before, whole, place⟩ := holds.place
        have here : EscapedQuoteAt text offset := by
          rw [← escapesQuote_textAt_iff, ← place, whole, textAt_append]
          exact same.symm.trans escapes
        exact List.forall_mem_append.mpr
          ⟨holds.noted, List.forall_mem_singleton.mpr here⟩
    · exact holds.noted
  pathEnd? holds := by
    obtain ⟨same, later⟩ := simulates.pathEnd? holds.related
    exact ⟨same, holds.place, later, holds.noted⟩

end

/-! ## Where the further quote is -/

/--
Behind every carriage return of a text, but
for one at its end, stands a line feed.
-/
abbrev ReturnsEndLines (text : List Char) : Prop :=
  text.IsChain (fun character next => character = '\r' → next = '\n')

/--
At an offset of a text a backslash and a double quote stand, and a further
double quote follows before a string is given up.
-/
def ClosableAt
    (text : List Char)
    (offset : Nat) :
    Prop :=
  ∃ before between after,
    text = before ++ '\\' :: '"' :: (between ++ '"' :: after) ∧
      byteWidth before = offset ∧
      '\n' ∉ between ∧ '\r' ∉ between

/--
Where returns end lines, the characters that
end a line are those that end a string.
-/
theorem EscapedQuoteAt.closable
    {text : List Char}
    {offset : Nat}
    (escaped : EscapedQuoteAt text offset)
    (ends : ReturnsEndLines text) :
    ClosableAt text offset := by
  obtain ⟨before, between, after, rfl, place, noFeed⟩ := escaped
  refine ⟨before, between, after, rfl, place, noFeed, fun isReturn => ?_⟩
  obtain ⟨earlier, later, rfl⟩ := List.append_of_mem isReturn
  have chain : ('\r' :: (later ++ '"' :: after)).IsChain
      (fun character next => character = '\r' → next = '\n') := by
    refine ends.infix ⟨before ++ '\\' :: '"' :: earlier, [], ?_⟩
    simp
  cases later with
  | nil => exact absurd ((List.isChain_cons_cons.mp chain).1 rfl) (by decide)
  | cons next later =>
      have isFeed : next = '\n' := (List.isChain_cons_cons.mp chain).1 rfl
      exact noFeed (by simp [isFeed])

/--
Whatever a text is, behind a quote that is taken as escaped a further one
follows before the next line feed; where returns end lines, it follows before
the next carriage return as well, so that the string can still be closed.
-/
theorem escapesTaken_closable (text : List Char) :
    allWith LineReader.remembering.noting text = all text ∧
      ∀ offset ∈ escapesTaken text,
        EscapedQuoteAt text offset ∧
        (ReturnsEndLines text → ClosableAt text offset) := by
  have simulates := simulates_noting simulates_plain text
  refine ⟨?_, fun offset taken => ?_⟩
  · rw [all_eq_allWith_plain]
    exact simulates.lexemes ⟨rfl, notedAt_initial ⟨.initial _ _, .initial _ _⟩⟩
  · obtain ⟨_, _, beside⟩ :=
      simulates.reached (notedAt_initial ⟨.initial _ _, .initial _ _⟩)
        Scanner.Reached.start.toEnd
    have escaped := beside.related.noted offset taken
    exact ⟨escaped, escaped.closable⟩

/--
An escaped quote before the last quote of
a line that a return and a line feed end.
-/
theorem escapesTaken_closable_beforeLineEnd :
    2 ∈ escapesTaken "\"a\\\"b\"\r\n".toList ∧
      ReturnsEndLines "\"a\\\"b\"\r\n".toList ∧
      EscapedQuoteAt "\"a\\\"b\"\r\n".toList 2 ∧
      ClosableAt "\"a\\\"b\"\r\n".toList 2 := by
  have taken : 2 ∈ escapesTaken "\"a\\\"b\"\r\n".toList := by decide +kernel
  have ends : ReturnsEndLines "\"a\\\"b\"\r\n".toList := by decide
  obtain ⟨-, answers⟩ := escapesTaken_closable "\"a\\\"b\"\r\n".toList
  exact ⟨taken, ends, (answers 2 taken).1, (answers 2 taken).2 ends⟩

/--
A quote is taken as escaped for the sake of a further one behind a carriage
return, at which the string is given up.
-/
theorem escapesTaken_beyondReturn :
    let text := "\"a\\\"\r\"b\"".toList
    2 ∈ escapesTaken text ∧ ¬ ClosableAt text 2 ∧
      Lexeme.faults (all text) = [(.openString, ⟨0, 4⟩)] := by
  intro text
  refine ⟨by decide +kernel, ?_, by decide +kernel⟩
  rintro ⟨before, between, after, whole, place, -, noReturn⟩
  have behind : "\\\"\r\"b\"".toList = '\\' :: '"' :: (between ++ '"' ::
      after) := by
    have shape : textAt text 2 = "\\\"\r\"b\"".toList := by decide +kernel
    rw [← shape, whole, ← place, textAt_append]
  have further : '\r' :: "\"b\"".toList = between ++ '"' :: after := by
    injection behind with _ behind
    injection behind
  cases between with
  | nil => exact absurd (List.cons.inj further).1 (by decide)
  | cons first between =>
      have isReturn := (List.cons.inj further).1
      exact noReturn (isReturn ▸ List.mem_cons_self)

end Clipper.Lexeme
