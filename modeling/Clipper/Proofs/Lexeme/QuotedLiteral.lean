import Clipper.Proofs.Lexeme.ReaderSimulation

/-!
# Texts written as quoted strings

Every text without a line break can be written between quotes of either kind:
its backslashes are doubled, and so are the quotes of that kind.  A reader takes
the pairs one by one from the left, so it never meets a lone backslash, and it
never asks whether a quote is escaped.  Therefore what stands behind the literal
does not matter, as long as it does not begin with a further quote of the same
kind.

A lone backslash would be the danger: before a quote, it asks what follows on
the line.  The literal has none, since its backslashes come in pairs.  The
content that the reader gives back is compared with the text by an induction
on the text, with one case for each way in which a character is written.  The
spans of the result follow from the number of characters taken.
-/

namespace Clipper.Lexeme

open Clipper.Source

/-- The quotes that open a string. -/
def IsQuote (quote : Char) : Prop :=
  quote = '"' ∨ quote = '\''

/-- A text with every backslash and every quote of one kind doubled. -/
def withDoubled
    (quote : Char)
    (text : List Char) :
    List Char :=
  text.flatMap fun character =>
    if character = '\\' ∨ character = quote then [character, character]
    else [character]

/-- A text written as a string between quotes of one kind. -/
def quotedLiteral
    (quote : Char)
    (text : List Char) :
    List Char :=
  quote :: (withDoubled quote text ++ [quote])

section

variable {σ : Type} {reader : LineReader σ} {memory : σ} {offset : Nat}
variable {quote : Char} (isQuote : IsQuote quote)

include isQuote

theorem readQuoted_doubled {text : List Char} :
    readQuoted reader quote memory offset (quote :: quote :: text) =
      (readQuoted reader quote memory (offset + 2) text).push quote 2 := by
  rcases isQuote with rfl | rfl <;> rw [readQuoted.eq_8] <;> simp

/-- A string ends at a quote after which none follows. -/
theorem readQuoted_closing
    {text : List Char}
    (single : text.head? ≠ some quote) :
    readQuoted reader quote memory offset (quote :: text) =
      ⟨[], 1, true, memory⟩ := by
  rcases isQuote with rfl | rfl
  all_goals
    cases text with
    | nil => rw [readQuoted.eq_7] <;> simp
    | cons following text =>
        have differs : following ≠ _ := fun same => single (congrArg some same)
        rw [readQuoted.eq_8, if_pos rfl, if_neg differs]
        all_goals simp

/--
Between quotes, a text with doubled characters
is read as the text, without a question.
-/
theorem readQuoted_withDoubled
    {text rest : List Char}
    (oneLine : ∀ character ∈ text, character ≠ '\n' ∧ character ≠ '\r')
    (single : rest.head? ≠ some quote) :
    readQuoted reader quote memory offset
      (withDoubled quote text ++ quote :: rest) =
      ⟨text, (withDoubled quote text).length + 1, true, memory⟩ := by
  induction text generalizing offset with
  | nil => exact readQuoted_closing isQuote single
  | cons character text hypothesis =>
      obtain ⟨⟨lineFeed, carriageReturn⟩, others⟩ :=
        List.forall_mem_cons.mp oneLine
      by_cases isSlash : character = '\\'
      · subst isSlash
        have pair : withDoubled quote ('\\' :: text) =
            '\\' :: '\\' :: withDoubled quote text := by
          simp [withDoubled]
        rw [pair, List.cons_append, List.cons_append, readQuoted,
          hypothesis others]
        rfl
      by_cases same : character = quote
      · subst same
        have pair : withDoubled character (character :: text) =
            character :: character :: withDoubled character text := by
          simp [withDoubled]
        rw [pair, List.cons_append, List.cons_append,
          readQuoted_doubled isQuote, hypothesis others]
        rfl
      · have lone : withDoubled quote (character :: text) =
            character :: withDoubled quote text := by
          simp [withDoubled, isSlash, same]
        rw [lone, List.cons_append, readQuoted_cons lineFeed carriageReturn
          isSlash same, hypothesis others]
        rfl

/--
Wherever a literal stands, it is cut as the string that it was written for.
-/
theorem cutPiece_quotedLiteral
    {text rest : List Char}
    (oneLine : ∀ character ∈ text, character ≠ '\n' ∧ character ≠ '\r')
    (single : rest.head? ≠ some quote)
    (before : List Char) :
    cutPiece reader memory before offset quote
      (withDoubled quote text ++ quote :: rest) =
      (⟨(withDoubled quote text).length + 1,
        .token .string (String.ofList text)⟩, memory) := by
  have opens : Opening.of before quote
      (withDoubled quote text ++ quote :: rest) = .quote := by
    rcases isQuote with rfl | rfl <;> rfl
  rw [cutPiece, opens]
  simp only [quotePiece, readQuoted_withDoubled isQuote oneLine single, if_true]

end

/--
Every text without a line break can be written as a string
between quotes of either kind: the literal is the first token,
its lexeme is the text that was written, and it ends behind
the closing quote, whatever stands there but a further quote.
-/
theorem all_quotedLiteral
    {quote : Char}
    (isQuote : IsQuote quote)
    {text rest : List Char}
    (oneLine : ∀ character ∈ text, character ≠ '\n' ∧ character ≠ '\r')
    (single : rest.head? ≠ some quote) :
    ∃ later,
      all (quotedLiteral quote text ++ rest) =
        ⟨⟨.string, ⟨0, byteWidth (quotedLiteral quote text)⟩,
          String.ofList text⟩, none⟩ ::
          later := by
  have piece :
      cutPiece .remembering LineReader.remembering.initial [] 0 quote
          ((withDoubled quote text ++ [quote]) ++ rest) =
        (⟨(withDoubled quote text ++ [quote]).length,
          .token .string (String.ofList text)⟩, .initial) := by
    rw [List.append_assoc, List.length_append]
    exact cutPiece_quotedLiteral isQuote oneLine single []
  exact ⟨_, allWith_of_piece piece⟩

/-- A backslash and a quote behind the literal do not change it. -/
theorem all_quotedLiteral_slashBehind :
    IsQuote '"' ∧
      (∀ character ∈ "a\\\"".toList, character ≠ '\n' ∧ character ≠ '\r') ∧
        "\\\"".toList.head? ≠ some '"' ∧
          ∃ later,
            all (quotedLiteral '"' "a\\\"".toList ++ "\\\"".toList) =
              ⟨⟨.string, ⟨0, 7⟩, "a\\\""⟩, none⟩ :: later := by
  have oneLine : ∀ character ∈ ['a', '\\', '"'], character ≠ '\n' ∧
      character ≠ '\r' := by
    simp
  refine ⟨.inl rfl, oneLine, by decide, ?_⟩
  exact all_quotedLiteral (.inl rfl) oneLine (by decide)

end Clipper.Lexeme
