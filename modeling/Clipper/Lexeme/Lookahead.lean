import Clipper.Source.Text
/-!
# Looking ahead along a line

Two questions need the rest of the line: whether `\"` inside a string is an
escaped quote, and whether a `[` opens a path literal such as `[C:\data\]`.  The
answers are remembered, so that a line with many such places is walked along
only once.  A remembered answer is used for every later place up to the point
where the walk stopped; it is meant for questions in increasing order.

`escapesQuote` and `pathEnd?` give the same two answers without a memory.  A
`LineReader` is one of the two ways to answer.
-/

namespace Clipper.Lexeme

open Clipper.Source

/-- What earlier walks along a line have found; all offsets are absolute. -/
structure Lookahead where
  /-- The end of the line on which `lastQuote` was looked for. -/
  quoteLineEnd : Nat
  /-- The last double quote on that line. -/
  lastQuote : Option Nat
  /-- Where the last walk from a `[` stopped. -/
  bracketStop : Nat
  /-- The `]` on which that walk stopped, if it stopped on one. -/
  bracketClose : Option Nat
  /-- The last backslash which that walk passed. -/
  lastBackslash : Option Nat
deriving DecidableEq

namespace Lookahead

/-- Nothing has been looked for yet. -/
def initial : Lookahead :=
  ⟨0, none, 0, none, none⟩

/--
Walks to the end of the line for its last
double quote, unless that is remembered.
-/
def seekQuote
    (lookahead : Lookahead)
    (offset : Nat)
    (text : List Char) :
    Lookahead :=
  if lookahead.quoteLineEnd ≤ offset then
    let line := firstLine text
    { lookahead with
      quoteLineEnd := offset + byteWidth line
      lastQuote := lastOffset? '"' offset line }
  else lookahead

/--
Whether the backslash and quote at the beginning of `text`, which begins at
`offset`, are an escaped quote: a further quote must follow on the line.
-/
def escapesQuote
    (lookahead : Lookahead)
    (offset : Nat)
    (text : List Char) :
    Bool × Lookahead :=
  match text with
  | '\\' :: '"' :: _ =>
      let lookahead := lookahead.seekQuote offset text
      (lookahead.lastQuote.any (fun quote => decide (offset + 1 < quote)),
        lookahead)
  | _ => (false, lookahead)

/-- The part of a line that a path literal may cover. -/
def pathText (text : List Char) : List Char :=
  text.takeWhile (fun character =>
    character != '\n' && character != '\r' && character != ']')

/--
Walks from a `[` to the first `]` or line
break, unless an earlier walk went past it.
-/
def seekBracket
    (lookahead : Lookahead)
    (offset : Nat)
    (rest : List Char) :
    Lookahead :=
  if lookahead.bracketStop ≤ offset then
    let inner := pathText rest
    let stop := offset + 1 + byteWidth inner
    { lookahead with
      bracketStop := stop
      bracketClose :=
        if (rest.drop inner.length).head? = some ']' then some stop else none
      lastBackslash := lastOffset? '\\' (offset + 1) inner }
  else lookahead

/--
The offset of the `]` that closes the path literal at the beginning of `text`:
it stands on the same line, and a backslash stands between.
-/
def pathEnd?
    (lookahead : Lookahead)
    (offset : Nat)
    (text : List Char) :
    Option Nat × Lookahead :=
  match text with
  | '[' :: rest =>
      let lookahead := lookahead.seekBracket offset rest
      let answer :=
        match lookahead.bracketClose with
        | some close =>
            if lookahead.lastBackslash.any
                (fun backslash => decide (offset < backslash)) then
              some close
            else none
        | none => none
      (answer, lookahead)
  | _ => (none, lookahead)

end Lookahead

/--
Whether `\"` at the beginning of a text is an escaped quote, without a memory.
-/
def escapesQuote : List Char → Bool
  | '\\' :: '"' :: rest => (firstLine rest).contains '"'
  | _ => false

/-- The offset of the `]` that closes a path literal, without a memory. -/
def pathEnd?
    (offset : Nat) :
    List Char → Option Nat
  | '[' :: rest =>
      let inner := Lookahead.pathText rest
      if (rest.drop inner.length).head? = some ']' ∧ '\\' ∈ inner then
        some (offset + 1 + byteWidth inner)
      else none
  | _ => none

/-- A way to answer the two questions, with a memory of type `σ`. -/
structure LineReader (σ : Type) where
  /-- The memory before the first question. -/
  initial : σ
  /-- Whether the text at an offset begins with an escaped quote. -/
  escapesQuote : σ → Nat → List Char → Bool × σ
  /-- Where the path literal at an offset ends. -/
  pathEnd? : σ → Nat → List Char → Option Nat × σ

/-- Answers that remember earlier walks along the line. -/
def LineReader.remembering : LineReader Lookahead :=
  ⟨.initial, Lookahead.escapesQuote, Lookahead.pathEnd?⟩

/-- Answers that walk along the line anew each time. -/
def LineReader.plain : LineReader Unit where
  initial := ()
  escapesQuote _ _ text := (Lexeme.escapesQuote text, ())
  pathEnd? _ offset text := (Lexeme.pathEnd? offset text, ())

end Clipper.Lexeme
