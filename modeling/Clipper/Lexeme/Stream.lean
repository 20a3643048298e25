import Clipper.Lexeme.Piece
import Clipper.Token.Basic
/-!
# The stream of lexemes

A lexeme is a token together with its fault, if it has one.  A scanner is a cut
in a text with the memory of its line reader.  `Scanner.step?` takes off one
piece, `Scanner.next` the next lexeme, and `Scanner.lexemes` all that are left,
the last of which is the end of the text.

A step takes at least one character, so the lexemes of a text are found by
recursion on what is ahead.  `next` skips what has no lexeme and may be called
at the end as often as one likes; `lexemes` gives them all at once.  Both are
made from the same step, and a theorem says that they agree.
-/

namespace Clipper

open Clipper.Source

/-- A token, and the fault of a token of kind `error`. -/
structure Lexeme where
  token : Token
  fault? : Option Fault
deriving DecidableEq

namespace Lexeme

/-- The lexeme at the end of a text. -/
def endOfFile (offset : Nat) : Lexeme :=
  ⟨.endOfFile offset, none⟩

/-- The fault of a lexeme with its span. -/
def spannedFault? (lexeme : Lexeme) : Option (Fault × Span) :=
  lexeme.fault?.map (fun fault => (fault, lexeme.token.span))

/-- Moves a lexeme to another span. -/
def moveTo
    (lexeme : Lexeme)
    (span : Span) :
    Lexeme :=
  { lexeme with token := { lexeme.token with span := span } }

/--
The lexeme that a piece with this raw text and span makes, unless it is skipped.
-/
def ofContent?
    (raw : List Char)
    (span : Span) :
    Content → Option Lexeme
  | .skipped => none
  | .token kind text => some ⟨⟨kind, span, text⟩, none⟩
  | .fault cause => some ⟨⟨.error, span, String.ofList raw⟩, some cause⟩

/-- A place in a text, with what was remembered about the line. -/
structure Scanner (σ : Type) where
  cut : Cut
  memory : σ

/--
What one step takes off: the raw characters, their span, and what they make.
-/
structure Taken where
  raw : List Char
  span : Span
  content : Content

/-- The lexeme of what was taken off, unless it is skipped. -/
def Taken.lexeme? (taken : Taken) : Option Lexeme :=
  ofContent? taken.raw taken.span taken.content

theorem Cut.skip_after
    (count : Nat)
    (cut : Cut) :
    (cut.skip count).after = cut.after.drop count := by
  induction count generalizing cut with
  | zero => simp [Cut.skip]
  | succ count hypothesis =>
      rw [Cut.skip, hypothesis]
      cases shape : cut.after with
      | nil => simp [Cut.next, shape]
      | cons character rest => simp [Cut.next, shape]

namespace Scanner

variable {σ : Type}

/-- The scanner at the beginning of a text. -/
def ofText
    (reader : LineReader σ)
    (text : List Char) :
    Scanner σ :=
  ⟨Cut.ofText text, reader.initial⟩

/-- Takes one piece off, unless the text is at its end. -/
def step?
    (reader : LineReader σ)
    (scanner : Scanner σ) :
    Option (Taken × Scanner σ) :=
  match scanner.cut.after with
  | [] => none
  | first :: rest =>
      let cut := scanner.cut
      let (piece, memory) :=
        cutPiece reader scanner.memory cut.before cut.offset first rest
      let following := cut.skip (piece.extra + 1)
      let text := (first :: rest).take (piece.extra + 1)
      let taken := ⟨text, ⟨cut.offset, following.offset⟩, piece.content⟩
      some (taken, ⟨following, memory⟩)

theorem step?_shorter
    {reader : LineReader σ}
    {scanner following : Scanner σ}
    {taken : Taken}
    (step : scanner.step? reader = some (taken, following)) :
    following.cut.after.length < scanner.cut.after.length := by
  unfold step? at step
  split at step
  · simp at step
  · next first rest shape =>
      simp only [Option.some.injEq, Prod.mk.injEq] at step
      rcases step with ⟨_, moved⟩
      subst moved
      simp only [Cut.skip_after, shape, List.length_drop, List.length_cons]
      omega

/--
The next lexeme, and the scanner after it;
at the end it stays the end of the text.
-/
def next
    (reader : LineReader σ)
    (scanner : Scanner σ) :
    Lexeme × Scanner σ :=
  match _step : scanner.step? reader with
  | none => (endOfFile scanner.cut.offset, scanner)
  | some (taken, following) =>
      match taken.lexeme? with
      | some lexeme => (lexeme, following)
      | none => following.next reader
termination_by scanner.cut.after.length
decreasing_by exact step?_shorter _step

/-- All lexemes that are left; the last is the end of the text. -/
def lexemes
    (reader : LineReader σ)
    (scanner : Scanner σ) :
    List Lexeme :=
  match _step : scanner.step? reader with
  | none => [endOfFile scanner.cut.offset]
  | some (taken, following) =>
      match taken.lexeme? with
      | some lexeme => lexeme :: following.lexemes reader
      | none => following.lexemes reader
termination_by scanner.cut.after.length
decreasing_by all_goals exact step?_shorter _step

/-- The scanner after the last lexeme. -/
def toEnd
    (reader : LineReader σ)
    (scanner : Scanner σ) :
    Scanner σ :=
  match _step : scanner.step? reader with
  | none => scanner
  | some (_, following) => following.toEnd reader
termination_by scanner.cut.after.length
decreasing_by exact step?_shorter _step

end Scanner

/-- The lexemes of a text, read with a given line reader. -/
def allWith
    {σ : Type}
    (reader : LineReader σ)
    (text : List Char) :
    List Lexeme :=
  (Scanner.ofText reader text).lexemes reader

/-- The lexemes of a text; the last is the end of the text. -/
def all (text : List Char) : List Lexeme :=
  allWith .remembering text

/-- The tokens of a list of lexemes. -/
def tokens (lexemes : List Lexeme) : List Token :=
  lexemes.map token

/-- The faults of a list of lexemes, each with its span. -/
def faults (lexemes : List Lexeme) : List (Fault × Span) :=
  lexemes.filterMap spannedFault?

end Lexeme

end Clipper
