import Clipper.Directive.Filtered
import Clipper.Grammar.Program
/-!
# Analyses

An analysis of a source text holds its lexemes and the reading of its program.
The faults of the lexemes and the reports of the reading are two channels of
errors; the diagnostics of an analysis merge them in the order of the source.

An error token appears in both channels: as a fault, which says what is wrong
with the piece of text, and perhaps as a report of an invalid token, which
says only that no statement can use it.  The diagnostics keep the fault and
drop that report.  The sorting is stable, so of two errors at one offset the
lexical one comes first.  Where directives are removed, the lexemes of the
filtered text are moved to their places in the source text before the program
is read, and so all spans are spans of the source.
-/

namespace Clipper

open Grammar

/-- The two channels of errors. -/
inductive Stage where
  | lexical
  | syntactic
deriving DecidableEq

/-- An error of either channel; its message does not tell the offset. -/
structure Diagnostic where
  stage : Stage
  span : Span
  message : String
deriving DecidableEq

/-- All that is known about a source text. -/
structure Analysis where
  lexemes : List Lexeme
  reading : Reading Program

/-- The lexemes of a text without its directives, placed in the text. -/
def Lexeme.allOutsideDirectives (text : List Char) : List Lexeme :=
  let filtered := Directive.Filtered.ofSource text
  (all filtered.text).map
    (fun lexeme => lexeme.moveTo (filtered.place lexeme.token.span))

namespace Analysis

/--
Analyses a source text, with its directives removed first if that is asked for.
-/
def ofText
    (stripDirectives : Bool)
    (text : List Char) :
    Analysis :=
  let lexemes :=
    if stripDirectives then Lexeme.allOutsideDirectives text
    else Lexeme.all text
  ⟨lexemes, readProgram (Lexeme.tokens lexemes)⟩

/-- The tokens of a source text. -/
def tokens (analysis : Analysis) : List Token :=
  Lexeme.tokens analysis.lexemes

/-- The lexical faults of a source text, with their spans. -/
def faults (analysis : Analysis) : List (Fault × Span) :=
  Lexeme.faults analysis.lexemes

/-- Whether either channel has an error. -/
def hasErrors (analysis : Analysis) : Bool :=
  !analysis.faults.isEmpty || analysis.reading.hasErrors

/-- The diagnostic of a lexical fault. -/
def ofFault (fault : Fault × Span) : Diagnostic :=
  ⟨.lexical, fault.2, fault.1.message⟩

/--
The diagnostic of a report; a report of
an invalid token repeats a lexical fault.
-/
def ofReport? (report : Report) : Option Diagnostic :=
  match report.cause with
  | .invalidToken _ => none
  | cause => some ⟨.syntactic, report.span, cause.message⟩

/--
The errors of both channels in the order of their beginnings; at one offset
lexical faults come first, and each channel keeps its order.
-/
def diagnostics (analysis : Analysis) : List Diagnostic :=
  (analysis.faults.map ofFault ++
    analysis.reading.reports.filterMap ofReport?).mergeSort
    (fun first second => decide (first.span.start ≤ second.span.start))

end Analysis

end Clipper
