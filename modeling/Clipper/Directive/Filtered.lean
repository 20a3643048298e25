import Clipper.Directive.Line
import Clipper.Source.Span
/-!
# Text without its directives

The kept lines of a source text form the filtered text.  A segment is a maximal
run of kept lines; the segments tell for every offset of the filtered text where
it came from.  `Filtered.place?` carries a span of the filtered text back to the
source text.

At a place where lines were removed, an offset of the filtered text stands at
the end of one segment and at the beginning of the next.  A span begins at the
later of the two and ends at the earlier one, so that it does not reach over
removed lines at its ends.  An empty span at the end of the filtered text is
placed at the end of the source text.
-/

namespace Clipper.Directive

open Clipper.Source

/--
A run of bytes that stands at two offsets:
in the filtered text and in the source text.
-/
structure Segment where
  filtered : Nat
  original : Nat
  length : Nat
deriving DecidableEq

/-- The runs of kept lines, for lines that begin at the two given offsets. -/
def segmentsFrom
    (filtered original : Nat) :
    List Line → List Segment
  | [] => []
  | line :: rest =>
      let width := byteWidth line.text
      if line.kept then
        match segmentsFrom (filtered + width) (original + width) rest with
        | [] => [⟨filtered, original, width⟩]
        | segment :: later =>
            if segment.original = original + width then
              ⟨filtered, original, width + segment.length⟩ :: later
            else ⟨filtered, original, width⟩ :: segment :: later
      else segmentsFrom filtered (original + width) rest

/-- The text of the kept lines. -/
def keptText (lines : List Line) : List Char :=
  (lines.filter Line.kept).flatMap Line.text

/-- A source text without its directives, and where its parts came from. -/
structure Filtered where
  text : List Char
  segments : List Segment
  /-- The number of bytes of the source text. -/
  sourceWidth : Nat

namespace Filtered

/-- Removes the directives of a source text. -/
def ofSource (source : List Char) : Filtered :=
  let lines := mark source
  ⟨keptText lines, segmentsFrom 0 0 lines, byteWidth source⟩

/-- The source offset at which a segment's byte, or its end, stands. -/
def within?
    (segment : Segment)
    (offset : Nat) :
    Option Nat :=
  if offset - segment.filtered ≤ segment.length then
    some (segment.original + (offset - segment.filtered))
  else none

/--
Where a span that begins at an offset begins;
between two segments the later one counts.
-/
def placeStart?
    (filtered : Filtered)
    (offset : Nat) :
    Option Nat := do
  let segment ←
    (filtered.segments.takeWhile
      (fun segment => decide (segment.filtered ≤ offset))).getLast?
  within? segment offset

/--
Where a span that ends at an offset ends;
between two segments the earlier one counts.
-/
def placeStop?
    (filtered : Filtered)
    (offset : Nat) :
    Option Nat := do
  let segment ←
    (filtered.segments.takeWhile
      (fun segment => decide (segment.filtered < offset))).getLast?
  within? segment offset

/--
The span of the source text that a span of the filtered text came from.  The
end of the filtered text belongs to the end of the source text.
-/
def place?
    (filtered : Filtered)
    (span : Span) :
    Option Span :=
  if filtered.segments.isEmpty then some (Span.empty filtered.sourceWidth)
  else do
    let start ← filtered.placeStart? span.start
    if span.isEmpty then
      if span.start = byteWidth filtered.text then
        some (Span.empty filtered.sourceWidth)
      else some (Span.empty start)
    else
      let stop ← filtered.placeStop? span.stop
      some ⟨start, max stop start⟩

/--
The source span of a span of the filtered
text, or the span itself where there is none.
-/
def place
    (filtered : Filtered)
    (span : Span) :
    Span :=
  (filtered.place? span).getD span

end Filtered

end Clipper.Directive
