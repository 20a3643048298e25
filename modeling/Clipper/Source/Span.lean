/-!
# Spans of source text

A span is a pair of byte offsets.  Tokens, tree nodes and diagnostics all use
the same type.  A span built by a reader of text has `start ≤ stop`; spans
handed in from outside may be in any order, so the type does not demand it.

The merge of spans begins at the least of their beginnings and ends at the
greatest of their ends, so it holds all of them in whatever order they are
given.  An empty span stands at an offset, between two characters or at an end
of the text.
-/

namespace Clipper

/-- A half-open range of byte offsets: `start` is inside, `stop` is not. -/
structure Span where
  start : Nat
  stop : Nat
deriving DecidableEq, Inhabited

namespace Span

/-- The empty span at an offset. -/
def empty (offset : Nat) : Span :=
  ⟨offset, offset⟩

/-- The number of bytes in a span whose ends are in order. -/
def length (span : Span) : Nat :=
  span.stop - span.start

/-- A span is empty when its two ends agree. -/
def isEmpty (span : Span) : Bool :=
  span.start == span.stop

/-- The least span that holds both arguments. -/
def merge (first second : Span) : Span :=
  ⟨min first.start second.start, max first.stop second.stop⟩

/-- The least span that holds `span` and every span of the list. -/
def mergeAll
    (span : Span)
    (others : List Span) :
    Span :=
  others.foldl merge span

/-- `outer.contains inner` holds when neither end of `inner` sticks out. -/
def contains (outer inner : Span) : Bool :=
  decide (outer.start ≤ inner.start) && decide (inner.stop ≤ outer.stop)

/-- A span is written `start..stop`. -/
def text (span : Span) : String :=
  toString span.start ++ ".." ++ toString span.stop

end Span

end Clipper
