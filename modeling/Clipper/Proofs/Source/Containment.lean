import Clipper.Source.Span

/-!
# Containment of spans

Containment is an order on spans, and the merge of spans is an upper bound in
it.  A family of spans is a set of offsets together with a set of spans that a
reader of tokens never leaves: it is closed under everything that a reader does
to spans.  All spans are a family, and so are the spans whose ends are in order
and lie below a bound.

The laws of the family are the only facts about spans that the proofs on trees
use.  So the order of the offsets, the width of the text and even the text
itself are kept out of these proofs, and a further family would give a further
theorem at no cost.  The family of spans below a bound is the one from which
it follows that spans lie within the text.
-/

namespace Clipper

namespace Span

theorem contains_iff
    (outer inner : Span) :
    outer.contains inner = true ↔
      outer.start ≤ inner.start ∧ inner.stop ≤ outer.stop := by
  simp [contains]

@[simp]
theorem contains_refl (span : Span) : span.contains span = true := by
  simp [contains]

theorem contains_trans
    {outer middle inner : Span}
    (first : outer.contains middle = true)
    (second : middle.contains inner = true) :
    outer.contains inner = true := by
  rw [contains_iff] at first second ⊢
  exact ⟨Nat.le_trans first.1 second.1, Nat.le_trans second.2 first.2⟩

@[simp]
theorem merge_self (span : Span) : span.merge span = span := by
  simp [merge]

@[simp]
theorem contains_merge_left
    (first second : Span) :
    (first.merge second).contains first = true := by
  simp only [contains_iff, merge]
  exact ⟨Nat.min_le_left _ _, Nat.le_max_left _ _⟩

@[simp]
theorem contains_merge_right
    (first second : Span) :
    (first.merge second).contains second = true := by
  simp only [contains_iff, merge]
  exact ⟨Nat.min_le_right _ _, Nat.le_max_right _ _⟩

@[simp]
theorem contains_mergeAll_self
    (span : Span)
    (others : List Span) :
    (span.mergeAll others).contains span = true := by
  induction others generalizing span with
  | nil => exact contains_refl span
  | cons other rest hypothesis =>
      exact contains_trans (hypothesis (span.merge other))
        (contains_merge_left span other)

/-- The merge of spans holds each of them. -/
theorem contains_mergeAll_of_mem
    (span : Span)
    {others : List Span}
    {other : Span}
    (member : other ∈ others) :
    (span.mergeAll others).contains other = true := by
  induction others generalizing span with
  | nil => cases member
  | cons head rest hypothesis =>
      rcases List.mem_cons.mp member with equal | later
      · subst other
        exact contains_trans
          (contains_mergeAll_self (span.merge head) rest)
          (contains_merge_right span head)
      · exact hypothesis (span.merge head) later

end Span

/--
A set of offsets and a set of spans, closed under what a reader does to spans.
-/
structure SpanFamily where
  /-- The offsets at which a span may begin or end. -/
  offset : Nat → Prop
  /-- The spans themselves. -/
  span : Span → Prop
  zero : offset 0
  start : ∀ {inner : Span}, span inner → offset inner.start
  stop : ∀ {inner : Span}, span inner → offset inner.stop
  between : ∀ {first last : Nat}, offset first → offset last → first ≤ last →
    span ⟨first, last⟩
  merge : ∀ {first second : Span}, span first → span second →
    span (first.merge second)

namespace SpanFamily

variable (family : SpanFamily)

theorem empty
    {position : Nat}
    (inside : family.offset position) :
    family.span (Span.empty position) :=
  family.between inside inside (Nat.le_refl position)

theorem offset_max
    {first second : Nat}
    (firstInside : family.offset first)
    (secondInside : family.offset second) :
    family.offset (max first second) := by
  rcases Nat.le_total first second with order | order
  · rwa [Nat.max_eq_right order]
  · rwa [Nat.max_eq_left order]

/-- The span from an offset to a later one, or to itself. -/
theorem upTo
    {first last : Nat}
    (firstInside : family.offset first)
    (lastInside : family.offset last) :
    family.span ⟨first, max last first⟩ :=
  family.between firstInside (family.offset_max lastInside firstInside)
    (Nat.le_max_right last first)

/-- A family holds the merge of spans that it holds. -/
theorem mergeAll
    {span : Span}
    {others : List Span}
    (inside : family.span span)
    (othersInside : ∀ other ∈ others, family.span other) :
    family.span (span.mergeAll others) := by
  induction others generalizing span with
  | nil => exact inside
  | cons other rest hypothesis =>
      have merged := family.merge inside (othersInside other List.mem_cons_self)
      exact hypothesis merged
        (fun later member =>
          othersInside later (List.mem_cons_of_mem other member))

end SpanFamily

/-- All offsets and all spans. -/
def SpanFamily.all : SpanFamily where
  offset _ := True
  span _ := True
  zero := trivial
  start _ := trivial
  stop _ := trivial
  between _ _ _ := trivial
  merge _ _ := trivial

/--
The offsets up to a bound, and the spans between them whose ends are in order.
-/
def SpanFamily.below (bound : Nat) : SpanFamily where
  offset position := position ≤ bound
  span inner := inner.start ≤ inner.stop ∧ inner.stop ≤ bound
  zero := Nat.zero_le bound
  start inside := Nat.le_trans inside.1 inside.2
  stop inside := inside.2
  between _ lastInside order := ⟨order, lastInside⟩
  merge firstInside secondInside := by
    simp only [Span.merge]
    omega

end Clipper
