import Clipper.Proofs.Source.Containment
import Clipper.Proofs.Syntax.Node

/-!
# Trees whose spans are nested

A tree is nested in a family of spans when the span of each of its nodes is in
the family and holds the spans of the node's children.  A reader builds a node
from a span and the parts of the node: it merges the spans of all parts into the
span that it starts from.  Such a node is nested when its parts are.

One lemma says this of all nodes, and for each form of node there is a short
one that names the parts of this form.  They are stated for any family of
spans, so that the same lemmas serve two statements about a program: that
spans are nested, and that they lie inside the text and are in order.
-/

namespace Clipper.Node

variable {family : SpanFamily}

/-- The span of a node is in the family and holds the spans of its children. -/
def Fits
    (family : SpanFamily)
    (node : Node) :
    Prop :=
  family.span node.span ∧
  ∀ child ∈ node.children, node.span.contains child.span = true

/-- Every node of a tree fits. -/
def Nested
    (family : SpanFamily)
    (root : Node) :
    Prop :=
  Everywhere (Fits family) root

theorem Nested.span
    {root : Node}
    (nested : Nested family root) :
    family.span root.span :=
  nested.here.1

/--
A node is nested when its children are, and its span is the merge of a span in
the family with the spans of its children, in any order.
-/
theorem nested_of_mergeAll
    {root : Node}
    (base : Span)
    (parts : List Span)
    (merged : root.span = base.mergeAll parts)
    (inside : family.span base)
    (same : ∀ part, part ∈ parts ↔ part ∈ root.children.map Node.span)
    (below : ∀ child ∈ root.children, Nested family child) :
    Nested family root := by
  have partsInside : ∀ part ∈ parts, family.span part := by
    intro part member
    rcases List.mem_map.mp ((same part).mp member)
      with ⟨child, childMember, rfl⟩
    exact (below child childMember).span
  refine Everywhere.of_children ⟨?_, ?_⟩ below
  · rw [merged]
    exact family.mergeAll inside partsInside
  · intro child member
    rw [merged]
    apply Span.contains_mergeAll_of_mem
    exact (same child.span).mpr (List.mem_map_of_mem member)

/-- A nested node stays nested when its span is merged with one more span. -/
theorem Nested.widened
    {root wider : Node}
    {base : Span}
    (nested : Nested family root)
    (merged : wider.span = base.merge root.span)
    (inside : family.span base)
    (same : wider.children = root.children) :
    Nested family wider := by
  refine Everywhere.of_children ⟨?_, ?_⟩ ?_
  · rw [merged]
    exact family.merge inside nested.span
  · intro child member
    rw [same] at member
    rw [merged]
    exact Span.contains_trans
      (Span.contains_merge_right base root.span)
      (nested.here.2 child member)
  · intro child member
    rw [same] at member
    exact nested.below member

/-- A node without children is nested when its span is in the family. -/
theorem nested_leaf
    {root : Node}
    (inside : family.span root.span)
    (childless : root.children = []) :
    Nested family root :=
  nested_of_mergeAll root.span [] rfl inside (by simp [childless])
    (by simp [childless])

/--
The expression that is a name is nested if the span of the
name is in the family.
-/
theorem nested_name
    {name : Identifier}
    (inside : family.span name.span) :
    Nested family (.expression (.ofIdentifier name)) := by
  have identifierNested : Nested family (.identifier name) :=
    nested_leaf inside rfl
  refine nested_of_mergeAll name.span [name.span] ?_ inside ?_ ?_
  · simp [Expr.ofIdentifier, Expr.span, Span.mergeAll, Span.merge, span]
  · simp [children, ofExpr, Expr.ofIdentifier, span]
  · simpa [children, ofExpr, Expr.ofIdentifier] using identifierNested

theorem nested_placeholder
    {position : Nat}
    (inside : family.offset position) :
    Nested family (.expression (.placeholder position)) :=
  nested_name (family.empty inside)

/-- Only the root of an expression changes with its span. -/
theorem children_withSpan
    (value : Expr)
    (outer : Span) :
    children (.expression (value.withSpan outer)) =
      children (.expression value) := by
  cases value <;> rfl

end Clipper.Node
