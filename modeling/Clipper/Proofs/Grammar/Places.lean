import Clipper.Grammar.Statement
import Clipper.Proofs.Grammar.Hull
import Clipper.Proofs.Grammar.PhraseLevels
import Clipper.Proofs.Syntax.Nested
import Clipper.Proofs.Syntax.Total

/-!
# The tokens under a node

An expression stands on tokens when they spell it and its span is their hull.  A
statement stands on tokens when these alone are read as it and its span is their
hull. An `ELSEIF` makes a statement that stands on no tokens; it begins where
the word does.

A tree is placed when this holds of everything in it, for some of the tokens
each time.

The nodes are those of the mutual types of trees, so `Held` is defined by what
it says of the node itself and of its children.  The lemmas here are about
names and about passing from few tokens to more; the modules on expressions
and statements prove for each rule that what it makes is held.
-/

namespace Clipper.Grammar

open Rule Node

/-- The tokens spell the expression, and its span is their hull. -/
structure StandsOn
    (value : Expr)
    (tokens : List Token) :
    Prop where
  spelled : ExpressionPhrase nestingLimit tokens value
  span : value.span = hull tokens

/--
With no other tokens ahead, the statement is
read; its span is the hull of the tokens.
-/
structure StandsAlone
    (made : Stmt)
    (tokens : List Token) :
    Prop where
  span : made.span = hull tokens
  alone :
    ∃ state next,
      state.rest = tokens ∧ state.reports = [] ∧
        Reads (Grammar.statement nestingLimit) state (some made) next ∧
        next.rest = []

/--
The statement is a conditional that begins where
one of the tokens does that is an `ELSEIF`.
-/
structure FromElseIf
    (made : Stmt)
    (tokens : List Token) :
    Prop where
  conditional : made.isConditional = true
  word : ∃ token ∈ tokens, token.kind = .elseIf ∧
    token.span.start = made.span.start

/-- The expression or statement at a node stands on some of the tokens. -/
def StandsAmong (tokens : List Token) : Node → Prop
  | .expression value => ∃ part, part <:+: tokens ∧ StandsOn value part
  | .statement made =>
      FromElseIf made tokens ∨ ∃ part, part <:+: tokens ∧ StandsAlone made part
  | .identifier _ | .binding _ | .block _ => True

/-- What stands on some of these tokens stands on some of more tokens. -/
theorem StandsAmong.mono
    {part tokens : List Token}
    {node : Node}
    (stands : StandsAmong part node)
    (inside : part <:+: tokens) :
    StandsAmong tokens node := by
  cases node with
  | expression value =>
      obtain ⟨piece, pieceInside, stands⟩ := stands
      exact ⟨piece, pieceInside.trans inside, stands⟩
  | statement made =>
      rcases stands
        with ⟨conditional, token, member, word⟩ | ⟨piece, pieceInside, stands⟩
      · exact .inl ⟨conditional, token, inside.subset member, word⟩
      · exact .inr ⟨piece, pieceInside.trans inside, stands⟩
  | identifier | binding | block => trivial

/-- Everything in a tree stands on some of the tokens. -/
abbrev Placed
    (tokens : List Token)
    (node : Node) :
    Prop :=
  Everywhere (StandsAmong tokens) node

theorem Placed.mono
    {part tokens : List Token}
    {node : Node}
    (placed : Placed part node)
    (inside : part <:+: tokens) :
    Placed tokens node :=
  fun inner within => (placed inner within).mono inside

theorem infix_behind
    {part rest : List Token}
    (before : List Token)
    (inside : part <:+: rest) :
    part <:+: before ++ rest :=
  inside.trans (List.suffix_append before rest).isInfix

/-- A placed tree whose span is within the hull of the tokens. -/
structure Held
    (tokens : List Token)
    (node : Node) :
    Prop where
  placed : Placed tokens node
  contained : (hull tokens).contains node.span = true

/-- A name is held by its token. -/
theorem held_name
    {name : Identifier}
    {tokens part : List Token}
    (ordered : Ordered tokens)
    (inside : part <:+: tokens)
    (nonempty : part ≠ [])
    (span : name.span = hull part) :
    Held tokens (.identifier name) := by
  constructor
  · exact Everywhere.of_children trivial fun child member =>
      absurd member List.not_mem_nil
  · change (hull tokens).contains name.span = true
    rw [span]
    exact ordered.contains_hull inside nonempty

/--
What is held by a run of tokens is held by a longer run, if the
tokens are in order.
-/
theorem Held.mono
    {part tokens : List Token}
    {node : Node}
    (held : Held part node)
    (ordered : Ordered tokens)
    (inside : part <:+: tokens)
    (nonempty : part ≠ []) :
    Held tokens node :=
  ⟨held.placed.mono inside,
    Span.contains_trans (ordered.contains_hull inside nonempty) held.contained⟩

/-- The hull with the spans of held trees merged in is the hull. -/
theorem mergeAll_held
    {tokens : List Token}
    {nodes : List Node}
    (held : ∀ node ∈ nodes, Held tokens node) :
    (hull tokens).mergeAll (nodes.map Node.span) = hull tokens := by
  apply Span.mergeAll_of_contains
  intro span member
  obtain ⟨node, isNode, rfl⟩ := List.mem_map.mp member
  exact (held node isNode).contained

end Clipper.Grammar
