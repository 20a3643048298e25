import Clipper.Syntax.Statement

/-!
# Nodes of a program

Identifiers, expressions, bindings, statements and blocks are the nodes of a
program.  The children of a node stand in the order of the source.  A property
holds everywhere in a tree when every node of the tree has it; this is the same
as to hold at the root and everywhere below each child.

The grammar has several sorts of trees, defined together by mutual recursion;
the node is the sum of them, so that a property of all nodes can be stated
once.  The lemmas on the children of a node say what they are for each form,
which is where a new form of statement would have to be added.
-/

namespace Clipper

/-- A node of a program, with the tree below it. -/
inductive Node where
  | identifier (identifier : Identifier)
  | expression (expression : Expr)
  | binding (binding : Binding)
  | statement (statement : Stmt)
  | block (block : Block)

namespace Node

/-- The span of a node. -/
def span : Node → Span
  | .identifier name => name.span
  | .expression value => value.span
  | .binding bound => bound.span
  | .statement part => part.span
  | .block body => body.span

/-- The children of an expression. -/
def ofExpr : Expr → List Node
  | .literal .. => []
  | .name name _ => [identifier name]
  | .unary _ operand _ => [expression operand]
  | .binary _ left right _ => [expression left, expression right]
  | .call callee arguments _ => expression callee :: arguments.map expression
  | .index target position _ => [expression target, expression position]
  | .array elements _ => elements.map expression
  | .property receiver message _ => [expression receiver, identifier message]
  | .send receiver message arguments _ =>
      expression receiver :: identifier message :: arguments.map expression
  | .field area column _ => [expression area, identifier column]
  | .codeBlock parameters body _ =>
      parameters.map identifier ++ body.map expression

/-- The children of a statement. -/
def ofStmt : Stmt → List Node
  | .expression value _ => [expression value]
  | .assign target value _ => [expression target, expression value]
  | .update target _ value _ => [expression target, expression value]
  | .print _ values _ => values.map expression
  | .declare _ bindings _ => bindings.map binding
  | .result value? _ => value?.toList.map expression
  | .conditional condition positive negative? _ =>
      expression condition :: block positive :: negative?.toList.map block
  | .whileLoop condition body _ => [expression condition, block body]
  | .forLoop counter first last step? body _ =>
      identifier counter :: expression first :: expression last ::
        (step?.toList.map expression ++ [block body])
  | .routine head body _ =>
      identifier head.name :: (head.parameters.map identifier ++ [block body])
  | .exit _ | .loop _ => []

/-- The children of a node. -/
def children : Node → List Node
  | .identifier _ => []
  | .expression value => ofExpr value
  | .binding bound =>
      identifier bound.name :: bound.value?.toList.map expression
  | .statement part => ofStmt part
  | .block body => body.statements.map statement

/-- The nodes of the tree below a node, itself among them. -/
inductive Within (root : Node) : Node → Prop where
  | root : Within root root
  | child
      {parent child : Node}
      (inside : Within root parent)
      (member : child ∈ parent.children) :
      Within root child

theorem Within.trans
    {root middle node : Node}
    (upper : Within root middle)
    (lower : Within middle node) :
    Within root node := by
  induction lower with
  | root => exact upper
  | child _ member hypothesis => exact .child hypothesis member

/-- A node of a tree is the root, or it stands below a child of the root. -/
theorem Within.root_or_below
    {root node : Node}
    (inside : Within root node) :
    node = root ∨ ∃ child ∈ root.children, Within child node := by
  induction inside with
  | root => exact Or.inl rfl
  | child _ member hypothesis =>
      right
      rcases hypothesis with rfl | ⟨below, belowMember, within⟩
      · exact ⟨_, member, .root⟩
      · exact ⟨below, belowMember, .child within member⟩

/-- A property holds everywhere in a tree when all nodes of the tree have it. -/
def Everywhere
    (property : Node → Prop)
    (root : Node) :
    Prop :=
  ∀ node, Within root node → property node

namespace Everywhere

variable {property : Node → Prop} {root : Node}

theorem here (everywhere : Everywhere property root) : property root :=
  everywhere root .root

theorem below
    (everywhere : Everywhere property root)
    {child : Node}
    (member : child ∈ root.children) :
    Everywhere property child :=
  fun node inside => everywhere node ((Within.root.child member).trans inside)

theorem of_children
    (holds : property root)
    (belowChildren : ∀ child ∈ root.children, Everywhere property child) :
    Everywhere property root := by
  intro node inside
  rcases inside.root_or_below with rfl | ⟨child, member, within⟩
  · exact holds
  · exact belowChildren child member node within

end Everywhere

end Node

end Clipper
