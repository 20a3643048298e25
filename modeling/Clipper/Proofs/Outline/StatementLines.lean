import Clipper.Proofs.Outline.ExpressionTerm
import Clipper.Proofs.Outline.Lines

/-!
# Statements as lines

The outline of a statement is the text of a line, which holds the term of the
statement, and of the lines inside it.  The head of the term tells which sort of
statement it is, and no statement but an expression has the head of an
expression; so the term and the lines inside tell the statement but for its
places.

The last part shows that terms and lines tell the statements.  Two statements
with the same term are of the same form, so there are as many cases as there
are forms, each with a lemma of its own.  The lemmas for compound statements
suppose that the lines of the blocks tell these blocks.  The theorem at the
end is an induction over statements, blocks and lists of statements, in which
this comes from smaller blocks.
-/

namespace Clipper

open Outline
open Relabelled (relabel)

/-! ## Terms -/

/--
The term of a declared name, which is a label where the name has a first value.
-/
def Binding.term (binding : Binding) : Term :=
  match binding.value? with
  | some value => .labelled binding.name.listing value.term
  | none => binding.name.term

/-- The term of the head of a routine. -/
def RoutineHead.term (head : RoutineHead) : Term :=
  .group (.routine head.isStatic head.kind) .round
    [head.name.term, .listed (head.parameters.map Identifier.term)]

namespace Stmt

/-- The term in the line of a statement. -/
def term : Stmt → Term
  | expression value _ => value.term
  | assign target value _ => .group .assign .round [target.term, value.term]
  | update target operator value _ =>
      .group .update .round
        [.word operator.spelling.toList, target.term, value.term]
  | print newLine values _ =>
      .group (.print newLine) .square (Expr.terms values)
  | declare storage bindings _ =>
      .group (.declare storage) .round (bindings.map Binding.term)
  | result none _ => .word Head.result.spelling
  | result (some value) _ => .group .result .round [value.term]
  | conditional condition _ _ _ => .group .conditional .round [condition.term]
  | whileLoop condition _ _ => .group .whileLoop .round [condition.term]
  | forLoop counter first last step? _ _ =>
      .group .forLoop .round
        ([counter.term, first.term, last.term] ++ step?.toList.map Expr.term)
  | routine head _ _ => head.term
  | exit _ => .word Head.exit.spelling
  | loop _ => .word Head.loop.spelling

/-- What the head of the term of a statement says. -/
def head : Stmt → Head
  | expression value _ => value.head
  | assign .. => .assign
  | update .. => .update
  | print newLine _ _ => .print newLine
  | declare storage _ _ => .declare storage
  | result .. => .result
  | conditional .. => .conditional
  | whileLoop .. => .whileLoop
  | forLoop .. => .forLoop
  | routine head _ _ => .routine head.isStatic head.kind
  | exit _ => .exit
  | loop _ => .loop

theorem lead_term (statement : Stmt) :
    statement.term.lead = statement.head.spelling := by
  cases statement with
  | expression value => exact value.lead_term
  | result value? => cases value? <;> rfl
  | _ => rfl

/-- Whether a statement is no more than an expression. -/
def isExpression : Stmt → Bool
  | expression .. => true
  | _ => false

end Stmt

/-- Whether a head is that of an expression. -/
def Outline.Head.isExpression : Head → Bool
  | literal _ | identifier | unary _ | binary _ | call | index | array | send
  | field | codeBlock => true
  | _ => false

theorem Expr.isExpression_head (value : Expr) :
    value.head.isExpression = true := by
  cases value <;> rfl

theorem Stmt.isExpression_head (statement : Stmt) :
    statement.head.isExpression = statement.isExpression := by
  cases statement with
  | expression value => exact value.isExpression_head
  | _ => rfl

/-! ## Lines -/

mutual

/-- The lines inside the line of a statement. -/
def Stmt.inner : Stmt → Lines
  | .conditional _ positive none _ =>
      .line (.word Head.positive.spelling) positive.lines .done
  | .conditional _ positive (some negative) _ =>
      .line (.word Head.positive.spelling) positive.lines
        (.line (.word Head.negative.spelling) negative.lines .done)
  | .whileLoop _ body _ | .forLoop _ _ _ _ body _ =>
      .line (.word Head.body.spelling) body.lines .done
  | .routine _ body _ => body.lines
  | .expression .. | .assign .. | .update .. | .print .. | .declare ..
  | .result .. | .exit _ | .loop _ => .done

/-- The lines of a block. -/
def Block.lines : Block → Lines
  | .of statements _ => Stmt.lines statements

/-- The lines of several statements. -/
def Stmt.lines : List Stmt → Lines
  | [] => .done
  | first :: rest => .line first.term first.inner (Stmt.lines rest)

end

/-! ## The text of the lines -/

theorem Binding.text_term (binding : Binding) :
    binding.term.text = binding.outline := by
  obtain ⟨name, value?, span⟩ := binding
  cases value? with
  | none => exact name.text_term.trans (List.append_nil _).symm
  | some value =>
      rw [term, Term.text, outline, value.text_term, List.append_assoc]

theorem Binding.map_text_terms (bindings : List Binding) :
    (bindings.map term).map Term.text = bindings.map outline := by
  rw [List.map_map]
  exact List.map_congr_left fun binding _ => binding.text_term

theorem RoutineHead.text_term (head : RoutineHead) :
    head.term.text = head.outline := by
  rw [term, outline, Term.text, Term.texts_eq_map, List.map_cons,
    List.map_singleton, Identifier.text_term, Term.text_listed,
    Identifier.map_text_terms]
  exact List.append_assoc ..

/-- A line with a word for a part of a statement, and the lines inside it. -/
theorem Outline.Lines.text_part
    (level : Nat)
    (word : List Char)
    (inner : Lines) :
    (line (.word word) inner .done).text level =
      outlineLine level word ++ inner.text (level + 1) := by
  rw [text, text, List.append_nil, Term.text_word]

mutual

/--
The term of a statement in a line, and the lines inside it one level deeper,
are the outline of the statement.
-/
theorem Stmt.text_line
    (level : Nat)
    (statement : Stmt) :
    outlineLine level statement.term.text ++ statement.inner.text (level + 1) =
      statement.outline level := by
  cases statement with
  | expression value =>
      rw [Stmt.term, Stmt.inner, Stmt.outline, value.text_term, Lines.text,
        List.append_nil]
  | assign target value =>
      rw [Stmt.term, Stmt.inner, Stmt.outline, Term.text_round _ rfl,
        List.map_cons, List.map_singleton, target.text_term, value.text_term,
        Lines.text, List.append_nil]
  | update target operator value =>
      rw [Stmt.term, Stmt.inner, Stmt.outline, Term.text_round _ rfl,
        List.map_cons, List.map_cons, List.map_singleton, Term.text_word,
        target.text_term, value.text_term, Lines.text, List.append_nil]
  | print newLine values =>
      rw [Stmt.term, Stmt.inner, Stmt.outline, Term.text_square,
        Expr.map_text_terms, Lines.text, List.append_nil]
      rfl
  | declare storage bindings =>
      rw [Stmt.term, Stmt.inner, Stmt.outline, Term.text_round _ rfl,
        Binding.map_text_terms, Lines.text, List.append_nil]
  | result value? =>
      cases value? with
      | none =>
          rw [Stmt.term, Stmt.inner, Stmt.outline, Term.text_word, Lines.text,
            List.append_nil]
          rfl
      | some value =>
          rw [Stmt.term, Stmt.inner, Stmt.outline, Term.text_round _ rfl,
            List.map_singleton, value.text_term, Lines.text, List.append_nil]
  | conditional condition positive negative? =>
      cases negative? with
      | none =>
          rw [Stmt.term, Stmt.inner, Stmt.outline, Term.text_round _ rfl,
            List.map_singleton, condition.text_term, Lines.text_part,
            Block.text_lines _ positive]
          rfl
      | some negative =>
          rw [Stmt.term, Stmt.inner, Stmt.outline, Term.text_round _ rfl,
            List.map_singleton, condition.text_term, Lines.text, Term.text_word,
            Lines.text_part, Block.text_lines _ positive,
            Block.text_lines _ negative]
          simp only [List.append_assoc]
          rfl
  | whileLoop condition body =>
      rw [Stmt.term, Stmt.inner, Stmt.outline, Term.text_round _ rfl,
        List.map_singleton, condition.text_term, Lines.text_part,
        Block.text_lines _ body]
      rfl
  | forLoop counter first last step? body =>
      have steps : (step?.toList.map Expr.term).map Term.text =
          step?.toList.map Expr.outline := by
        rw [List.map_map]
        exact List.map_congr_left fun step _ => step.text_term
      rw [Stmt.term, Stmt.inner, Stmt.outline, Term.text_round _ rfl,
        List.map_append, List.map_cons, List.map_cons, List.map_singleton,
        counter.text_term, first.text_term, last.text_term, steps,
        Lines.text_part, Block.text_lines _ body]
      rfl
  | routine head body =>
      rw [Stmt.term, Stmt.inner, Stmt.outline, head.text_term,
        Block.text_lines _ body]
  | exit | loop =>
      rw [Stmt.term, Stmt.inner, Stmt.outline, Term.text_word, Lines.text,
        List.append_nil]
      rfl

theorem Block.text_lines
    (level : Nat)
    (block : Block) :
    block.lines.text level = block.outline level := by
  cases block with
  | of statements =>
      rw [Block.lines, Block.outline, Stmt.text_lines level statements]

theorem Stmt.text_lines
    (level : Nat)
    (statements : List Stmt) :
    (Stmt.lines statements).text level = Stmt.outlines level statements := by
  cases statements with
  | nil => rfl
  | cons first rest =>
      rw [Stmt.lines, Stmt.outlines, Lines.text, ← List.append_assoc,
        Stmt.text_line level first, Stmt.text_lines level rest]

end

/-! ## Clean lines -/

/-- The term of a legible declared name is clean. -/
theorem Binding.clean_term
    {binding : Binding}
    (legible : AllLegible binding.marks) :
    binding.term.Clean := by
  obtain ⟨name, value?, span⟩ := binding
  rw [marks, allLegible_append] at legible
  cases value? with
  | none => exact Identifier.clean_term legible.1
  | some value =>
      exact .labelled (Identifier.isWord_listing legible.1)
        (Expr.clean_term legible.2)

theorem UpdateOperator.isWord_spelling (operator : UpdateOperator) :
    IsWord operator.spelling.toList := by
  cases operator <;> exact isWord_of_all (by decide) rfl

namespace Stmt

/--
The term of a statement is clean if all that the statement shows of
its tokens is legible.
-/
theorem clean_term
    {statement : Stmt}
    (legible : AllLegible statement.marks) :
    statement.term.Clean := by
  cases statement with
  | expression value => exact value.clean_term legible
  | assign target value =>
      rw [marks, allLegible_append, allLegible_cons] at legible
      exact .group (Term.clean_pair (Expr.clean_term legible.1)
        (Expr.clean_term legible.2.2))
  | update target operator value =>
      rw [marks, allLegible_append, allLegible_cons] at legible
      exact .group (List.forall_mem_cons.mpr ⟨.word operator.isWord_spelling,
        Term.clean_pair (Expr.clean_term legible.1)
          (Expr.clean_term legible.2.2)⟩)
  | print newLine values =>
      rw [marks, allLegible_cons, ← Expr.allMarks_eq_flatMap] at legible
      exact .group (Expr.clean_terms legible.2)
  | declare storage bindings =>
      rw [marks, allLegible_cons, allLegible_flatMap] at legible
      exact .group (List.forall_mem_map.mpr fun binding member =>
        Binding.clean_term (legible.2 binding member))
  | result value? =>
      cases value? with
      | none => exact Term.clean_spelling (by decide)
      | some value =>
          rw [marks, allLegible_cons] at legible
          exact .group
            (List.forall_mem_singleton.mpr (Expr.clean_term legible.2))
  | conditional condition positive negative? =>
      have ofCondition : AllLegible condition.marks := by
        cases negative? with
        | none =>
            rw [marks, allLegible_cons, allLegible_append] at legible
            exact legible.2.1
        | some negative =>
            rw [marks, allLegible_cons, allLegible_append, allLegible_append]
              at legible
            exact legible.2.1.1
      exact .group (List.forall_mem_singleton.mpr (Expr.clean_term ofCondition))
  | whileLoop condition body =>
      rw [marks, allLegible_cons, allLegible_append] at legible
      exact .group (List.forall_mem_singleton.mpr (Expr.clean_term legible.2.1))
  | forLoop counter first last step? body =>
      simp only [marks, allLegible_cons, allLegible_append] at legible
      obtain ⟨-, ⟨⟨⟨ofCounter, ofFirst⟩, ofLast⟩, ofStep⟩, -⟩ := legible
      have clean : ∀ part ∈ step?.toList.map Expr.term, part.Clean := by
        cases step? with
        | none => exact List.forall_mem_nil _
        | some step =>
            exact List.forall_mem_singleton.mpr (Expr.clean_term ofStep)
      exact .group (List.forall_mem_cons.mpr ⟨Identifier.clean_term ofCounter,
        List.forall_mem_cons.mpr ⟨Expr.clean_term ofFirst,
          List.forall_mem_cons.mpr ⟨Expr.clean_term ofLast, clean⟩⟩⟩)
  | routine head body =>
      rw [marks, allLegible_cons, allLegible_append, allLegible_append]
        at legible
      exact .group (Term.clean_pair (Identifier.clean_term legible.2.1.1)
        (.group (Identifier.clean_terms legible.2.1.2)))
  | exit | loop => exact Term.clean_spelling (by decide)

end Stmt

mutual

/-- The lines inside a legible statement are clean. -/
theorem Stmt.clean_inner
    {statement : Stmt}
    (legible : AllLegible statement.marks) :
    statement.inner.Clean := by
  cases statement with
  | conditional condition positive negative? =>
      cases negative? with
      | none =>
          rw [Stmt.marks, allLegible_cons, allLegible_append] at legible
          exact .line (Term.clean_spelling (by decide))
            (Block.clean_lines legible.2.2) .done
      | some negative =>
          rw [Stmt.marks, allLegible_cons, allLegible_append, allLegible_append]
            at legible
          exact .line (Term.clean_spelling (by decide))
            (Block.clean_lines legible.2.1.2)
            (.line (Term.clean_spelling (by decide))
              (Block.clean_lines legible.2.2) .done)
  | whileLoop condition body =>
      rw [Stmt.marks, allLegible_cons, allLegible_append] at legible
      exact .line (Term.clean_spelling (by decide))
        (Block.clean_lines legible.2.2) .done
  | forLoop counter first last step? body =>
      rw [Stmt.marks, allLegible_cons, allLegible_append] at legible
      exact .line (Term.clean_spelling (by decide))
        (Block.clean_lines legible.2.2) .done
  | routine head body =>
      rw [Stmt.marks, allLegible_cons, allLegible_append] at legible
      exact Block.clean_lines legible.2.2
  | _ => exact .done

theorem Block.clean_lines
    {block : Block}
    (legible : AllLegible block.marks) :
    block.lines.Clean := by
  cases block with
  | of statements => exact Stmt.clean_lines legible

/-- The lines of legible statements are clean. -/
theorem Stmt.clean_lines
    {statements : List Stmt}
    (legible : AllLegible (Stmt.allMarks statements)) :
    (Stmt.lines statements).Clean := by
  cases statements with
  | nil => exact .done
  | cons first rest =>
      rw [Stmt.allMarks, allLegible_append] at legible
      exact .line (Stmt.clean_term legible.1) (Stmt.clean_inner legible.1)
        (Stmt.clean_lines legible.2)

end

/-! ## Lines tell their statements -/

/-- The term of a declared name tells the name and its first value. -/
theorem blind_binding_of_term
    {first second : Binding}
    (legible : AllLegible first.marks)
    (legibleToo : AllLegible second.marks)
    (same : first.term = second.term) :
    relabel .blind first = relabel .blind second := by
  obtain ⟨name, value?, span⟩ := first
  obtain ⟨other, otherValue?, otherSpan⟩ := second
  rw [Binding.marks, allLegible_append] at legible legibleToo
  cases value? with
  | none =>
      cases otherValue? with
      | none => simp [blind_identifier_of_term same]
      | some => cases same
  | some value =>
      cases otherValue? with
      | none => cases same
      | some otherValue =>
          obtain ⟨labels, values⟩ := Term.labelled.inj same
          simp [blind_identifier_of_term (congrArg Term.word labels),
            blind_expr_of_term legible.2 legibleToo.2 values]

/--
The term of the head of a routine tells the head: its kind, its
name and its parameters.
-/
theorem blind_head_of_term
    {first second : RoutineHead}
    (same : first.term = second.term) :
    relabel .blind first = relabel .blind second := by
  cases first
  cases second
  simp only [RoutineHead.term, Term.group.injEq, Head.routine.injEq,
    List.cons.injEq, and_true, true_and] at same
  obtain ⟨⟨rfl, rfl⟩, names, parameters⟩ := same
  simp [blind_identifier_of_term names,
    blind_identifiers_of_terms (Term.listed_injective parameters)]

/-- Two statements of the same form, whatever their parts are. -/
inductive Stmt.SameForm : Stmt → Stmt → Prop
  | expression {value other : Expr} {span otherSpan : Span} :
      SameForm (.expression value span) (.expression other otherSpan)
  | assign {target value other otherValue : Expr} {span otherSpan : Span} :
      SameForm (.assign target value span) (.assign other otherValue otherSpan)
  | update {target value other otherValue : Expr}
      {operator otherOperator : UpdateOperator} {span otherSpan : Span} :
      SameForm (.update target operator value span)
        (.update other otherOperator otherValue otherSpan)
  | print {newLine otherNewLine : Bool} {values others : List Expr}
      {span otherSpan : Span} :
      SameForm (.print newLine values span)
        (.print otherNewLine others otherSpan)
  | declare {storage otherStorage : Storage} {bindings others : List Binding}
      {span otherSpan : Span} :
      SameForm (.declare storage bindings span)
        (.declare otherStorage others otherSpan)
  | result {value? other? : Option Expr} {span otherSpan : Span} :
      SameForm (.result value? span) (.result other? otherSpan)
  | conditional {condition other : Expr} {positive otherPositive : Block}
      {negative? otherNegative? : Option Block} {span otherSpan : Span} :
      SameForm (.conditional condition positive negative? span)
        (.conditional other otherPositive otherNegative? otherSpan)
  | whileLoop {condition other : Expr} {body otherBody : Block}
      {span otherSpan : Span} :
      SameForm (.whileLoop condition body span)
        (.whileLoop other otherBody otherSpan)
  | forLoop {counter other : Identifier}
      {first last otherFirst otherLast : Expr} {step? otherStep? : Option Expr}
      {body otherBody : Block} {span otherSpan : Span} :
      SameForm (.forLoop counter first last step? body span)
        (.forLoop other otherFirst otherLast otherStep? otherBody otherSpan)
  | routine {head other : RoutineHead} {body otherBody : Block}
      {span otherSpan : Span} :
      SameForm (.routine head body span) (.routine other otherBody otherSpan)
  | exit {span otherSpan : Span} :
      SameForm (.exit span) (.exit otherSpan)
  | loop {span otherSpan : Span} :
      SameForm (.loop span) (.loop otherSpan)

/-- The run with which a term begins tells what its head says. -/
theorem Stmt.head_eq_of_term
    {first second : Stmt}
    (terms : first.term = second.term) :
    first.head = second.head := by
  apply Head.spelling_injective
  rw [← Stmt.lead_term, terms, Stmt.lead_term]

/--
Statements with the same term are of the same form.  What an
expression has for a head is not known, so it is told from
the other forms first; each of these has a head of its own.
-/
theorem Stmt.sameForm_of_term
    {first second : Stmt}
    (terms : first.term = second.term) :
    SameForm first second := by
  have heads := Stmt.head_eq_of_term terms
  have sorts : first.isExpression = second.isExpression := by
    rw [← Stmt.isExpression_head, heads, Stmt.isExpression_head]
  cases first with
  | expression =>
      cases second with
      | expression => exact .expression
      | _ => cases sorts
  | assign =>
      cases second with
      | assign => exact .assign
      | expression => cases sorts
      | _ => cases heads
  | update =>
      cases second with
      | update => exact .update
      | expression => cases sorts
      | _ => cases heads
  | print =>
      cases second with
      | print => exact .print
      | expression => cases sorts
      | _ => cases heads
  | declare =>
      cases second with
      | declare => exact .declare
      | expression => cases sorts
      | _ => cases heads
  | result =>
      cases second with
      | result => exact .result
      | expression => cases sorts
      | _ => cases heads
  | conditional =>
      cases second with
      | conditional => exact .conditional
      | expression => cases sorts
      | _ => cases heads
  | whileLoop =>
      cases second with
      | whileLoop => exact .whileLoop
      | expression => cases sorts
      | _ => cases heads
  | forLoop =>
      cases second with
      | forLoop => exact .forLoop
      | expression => cases sorts
      | _ => cases heads
  | routine =>
      cases second with
      | routine => exact .routine
      | expression => cases sorts
      | _ => cases heads
  | exit =>
      cases second with
      | exit => exact .exit
      | expression => cases sorts
      | _ => cases heads
  | loop =>
      cases second with
      | loop => exact .loop
      | expression => cases sorts
      | _ => cases heads

/-! ### Statements on one line -/

section

variable {second : Stmt} (legibleToo : AllLegible second.marks)

include legibleToo

/-- An assignment is told by the terms of its target and its value. -/
theorem blind_assign_of_term
    {target value : Expr}
    {span : Span}
    (legible : AllLegible (Stmt.assign target value span).marks)
    (terms : (Stmt.assign target value span).term = second.term) :
    relabel .blind (Stmt.assign target value span) = relabel .blind second := by
  cases Stmt.sameForm_of_term terms with
  | assign =>
      obtain ⟨targets, values⟩ := Term.parts_inj terms
      rw [Stmt.marks, allLegible_append, allLegible_cons] at legible legibleToo
      simp [blind_expr_of_term legible.1 legibleToo.1 targets,
        blind_expr_of_term legible.2.2 legibleToo.2.2 values]

/--
An updating assignment is told by its sign and the terms of its target and its
value.  No two operators are spelled alike.
-/
theorem blind_update_of_term
    {target value : Expr}
    {operator : UpdateOperator}
    {span : Span}
    (legible : AllLegible (Stmt.update target operator value span).marks)
    (terms : (Stmt.update target operator value span).term = second.term) :
    relabel .blind (Stmt.update target operator value span) =
      relabel .blind second := by
  cases Stmt.sameForm_of_term terms with
  | @update _ _ _ _ _ other =>
      simp only [Stmt.term, Term.group.injEq, List.cons.injEq,
        Term.word.injEq, and_true, true_and] at terms
      obtain ⟨spelled, targets, values⟩ := terms
      obtain rfl : operator = other := by
        cases operator <;> cases other <;>
          first | rfl | exact absurd spelled (by decide)
      rw [Stmt.marks, allLegible_append, allLegible_cons] at legible legibleToo
      simp [blind_expr_of_term legible.1 legibleToo.1 targets,
        blind_expr_of_term legible.2.2 legibleToo.2.2 values]

/--
A statement that prints is told by its head, which says whether it ends the
line, and the terms of its values.
-/
theorem blind_print_of_term
    {newLine : Bool}
    {values : List Expr}
    {span : Span}
    (legible : AllLegible (Stmt.print newLine values span).marks)
    (terms : (Stmt.print newLine values span).term = second.term) :
    relabel .blind (Stmt.print newLine values span) =
      relabel .blind second := by
  have heads := Stmt.head_eq_of_term terms
  cases Stmt.sameForm_of_term terms with
  | print =>
      obtain rfl := Head.print.inj heads
      rw [Stmt.marks, allLegible_cons, ← Expr.allMarks_eq_flatMap]
        at legible legibleToo
      simp [blind_exprs_of_terms legible.2 legibleToo.2
        (Term.group.inj terms).2.2]

/--
A declaration is told by its head, which says where the names are stored, and
the terms of the names.
-/
theorem blind_declare_of_term
    {storage : Storage}
    {bindings : List Binding}
    {span : Span}
    (legible : AllLegible (Stmt.declare storage bindings span).marks)
    (terms : (Stmt.declare storage bindings span).term = second.term) :
    relabel .blind (Stmt.declare storage bindings span) =
      relabel .blind second := by
  have heads := Stmt.head_eq_of_term terms
  cases Stmt.sameForm_of_term terms with
  | @declare _ _ _ others =>
      obtain rfl := Head.declare.inj heads
      rw [Stmt.marks, allLegible_cons, allLegible_flatMap] at legible legibleToo
      have alike : bindings.map (relabel .blind) =
          others.map (relabel .blind) :=
        map_eq_map_of_tells
          (fun binding member other memberToo =>
            blind_binding_of_term (legible.2 binding member)
              (legibleToo.2 other memberToo))
          (Term.group.inj terms).2.2
      simp [alike]

/--
A statement that returns is told by its term, which has a part if and
only if it has a value.
-/
theorem blind_result_of_term
    {value? : Option Expr}
    {span : Span}
    (legible : AllLegible (Stmt.result value? span).marks)
    (terms : (Stmt.result value? span).term = second.term) :
    relabel .blind (Stmt.result value? span) = relabel .blind second := by
  cases Stmt.sameForm_of_term terms with
  | @result _ other? =>
      cases value? with
      | none =>
          cases other? with
          | none => simp
          | some => cases terms
      | some value =>
          cases other? with
          | none => cases terms
          | some other =>
              rw [Stmt.marks, allLegible_cons] at legible legibleToo
              have values := Term.part_inj terms
              simp [blind_expr_of_term legible.2 legibleToo.2 values]

end

/-! ### Statements with blocks -/

/-- The terms of steps, where there are any, tell the steps. -/
theorem blind_step_of_terms
    {step? other? : Option Expr}
    (legible : AllLegible (step?.elim [] Expr.marks))
    (legibleOther : AllLegible (other?.elim [] Expr.marks))
    (same : step?.toList.map Expr.term = other?.toList.map Expr.term) :
    step?.map (relabel .blind) = other?.map (relabel .blind) := by
  cases step? with
  | none =>
      cases other? with
      | none => rfl
      | some => cases same
  | some step =>
      cases other? with
      | none => cases same
      | some other =>
          exact congrArg some
            (blind_expr_of_term legible legibleOther
              (List.singleton_injective same))

/-- The lines of a block tell it among all blocks, but for its places. -/
def Block.Told (block : Block) : Prop :=
  ∀ other : Block, AllLegible block.marks → AllLegible other.marks →
    block.lines = other.lines →
      Relabelled.relabel .blind block = Relabelled.relabel .blind other

theorem Block.Told.blind_eq
    {block other : Block}
    (told : block.Told)
    (legible : AllLegible block.marks)
    (legibleToo : AllLegible other.marks)
    (lines : block.lines = other.lines) :
    Relabelled.relabel .blind block = Relabelled.relabel .blind other :=
  told other legible legibleToo lines

section

variable {second : Stmt} (legibleToo : AllLegible second.marks)

include legibleToo

/--
A conditional is told by the term of its condition and the lines of its
blocks.  Whether there is a second block is told by the lines too.
-/
theorem blind_conditional_of_lines
    {condition : Expr}
    {positive : Block}
    {negative? : Option Block}
    {span : Span}
    (told : positive.Told)
    (toldToo : ∀ negative ∈ negative?, Block.Told negative)
    (legible : AllLegible
      (Stmt.conditional condition positive negative? span).marks)
    (terms : (Stmt.conditional condition positive negative? span).term =
      second.term)
    (inner : (Stmt.conditional condition positive negative? span).inner =
      second.inner) :
    relabel .blind (Stmt.conditional condition positive negative? span) =
      relabel .blind second := by
  cases Stmt.sameForm_of_term terms with
  | @conditional _ other _ otherPositive _ otherNegative? =>
      have conditions := Term.part_inj terms
      cases negative? with
      | none =>
          cases otherNegative? with
          | none =>
              rw [Stmt.marks, allLegible_cons, allLegible_append]
                at legible legibleToo
              have positives := (Lines.line.inj inner).2.1
              simp [blind_expr_of_term legible.2.1 legibleToo.2.1 conditions,
                told.blind_eq legible.2.2 legibleToo.2.2 positives]
          | some => cases (Lines.line.inj inner).2.2
      | some negative =>
          cases otherNegative? with
          | none => cases (Lines.line.inj inner).2.2
          | some otherNegative =>
              rw [Stmt.marks, allLegible_cons, allLegible_append,
                allLegible_append]
                at legible legibleToo
              obtain ⟨-, positives, negatives⟩ := Lines.line.inj inner
              simp [blind_expr_of_term legible.2.1.1
                legibleToo.2.1.1 conditions,
                told.blind_eq legible.2.1.2 legibleToo.2.1.2 positives,
                (toldToo negative rfl).blind_eq legible.2.2 legibleToo.2.2
                  (Lines.line.inj negatives).2.1]

/--
A loop with a condition is told by the term of the condition and
the lines of its body.
-/
theorem blind_whileLoop_of_lines
    {condition : Expr}
    {body : Block}
    {span : Span}
    (told : body.Told)
    (legible : AllLegible (Stmt.whileLoop condition body span).marks)
    (terms : (Stmt.whileLoop condition body span).term = second.term)
    (inner : (Stmt.whileLoop condition body span).inner = second.inner) :
    relabel .blind (Stmt.whileLoop condition body span) =
      relabel .blind second := by
  cases Stmt.sameForm_of_term terms with
  | whileLoop =>
      have conditions := Term.part_inj terms
      rw [Stmt.marks, allLegible_cons, allLegible_append] at legible legibleToo
      simp [blind_expr_of_term legible.2.1 legibleToo.2.1 conditions,
        told.blind_eq legible.2.2 legibleToo.2.2 (Lines.line.inj inner).2.1]

/--
A counting loop is told by the terms of its counter, its bounds and its step,
and by the lines of its body.
-/
theorem blind_forLoop_of_lines
    {counter : Identifier}
    {start last : Expr}
    {step? : Option Expr}
    {body : Block}
    {span : Span}
    (told : body.Told)
    (legible : AllLegible
      (Stmt.forLoop counter start last step? body span).marks)
    (terms : (Stmt.forLoop counter start last step? body span).term =
      second.term)
    (inner : (Stmt.forLoop counter start last step? body span).inner =
      second.inner) :
    relabel .blind (Stmt.forLoop counter start last step? body span) =
      relabel .blind second := by
  cases Stmt.sameForm_of_term terms with
  | forLoop =>
      simp only [Stmt.marks, allLegible_cons, allLegible_append]
        at legible legibleToo
      simp only [Stmt.term, Term.group.injEq, List.cons_append, List.nil_append,
        List.cons.injEq, true_and] at terms
      obtain ⟨-, ⟨⟨⟨-, ofStart⟩, ofLast⟩, ofStep⟩, ofBody⟩ := legible
      obtain ⟨-, ⟨⟨⟨-, ofOtherStart⟩, ofOtherLast⟩, ofOtherStep⟩,
          ofOtherBody⟩ := legibleToo
      obtain ⟨counters, starts, lasts, steps⟩ := terms
      simp [blind_identifier_of_term counters,
        blind_expr_of_term ofStart ofOtherStart starts,
        blind_expr_of_term ofLast ofOtherLast lasts,
        blind_step_of_terms ofStep ofOtherStep steps,
        told.blind_eq ofBody ofOtherBody (Lines.line.inj inner).2.1]

/-- A routine is told by the term of its head and the lines of its body. -/
theorem blind_routine_of_lines
    {head : RoutineHead}
    {body : Block}
    {span : Span}
    (told : body.Told)
    (legible : AllLegible (Stmt.routine head body span).marks)
    (terms : (Stmt.routine head body span).term = second.term)
    (inner : (Stmt.routine head body span).inner = second.inner) :
    relabel .blind (Stmt.routine head body span) = relabel .blind second := by
  cases Stmt.sameForm_of_term terms with
  | routine =>
      rw [Stmt.marks, allLegible_cons, allLegible_append] at legible legibleToo
      simp [blind_head_of_term terms,
        told.blind_eq legible.2.2 legibleToo.2.2 inner]

end

mutual

/--
The term of a statement and the lines inside it tell the statement, but for its
places: one case for each form, with the blocks told by their own lines.
-/
theorem blind_stmt_of_lines
    {first second : Stmt}
    (legible : AllLegible first.marks)
    (legibleToo : AllLegible second.marks)
    (terms : first.term = second.term)
    (inner : first.inner = second.inner) :
    relabel .blind first = relabel .blind second := by
  cases first with
  | expression value =>
      cases Stmt.sameForm_of_term terms with
      | expression => simp [blind_expr_of_term legible legibleToo terms]
  | assign => exact blind_assign_of_term legibleToo legible terms
  | update => exact blind_update_of_term legibleToo legible terms
  | print => exact blind_print_of_term legibleToo legible terms
  | declare => exact blind_declare_of_term legibleToo legible terms
  | result => exact blind_result_of_term legibleToo legible terms
  | conditional condition positive negative? =>
      have told : positive.Told := fun _ => blind_block_of_lines
      cases negative? with
      | none =>
          exact blind_conditional_of_lines legibleToo told nofun
            legible terms inner
      | some negative =>
          have toldToo : negative.Told := fun _ => blind_block_of_lines
          exact blind_conditional_of_lines legibleToo told
            (fun _ same => Option.some.inj same ▸ toldToo) legible terms inner
  | whileLoop condition body =>
      have told : body.Told := fun _ => blind_block_of_lines
      exact blind_whileLoop_of_lines legibleToo told legible terms inner
  | forLoop counter start last step? body =>
      have told : body.Told := fun _ => blind_block_of_lines
      exact blind_forLoop_of_lines legibleToo told legible terms inner
  | routine head body =>
      have told : body.Told := fun _ => blind_block_of_lines
      exact blind_routine_of_lines legibleToo told legible terms inner
  | exit =>
      cases Stmt.sameForm_of_term terms with
      | exit => simp
  | loop =>
      cases Stmt.sameForm_of_term terms with
      | loop => simp

/-- The lines of a block tell the block, but for its places. -/
theorem blind_block_of_lines
    {first second : Block}
    (legible : AllLegible first.marks)
    (legibleToo : AllLegible second.marks)
    (lines : first.lines = second.lines) :
    relabel .blind first = relabel .blind second := by
  cases first with
  | of statements =>
      cases second with
      | of others => simp [blind_stmts_of_lines legible legibleToo lines]

/--
The lines of several statements tell each of the
statements, but for its places.
-/
theorem blind_stmts_of_lines
    {first second : List Stmt}
    (legible : AllLegible (Stmt.allMarks first))
    (legibleToo : AllLegible (Stmt.allMarks second))
    (lines : Stmt.lines first = Stmt.lines second) :
    first.map (relabel .blind) = second.map (relabel .blind) := by
  cases first with
  | nil =>
      cases second with
      | nil => rfl
      | cons => cases lines
  | cons statement rest =>
      cases second with
      | nil => cases lines
      | cons =>
          obtain ⟨terms, inner, further⟩ := Lines.line.inj lines
          rw [Stmt.allMarks, allLegible_append] at legible legibleToo
          rw [List.map_cons, List.map_cons,
            blind_stmt_of_lines legible.1 legibleToo.1 terms inner,
            blind_stmts_of_lines legible.2 legibleToo.2 further]

end

end Clipper
