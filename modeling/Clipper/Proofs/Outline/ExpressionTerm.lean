import Clipper.Proofs.Outline.Term
import Clipper.Proofs.Syntax.Blind
import Clipper.Proofs.Syntax.Marks

/-!
# Expressions as terms

The outline of an expression is the text of its term.  The head of the term
tells which sort of expression it is, and its parts are the terms of the parts
of the expression; so the term tells the expression but for its places.  The
term is clean where the names and the literals of the expression can stand as
words.

There are lemmas of three sorts: the text of the term is the outline, the term
is clean, and equal terms come from expressions that are equal when their
places are forgotten.  The last one rests on `Expr.SameParts`.  Expressions with
unlike heads have unlike terms, so those with one term are of one sort, and
their parts have the same terms one by one.
-/

namespace Clipper

open Outline
open Relabelled (relabel)

/-! ## Names and literals that can be read off -/

/--
The outline of a literal tells its text: it
is a word, or it is quoted, or it is known.
-/
def Literal.Legible (literal : Literal) : Prop :=
  match literal.kind with
  | .nil => literal.text = "NIL"
  | .string => True
  | .number | .logical => IsWord literal.text.toList

/-- A name that is a word, or a literal whose outline tells its text. -/
def Mark.Legible : Mark → Prop
  | name identifier => IsWord identifier.listing
  | literal value => value.Legible
  | operator _ | form => True

/-- All names and literals can be read off from an outline. -/
abbrev AllLegible (marks : List Mark) : Prop :=
  ∀ mark ∈ marks, mark.Legible

/-! ## Terms -/

/-- The term of a name. -/
def Identifier.term (identifier : Identifier) : Term :=
  .word identifier.listing

/-- The term of a literal. -/
def Literal.term (literal : Literal) : Term :=
  match literal.kind with
  | .nil => .word (Head.literal .nil).spelling
  | .string => .group (.literal .string) .round [.quoted literal.text.toList]
  | .number => .group (.literal .number) .round [.word literal.text.toList]
  | .logical => .group (.literal .logical) .round [.word literal.text.toList]

/-- A list of terms that belongs to nothing but its place. -/
def Outline.Term.listed (parts : List Term) : Term :=
  .group .nothing .square parts

namespace Expr

mutual

/-- The term of an expression. -/
def term : Expr → Term
  | literal value _ => value.term
  | name identifier _ => .group .identifier .round [identifier.term]
  | unary operator operand _ => .group (.unary operator) .round [operand.term]
  | binary operator left right _ =>
      .group (.binary operator) .round [left.term, right.term]
  | call callee arguments _ =>
      .group .call .round [callee.term, .listed (terms arguments)]
  | index target position _ => .group .index .round [target.term, position.term]
  | array elements _ => .group .array .square (terms elements)
  | property receiver message _ =>
      .group .send .round [receiver.term, message.term]
  | send receiver message arguments _ =>
      .group .send .round
        [receiver.term, message.term, .listed (terms arguments)]
  | field area column _ => .group .field .round [area.term, column.term]
  | codeBlock parameters body _ =>
      .group .codeBlock .round
        [.listed (parameters.map Identifier.term), .listed (terms body)]

/-- The terms of several expressions. -/
def terms : List Expr → List Term
  | [] => []
  | first :: rest => first.term :: terms rest

end

@[simp]
theorem terms_eq_map (values : List Expr) : terms values = values.map term := by
  induction values with
  | nil => rfl
  | cons first rest hypothesis => rw [terms, hypothesis, List.map_cons]

/-- What the head of the term of an expression says. -/
def head : Expr → Head
  | literal value _ => .literal value.kind
  | name .. => .identifier
  | unary operator _ _ => .unary operator
  | binary operator _ _ _ => .binary operator
  | call .. => .call
  | index .. => .index
  | array .. => .array
  | property .. | send .. => .send
  | field .. => .field
  | codeBlock .. => .codeBlock

theorem lead_term (value : Expr) : value.term.lead = value.head.spelling := by
  cases value with
  | literal value =>
      obtain ⟨kind, text⟩ := value
      cases kind <;> rfl
  | _ => rfl

end Expr

/-! ## The text of a term -/

namespace Outline.Term

@[simp]
theorem text_word (text : List Char) : (word text).text = text := by
  rw [Term.text]

@[simp]
theorem text_quoted (text : List Char) :
    (quoted text).text = Text.quoted text := by
  rw [Term.text]

theorem text_round
    (constructor : String)
    {head : Head}
    (written : head.spelling = constructor.toList)
    (parts : List Term) :
    (group head .round parts).text = applied constructor (parts.map text) := by
  rw [text, texts_eq_map, written, applied]
  rfl

theorem text_square
    (head : Head)
    (parts : List Term) :
    (group head .square parts).text =
      head.spelling ++ bracketed (parts.map text) := by
  rw [text, texts_eq_map, bracketed]
  rfl

@[simp]
theorem text_listed (parts : List Term) :
    (listed parts).text = bracketed (parts.map text) :=
  text_square .nothing parts

end Outline.Term

@[simp]
theorem Identifier.text_term (identifier : Identifier) :
    identifier.term.text = identifier.listing :=
  Term.text_word _

@[simp]
theorem Identifier.map_text_terms (identifiers : List Identifier) :
    (identifiers.map term).map Term.text = identifiers.map listing := by
  rw [List.map_map]
  exact List.map_congr_left fun identifier _ => identifier.text_term

/-- The text of the term of a literal is its outline. -/
theorem Literal.text_term (literal : Literal) :
    literal.term.text = literal.outline := by
  obtain ⟨kind, text⟩ := literal
  cases kind with
  | nil => exact Term.text_word _
  | string =>
      refine (Term.text_round "String" rfl _).trans ?_
      rw [List.map_singleton, Term.text_quoted]
      rfl
  | number =>
      refine (Term.text_round "Number" rfl _).trans ?_
      rw [List.map_singleton, Term.text_word]
      rfl
  | logical =>
      refine (Term.text_round "Boolean" rfl _).trans ?_
      rw [List.map_singleton, Term.text_word]
      rfl

namespace Expr

mutual

/--
The text of the term of an expression is its outline, by
induction on the expression.
-/
theorem text_term (value : Expr) : value.term.text = value.outline := by
  cases value with
  | literal value => exact value.text_term
  | name identifier =>
      rw [term, outline, Term.text_round _ rfl, List.map_singleton,
        Identifier.text_term]
  | unary operator operand =>
      rw [term, outline, Term.text_round _ rfl, List.map_singleton,
        text_term operand]
  | binary _ left right =>
      rw [term, outline, Term.text_round _ rfl, List.map_cons,
        List.map_singleton, text_term left, text_term right]
  | call callee arguments =>
      rw [term, outline, Term.text_round _ rfl, List.map_cons,
        List.map_singleton, text_term callee, Term.text_listed,
        map_text_terms arguments]
  | index target position =>
      rw [term, outline, Term.text_round _ rfl, List.map_cons,
        List.map_singleton, text_term target, text_term position]
  | array elements =>
      rw [term, outline, Term.text_square, map_text_terms elements]
      rfl
  | property receiver message =>
      rw [term, outline, Term.text_round _ rfl, List.map_cons,
        List.map_singleton, text_term receiver, Identifier.text_term]
  | send receiver message arguments =>
      rw [term, outline, Term.text_round _ rfl, List.map_cons, List.map_cons,
        List.map_singleton, text_term receiver, Identifier.text_term,
        Term.text_listed, map_text_terms arguments]
  | field area column =>
      rw [term, outline, Term.text_round _ rfl, List.map_cons,
        List.map_singleton, text_term area, Identifier.text_term]
  | codeBlock parameters body =>
      rw [term, outline, Term.text_round _ rfl, List.map_cons,
        List.map_singleton, Term.text_listed, Identifier.map_text_terms,
        Term.text_listed, map_text_terms body]

theorem map_text_terms (values : List Expr) :
    (terms values).map Term.text = outlines values := by
  cases values with
  | nil => rfl
  | cons first rest =>
      rw [terms, outlines, List.map_cons, text_term first, map_text_terms rest]

end

end Expr

/-! ## Clean terms -/

theorem Outline.Term.clean_pair
    {first second : Term}
    (firstClean : first.Clean)
    (secondClean : second.Clean) :
    ∀ part ∈ [first, second], part.Clean :=
  List.forall_mem_cons.mpr
    ⟨firstClean, List.forall_mem_singleton.mpr secondClean⟩

theorem allLegible_append {marks others : List Mark} :
    AllLegible (marks ++ others) ↔ AllLegible marks ∧ AllLegible others :=
  List.forall_mem_append

theorem allLegible_cons
    {mark : Mark}
    {marks : List Mark} :
    AllLegible (mark :: marks) ↔ mark.Legible ∧ AllLegible marks :=
  List.forall_mem_cons

theorem allLegible_flatMap
    {α : Type}
    {values : List α}
    {marks : α → List Mark} :
    AllLegible (values.flatMap marks) ↔
    ∀ value ∈ values, AllLegible (marks value) := by
  simp only [AllLegible, List.mem_flatMap, forall_exists_index, and_imp]
  exact ⟨fun all value member mark among => all mark value member among,
    fun all mark value member among => all value member mark among⟩

namespace Identifier

/--
The name of the placeholders, which no token shows, can stand as a word too.
-/
theorem isWord_listing
    {identifier : Identifier}
    (legible : AllLegible identifier.marks) :
    IsWord identifier.listing := by
  rw [marks] at legible
  split at legible
  case isTrue placed =>
      rw [listing, eq_of_beq placed]
      exact isWord_of_all (by decide) rfl
  case isFalse => exact legible _ (List.mem_singleton_self _)

theorem clean_term
    {identifier : Identifier}
    (legible : AllLegible identifier.marks) :
    identifier.term.Clean :=
  .word (isWord_listing legible)

theorem clean_terms
    {identifiers : List Identifier}
    (legible : AllLegible (identifiers.flatMap marks)) :
    ∀ part ∈ identifiers.map term, part.Clean :=
  List.forall_mem_map.mpr fun identifier member =>
    clean_term (allLegible_flatMap.mp legible identifier member)

end Identifier

/--
The term of a legible literal is clean: a string is quoted,
and a number is a word.
-/
theorem Literal.clean_term
    {literal : Literal}
    (legible : literal.Legible) :
    literal.term.Clean := by
  obtain ⟨kind, text⟩ := literal
  cases kind with
  | nil => exact Term.clean_spelling (by decide)
  | string => exact .group (List.forall_mem_singleton.mpr (.quoted _))
  | number | logical =>
      exact .group (List.forall_mem_singleton.mpr (.word legible))

namespace Expr

mutual

/--
The term of a legible expression is clean: its names and its literals stand as
words, and so do its operators.
-/
theorem clean_term
    {value : Expr}
    (legible : AllLegible value.marks) :
    value.term.Clean := by
  cases value with
  | literal value =>
      exact Literal.clean_term (legible _ (List.mem_singleton_self _))
  | name identifier =>
      exact .group
        (List.forall_mem_singleton.mpr (Identifier.clean_term legible))
  | unary operator operand =>
      rw [marks, allLegible_cons] at legible
      exact .group (List.forall_mem_singleton.mpr (clean_term legible.2))
  | binary operator left right =>
      rw [marks, allLegible_append, allLegible_cons] at legible
      exact .group
        (Term.clean_pair (clean_term legible.1) (clean_term legible.2.2))
  | call callee arguments =>
      rw [marks, allLegible_append, allLegible_cons] at legible
      exact .group (Term.clean_pair (clean_term legible.1)
        (.group (clean_terms legible.2.2)))
  | index target position =>
      rw [marks, allLegible_append, allLegible_cons] at legible
      exact .group
        (Term.clean_pair (clean_term legible.1) (clean_term legible.2.2))
  | array elements =>
      rw [marks, allLegible_cons] at legible
      exact .group (clean_terms legible.2)
  | property receiver message =>
      rw [marks, allLegible_append, allLegible_cons] at legible
      exact .group (Term.clean_pair (clean_term legible.1)
        (Identifier.clean_term legible.2.2))
  | send receiver message arguments =>
      rw [marks, allLegible_append, allLegible_cons, allLegible_append]
        at legible
      exact .group (List.forall_mem_cons.mpr ⟨clean_term legible.1,
        Term.clean_pair (Identifier.clean_term legible.2.2.1)
          (.group (clean_terms legible.2.2.2))⟩)
  | field area column =>
      rw [marks, allLegible_append, allLegible_cons] at legible
      exact .group (Term.clean_pair (clean_term legible.1)
        (Identifier.clean_term legible.2.2))
  | codeBlock parameters body =>
      rw [marks, allLegible_cons, allLegible_append] at legible
      exact .group
        (Term.clean_pair (.group (Identifier.clean_terms legible.2.1))
          (.group (clean_terms legible.2.2)))

/--
The terms of the expressions of a list are clean if all of them are legible.
-/
theorem clean_terms
    {values : List Expr}
    (legible : AllLegible (allMarks values)) :
    ∀ part ∈ terms values, part.Clean := by
  cases values with
  | nil => exact List.forall_mem_nil _
  | cons first rest =>
      rw [allMarks, allLegible_append] at legible
      exact List.forall_mem_cons.mpr
        ⟨clean_term legible.1, clean_terms legible.2⟩

end

end Expr

/-! ## Terms tell their expressions -/

namespace Outline.Term

theorem listed_injective : Function.Injective listed :=
  fun _ _ same => (group.inj same).2.2

section

variable
  {head otherHead : Head}
  {brackets otherBrackets : Brackets}
  {first second other otherSecond : Term}

theorem part_inj (same : group head brackets [first] =
    group otherHead otherBrackets [other]) :
    first = other :=
  List.singleton_injective (group.inj same).2.2

theorem parts_inj
    (same :
      group head brackets [first, second] =
        group otherHead otherBrackets [other, otherSecond]) :
    first = other ∧ second = otherSecond := by
  obtain ⟨firsts, seconds⟩ := List.cons.inj (group.inj same).2.2
  exact ⟨firsts, List.singleton_injective seconds⟩

end

end Outline.Term

/-- The term of a name tells the name. -/
theorem blind_identifier_of_term
    {first second : Identifier}
    (same : first.term = second.term) :
    relabel .blind first = relabel .blind second := by
  have names : first.name = second.name :=
    String.toList_inj.mp (Term.word.inj same)
  cases first
  cases second
  rw [relabel_identifier, relabel_identifier, relabel_blind_span,
    relabel_blind_span]
  exact congrArg (fun name => Identifier.mk name _) names

/-- What is told of the members of lists is told of the lists. -/
theorem map_eq_map_of_tells
    {α β γ : Type}
    {first second : List α}
    {before : α → β}
    {after : α → γ}
    (tells :
      ∀ value ∈ first, ∀ other ∈ second, before value = before other →
        after value = after other)
    (same : first.map before = second.map before) :
    first.map after = second.map after := by
  induction first generalizing second with
  | nil =>
      cases second with
      | nil => rfl
      | cons => cases same
  | cons value first hypothesis =>
      cases second with
      | nil => cases same
      | cons other second =>
          obtain ⟨heads, tails⟩ := List.cons.inj same
          simp only [List.forall_mem_cons] at tells
          rw [List.map_cons, List.map_cons, tells.1.1 heads,
            hypothesis (fun value member => (tells.2 value member).2) tails]

theorem blind_identifiers_of_terms
    {first second : List Identifier}
    (same : first.map Identifier.term = second.map Identifier.term) :
    first.map (relabel .blind) = second.map (relabel .blind) :=
  map_eq_map_of_tells (fun _ _ _ _ => blind_identifier_of_term) same

/-- Legible literals of one kind with the same term are the same. -/
theorem Literal.eq_of_term
    {first second : Literal}
    (legible : first.Legible)
    (legibleToo : second.Legible)
    (kinds : first.kind = second.kind)
    (same : first.term = second.term) :
    first = second := by
  obtain ⟨kind, text⟩ := first
  obtain ⟨other, otherText⟩ := second
  obtain rfl : kind = other := kinds
  refine congrArg (mk kind) ?_
  cases kind with
  | nil => exact legible.trans legibleToo.symm
  | string =>
      have texts := Term.part_inj same
      exact String.toList_inj.mp (Term.quoted.inj texts)
  | number | logical =>
      have texts := Term.part_inj same
      exact String.toList_inj.mp (Term.word.inj texts)

/--
Two expressions of the same form, with what their terms tell of their parts:
each part has the term of its counterpart.
-/
inductive Expr.SameParts : Expr → Expr → Prop
  | literal {value other : Literal} {span otherSpan : Span}
      (kinds : value.kind = other.kind)
      (values : value.term = other.term) :
      SameParts (.literal value span) (.literal other otherSpan)
  | name {identifier other : Identifier} {span otherSpan : Span}
      (names : identifier.term = other.term) :
      SameParts (.name identifier span) (.name other otherSpan)
  | unary {operator : UnaryOperator} {operand other : Expr}
      {span otherSpan : Span}
      (operands : operand.term = other.term) :
      SameParts (.unary operator operand span) (.unary operator other otherSpan)
  | binary {operator : BinaryOperator} {left right other otherRight : Expr}
      {span otherSpan : Span}
      (lefts : left.term = other.term)
      (rights : right.term = otherRight.term) :
      SameParts (.binary operator left right span)
        (.binary operator other otherRight otherSpan)
  | call {callee other : Expr} {arguments others : List Expr}
      {span otherSpan : Span}
      (callees : callee.term = other.term)
      (lists : Expr.terms arguments = Expr.terms others) :
      SameParts (.call callee arguments span) (.call other others otherSpan)
  | index {target position other otherPosition : Expr} {span otherSpan : Span}
      (targets : target.term = other.term)
      (positions : position.term = otherPosition.term) :
      SameParts (.index target position span)
        (.index other otherPosition otherSpan)
  | array {elements others : List Expr} {span otherSpan : Span}
      (lists : Expr.terms elements = Expr.terms others) :
      SameParts (.array elements span) (.array others otherSpan)
  | property {receiver other : Expr} {message otherMessage : Identifier}
      {span otherSpan : Span}
      (receivers : receiver.term = other.term)
      (messages : message.term = otherMessage.term) :
      SameParts (.property receiver message span)
        (.property other otherMessage otherSpan)
  | send {receiver other : Expr} {message otherMessage : Identifier}
      {arguments others : List Expr} {span otherSpan : Span}
      (receivers : receiver.term = other.term)
      (messages : message.term = otherMessage.term)
      (lists : Expr.terms arguments = Expr.terms others) :
      SameParts (.send receiver message arguments span)
        (.send other otherMessage others otherSpan)
  | field {area other : Expr} {column otherColumn : Identifier}
      {span otherSpan : Span}
      (areas : area.term = other.term)
      (columns : column.term = otherColumn.term) :
      SameParts (.field area column span) (.field other otherColumn otherSpan)
  | codeBlock {parameters others : List Identifier}
      {body otherBody : List Expr} {span otherSpan : Span}
      (names : parameters.map Identifier.term = others.map Identifier.term)
      (bodies : Expr.terms body = Expr.terms otherBody) :
      SameParts (.codeBlock parameters body span)
        (.codeBlock others otherBody otherSpan)

/--
Expressions with the same term have the same form and parts with the same terms.
The heads tell the forms apart, but for a property and a send: these differ in
the number of their parts.
-/
theorem Expr.sameParts_of_term
    {first second : Expr}
    (same : first.term = second.term) :
    SameParts first second := by
  have heads : first.head = second.head := by
    apply Head.spelling_injective
    rw [← Expr.lead_term, same, Expr.lead_term]
  cases first with
  | literal =>
      cases second with
      | literal => exact .literal (Head.literal.inj heads) same
      | _ => cases heads
  | name =>
      cases second with
      | name => exact .name (Term.part_inj same)
      | _ => cases heads
  | unary =>
      cases second with
      | unary =>
          obtain rfl := Head.unary.inj heads
          exact .unary (Term.part_inj same)
      | _ => cases heads
  | binary =>
      cases second with
      | binary =>
          obtain rfl := Head.binary.inj heads
          obtain ⟨lefts, rights⟩ := Term.parts_inj same
          exact .binary lefts rights
      | _ => cases heads
  | call =>
      cases second with
      | call =>
          obtain ⟨callees, lists⟩ := Term.parts_inj same
          exact .call callees (Term.listed_injective lists)
      | _ => cases heads
  | index =>
      cases second with
      | index =>
          obtain ⟨targets, positions⟩ := Term.parts_inj same
          exact .index targets positions
      | _ => cases heads
  | array =>
      cases second with
      | array => exact .array (Term.group.inj same).2.2
      | _ => cases heads
  | property =>
      cases second with
      | property =>
          obtain ⟨receivers, messages⟩ := Term.parts_inj same
          exact .property receivers messages
      | send => simp [Expr.term] at same
      | _ => cases heads
  | send =>
      cases second with
      | send =>
          simp only [Expr.term, Term.group.injEq, List.cons.injEq, and_true,
            true_and] at same
          exact .send same.1 same.2.1 (Term.listed_injective same.2.2)
      | property => simp [Expr.term] at same
      | _ => cases heads
  | field =>
      cases second with
      | field =>
          obtain ⟨areas, columns⟩ := Term.parts_inj same
          exact .field areas columns
      | _ => cases heads
  | codeBlock =>
      cases second with
      | codeBlock =>
          obtain ⟨names, bodies⟩ := Term.parts_inj same
          exact .codeBlock (Term.listed_injective names)
            (Term.listed_injective bodies)
      | _ => cases heads

mutual

/--
The term of a legible expression tells the expression, but for its places.  The
induction is on the expression: its parts have the terms of their counterparts.
-/
theorem blind_expr_of_term
    {first second : Expr}
    (legible : AllLegible first.marks)
    (legibleToo : AllLegible second.marks)
    (same : first.term = second.term) :
    relabel .blind first = relabel .blind second := by
  have parts := Expr.sameParts_of_term same
  cases first with
  | literal value =>
      cases parts with
      | literal kinds values =>
          have equal :=
            Literal.eq_of_term (legible _ (List.mem_singleton_self _))
              (legibleToo _ (List.mem_singleton_self _)) kinds values
          simp [equal]
  | name identifier =>
      cases parts with
      | name names => simp [blind_identifier_of_term names]
  | unary operator operand =>
      cases parts with
      | unary operands =>
          rw [Expr.marks, allLegible_cons] at legible legibleToo
          simp [blind_expr_of_term legible.2 legibleToo.2 operands]
  | binary operator left right =>
      cases parts with
      | binary lefts rights =>
          rw [Expr.marks, allLegible_append, allLegible_cons]
            at legible legibleToo
          simp [blind_expr_of_term legible.1 legibleToo.1 lefts,
            blind_expr_of_term legible.2.2 legibleToo.2.2 rights]
  | call callee arguments =>
      cases parts with
      | call callees lists =>
          rw [Expr.marks, allLegible_append, allLegible_cons]
            at legible legibleToo
          simp [blind_expr_of_term legible.1 legibleToo.1 callees,
            blind_exprs_of_terms legible.2.2 legibleToo.2.2 lists]
  | index target position =>
      cases parts with
      | index targets positions =>
          rw [Expr.marks, allLegible_append, allLegible_cons]
            at legible legibleToo
          simp [blind_expr_of_term legible.1 legibleToo.1 targets,
            blind_expr_of_term legible.2.2 legibleToo.2.2 positions]
  | array elements =>
      cases parts with
      | array lists =>
          rw [Expr.marks, allLegible_cons] at legible legibleToo
          simp [blind_exprs_of_terms legible.2 legibleToo.2 lists]
  | property receiver message =>
      cases parts with
      | property receivers messages =>
          rw [Expr.marks, allLegible_append, allLegible_cons]
            at legible legibleToo
          simp [blind_expr_of_term legible.1 legibleToo.1 receivers,
            blind_identifier_of_term messages]
  | send receiver message arguments =>
      cases parts with
      | send receivers messages lists =>
          rw [Expr.marks, allLegible_append, allLegible_cons, allLegible_append]
            at legible legibleToo
          simp [blind_expr_of_term legible.1 legibleToo.1 receivers,
            blind_identifier_of_term messages,
            blind_exprs_of_terms legible.2.2.2 legibleToo.2.2.2 lists]
  | field area column =>
      cases parts with
      | field areas columns =>
          rw [Expr.marks, allLegible_append, allLegible_cons]
            at legible legibleToo
          simp [blind_expr_of_term legible.1 legibleToo.1 areas,
            blind_identifier_of_term columns]
  | codeBlock parameters body =>
      cases parts with
      | codeBlock names bodies =>
          rw [Expr.marks, allLegible_cons, allLegible_append]
            at legible legibleToo
          simp [blind_identifiers_of_terms names,
            blind_exprs_of_terms legible.2.2 legibleToo.2.2 bodies]

/--
The terms of legible expressions tell the expressions, but for their places.
-/
theorem blind_exprs_of_terms
    {first second : List Expr}
    (legible : AllLegible (Expr.allMarks first))
    (legibleToo : AllLegible (Expr.allMarks second))
    (same : Expr.terms first = Expr.terms second) :
    first.map (relabel .blind) = second.map (relabel .blind) := by
  cases first with
  | nil =>
      cases second with
      | nil => rfl
      | cons => cases same
  | cons value rest =>
      cases second with
      | nil => cases same
      | cons =>
          obtain ⟨head, tail⟩ := List.cons.inj same
          rw [Expr.allMarks, allLegible_append] at legible legibleToo
          rw [List.map_cons, List.map_cons,
            blind_expr_of_term legible.1 legibleToo.1 head,
            blind_exprs_of_terms legible.2 legibleToo.2 tail]

end

end Clipper
