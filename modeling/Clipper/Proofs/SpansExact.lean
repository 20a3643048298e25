import Clipper.Proofs.Diagnostics
import Clipper.Proofs.Grammar.AlikeReadings
import Clipper.Proofs.TokenExcerpts

/-!
# Spans are exact

In a text that is read without a report, the text under an expression is read as
this expression, and the text under a statement as the program of this
statement.  Only the conditional that an `ELSEIF` makes cannot stand alone.

The proof has two parts.  Where a phrase stands in the tokens of a text, the
part of the text from its first to its last token is cut into the same tokens;
and where the phrase stands alone, the grammar reads it again, with all its
places moved.  A statement that ends before a semicolon needs the tokens up to
the next one, so its excerpt may hold semicolons at its end.
-/

namespace Clipper

open Source
open Grammar
open Lexeme (tokens all)

/-! ## The tokens of a text -/

/-- Tokens that partition a text stand one behind the other. -/
theorem Lexeme.Partition.ordered
    {before after : List Char}
    {tokens : List Token}
    (partition : Partition before after tokens) :
    Ordered tokens := by
  induction partition with
  | finish =>
      exact ⟨List.pairwise_singleton .., by simp [Token.endOfFile, Span.empty]⟩
  | @token before gap raw after token others isGap nonempty kind start stop
      later hypothesis =>
      constructor
      · refine List.pairwise_cons.mpr ⟨fun other member => ?_, hypothesis.apart⟩
        have behind := later.le_start other member
        rw [byteWidth_append, byteWidth_append, byteWidth_reverse,
          byteWidth_reverse] at behind
        omega
      · exact List.forall_mem_cons.mpr
          ⟨stop ▸ Nat.le_add_right _ _, hypothesis.proper⟩

/-- The lexemes of a text before its end. -/
theorem Lexeme.exists_body
    (text : List Char) :
    ∃ body, all text = body ++ [endOfFile (byteWidth text)] ∧
      ∀ token ∈ tokens body, token.kind ≠ .endOfFile := by
  obtain ⟨⟨earlier, shape, stand⟩, -⟩ := tokens_all_partition text
  have isLast := (Scanner.ofText .remembering text).getLast?_lexemes
      .remembering
  obtain ⟨body, whole⟩ := List.getLast?_eq_some_iff.mp isLast
  have width : (0 : Nat) + byteWidth text = byteWidth text := Nat.zero_add _
  have split : all text = body ++ [endOfFile (byteWidth text)] := width ▸ whole
  refine ⟨body, split, ?_⟩
  rw [split, tokens, List.map_append] at shape
  rw [tokens, List.append_inj_left' shape rfl]
  exact fun token member => (stand token member).kind

section

variable {text : List Char} {body : List Lexeme}
variable (shape : all text = body ++ [Lexeme.endOfFile (byteWidth text)])

include shape

theorem ofTokens_ofText
    (noEnd : ∀ token ∈ tokens body, token.kind ≠ .endOfFile) :
    State.ofTokens (tokens (all text)) =
      ⟨tokens body, Span.empty (byteWidth text), Span.empty (byteWidth text),
        0, [], false, false⟩ := by
  rw [shape, tokens, List.map_append]
  exact ofTokens_concat noEnd rfl

/-- The tokens of a text are in order: each ends before the next begins. -/
theorem inOrder_ofText
    (noEnd : ∀ token ∈ tokens body, token.kind ≠ .endOfFile) :
    (State.ofTokens (tokens (all text))).InOrder := by
  have ordered : Ordered (tokens (all text)) :=
    ((Lexeme.Scanner.ofText .remembering text).partition_lexemes .remembering
      rfl).ordered
  rw [ofTokens_ofText shape noEnd]
  rw [shape, tokens, List.map_append] at ordered
  refine ⟨ordered.of_infix (List.prefix_append _ _).isInfix, fun _ _ =>
    Nat.zero_le _, ?_,
      Nat.zero_le _⟩
  intro token member
  exact (List.pairwise_append.mp ordered.apart).2.2 token member _
    (List.mem_singleton.mpr rfl)

/-- Tokens of a text are those of lexemes, which are spelled in the text. -/
theorem exists_spelled
    {before part after : List Token}
    (split : tokens body = before ++ (part ++ after))
    (spelled : AllSpelled (tokens body))
    (nonempty : part ≠ [])
    (noStar : headKind part ∉ [.star, .starEqual]) :
    ∃ lexemes others start last piece, tokens lexemes = part ∧
      tokens others = after ++ [.endOfFile (byteWidth text)] ∧
        (∀ lexeme ∈ lexemes, lexeme.token.kind ≠ .error) ∧
          Lexeme.SpelledFrom text lexemes others start last piece := by
  obtain ⟨front, behind, rfl, -, isBehind⟩ := List.map_eq_append_iff.mp split
  obtain ⟨lexemes, rest, rfl, rfl, rfl⟩ := List.map_eq_append_iff.mp isBehind
  have sound : ∀ lexeme ∈ lexemes, lexeme.token.kind ≠ .error := by
    intro lexeme member
    exact (spelled lexeme.token (List.mem_map_of_mem (by simp [member]))).2
  have ordinary : ∀ lexeme ∈ lexemes.head?,
      lexeme.token.kind ∉ [.error, .star, .starEqual] := by
    intro lexeme isHead
    obtain ⟨tail, rfl⟩ := List.head?_eq_some_iff.mp isHead
    rw [List.mem_cons, not_or]
    exact ⟨sound lexeme List.mem_cons_self, noStar⟩
  rw [List.append_assoc, List.append_assoc] at shape
  obtain ⟨start, last, piece, run⟩ :=
    Lexeme.exists_spelledFrom shape (mt List.map_eq_nil_iff.mpr nonempty)
      (List.append_ne_nil_of_right_ne_nil _ (List.cons_ne_nil _ _)) ordinary
  refine ⟨lexemes, _, start, last, piece, rfl, ?_, sound, run⟩
  rw [tokens, List.map_append]
  rfl

variable {part : List Token} (spelled : AllSpelled (tokens body))

include spelled

/-- The text under tokens is cut into tokens that agree with them. -/
theorem exists_excerpt
    (inside : part <:+: tokens body)
    (nonempty : part ≠ [])
    (noStar : headKind part ∉ [.star, .starEqual]) :
    ∃ piece others offset, slice? text (hull part) = some piece ∧
      List.Forall₂ Token.Alike others part ∧
        (∀ token ∈ others, token.kind ≠ .endOfFile) ∧
        tokens (all piece) = others ++ [.endOfFile offset] := by
  have noEndPart : ∀ token ∈ part, token.kind ≠ .endOfFile :=
    fun token member => (spelled token (inside.subset member)).1
  obtain ⟨before, after, split⟩ := inside
  rw [List.append_assoc] at split
  obtain ⟨lexemes, others, start, last, piece, rfl, -, sound, run⟩ :=
    exists_spelled shape split.symm spelled nonempty noStar
  obtain ⟨same, offset, isSlice, alike, whole⟩ := run.excerpt sound
  refine ⟨piece, _, offset, isSlice, alike, noEnd_of_alike alike noEndPart, ?_⟩
  rw [whole, tokens, List.map_append]
  rfl

/--
Up to the next token, the text under tokens may have semicolons behind these.
-/
theorem exists_openExcerpt
    {before after : List Token}
    (split : tokens body = before ++ (part ++ after))
    (nonempty : part ≠ [])
    (noStar : headKind part ∉ [.star, .starEqual]) :
    ∃ piece others semicolons offset,
      slice? text ⟨(hull part).start,
        (spanAhead (Span.empty (byteWidth text)) after).start⟩ =
          some piece ∧
        List.Forall₂ Token.Alike others part ∧
          (∀ token ∈ others, token.kind ≠ .endOfFile) ∧
          (∀ token ∈ semicolons, token.kind = .semicolon) ∧
            tokens (all piece) = (others ++ semicolons) ++
              [.endOfFile offset] := by
  have noEndPart : ∀ token ∈ part, token.kind ≠ .endOfFile :=
    fun token member => (spelled token (by rw [split]; simp [member])).1
  obtain ⟨lexemes, rest, start, last, piece, rfl, isAfter, sound, run⟩ :=
    exists_spelled shape split spelled nonempty noStar
  cases rest with
  | nil =>
      exact absurd isAfter
        (List.append_ne_nil_of_right_ne_nil _ (List.cons_ne_nil _ _)).symm
  | cons next further =>
      obtain ⟨piece, same, semicolons, offset, isSlice, alike, only, whole⟩ :=
        run.openExcerpt sound next rfl
      have nextSpan : next.token.span =
          spanAhead (Span.empty (byteWidth text)) after := by
        cases after with
        | nil => exact congrArg Token.span (List.cons.inj isAfter).1
        | cons token later =>
            exact congrArg Token.span (List.cons.inj isAfter).1
      rw [nextSpan] at isSlice
      refine ⟨piece, tokens same, tokens semicolons, offset, isSlice, alike,
        noEnd_of_alike alike noEndPart, List.forall_mem_map.mpr only, ?_⟩
      rw [whole, ← List.append_assoc, tokens, List.map_append, List.map_append]
      rfl

/-! ## Expressions and statements in their text -/

/--
The text under the expression is read as this expression, without a report.
-/
def ExpressionUnderSpan
    (text : List Char)
    (value : Expr) :
    Prop :=
  ∃ piece, slice? text value.span = some piece ∧
    (expressionOfText piece).reports = [] ∧
    (expressionOfText piece).value.outline = value.outline

/--
The text under the statement is read as the
program of this statement, without a report.
-/
def StatementUnderSpan
    (text : List Char)
    (made : Stmt) :
    Prop :=
  ∃ piece, slice? text made.span = some piece ∧
    (programOfText piece).reports = [] ∧
    (programOfText piece).value.outline = (Program.mk [made] made.span).outline

/--
An expression that stands on a part of the tokens is what is read from the
text under its span.
-/
theorem expression_of_standsOn
    {value : Expr}
    (inside : part <:+: tokens body)
    (stands : StandsOn value part) :
    ExpressionUnderSpan text value := by
  obtain ⟨nonempty, opens⟩ := begins_expression _ _ _ stands.spelled
  have noStar : headKind part ∉ [.star, .starEqual] := by
    intro star
    rcases List.mem_pair.mp star with here | here
    · rw [here] at opens
      cases opens
    · rw [here] at opens
      cases opens
  obtain ⟨piece, others, offset, isSlice, alike, noEnd, whole⟩ :=
    exists_excerpt shape spelled inside nonempty noStar
  refine ⟨piece, stands.span ▸ isSlice, ?_⟩
  rw [expressionOfText, whole]
  exact loneExpression_of_spelled stands.spelled alike noEnd rfl

/--
A statement whose tokens make a statement by themselves is what is read from
the text under its span.
-/
theorem statement_of_standsAlone
    {made : Stmt}
    (inside : part <:+: tokens body)
    (stands : StandsAlone made part) :
    StatementUnderSpan text made := by
  have readAs := stands.readAs
  obtain ⟨piece, others, offset, isSlice, alike, noEnd, whole⟩ :=
    exists_excerpt shape spelled inside readAs.nonempty readAs.head_notMem
  refine ⟨piece, stands.span ▸ isSlice, ?_⟩
  rw [programOfText, whole]
  exact readProgram_of_readAs readAs alike noEnd rfl

/--
A statement that ends only with what comes after it, such as one whose block
has no closing word, is still read from the text under its span, which
reaches to the next token.
-/
theorem statement_of_standsOpen
    {made : Stmt}
    {before after : List Token}
    (split : tokens body = before ++ (part ++ after))
    (stands : StandsOpen made part
      (spanAhead (Span.empty (byteWidth text)) after).start) :
    StatementUnderSpan text made := by
  have readAs := stands.alone [] (List.forall_mem_nil _)
  rw [List.append_nil] at readAs
  obtain ⟨piece, others, semicolons, offset, isSlice, alike, noEnd,
      only, whole⟩ :=
    exists_openExcerpt shape spelled split readAs.nonempty readAs.head_notMem
  have same : List.Forall₂ Token.Alike semicolons semicolons :=
    List.forall₂_same.mpr fun _ _ => ⟨rfl, rfl⟩
  refine ⟨piece, stands.span ▸ isSlice, ?_⟩
  rw [programOfText, whole]
  refine readProgram_of_readAs (stands.alone semicolons only)
    (List.rel_append alike same) ?_ rfl
  refine List.forall_mem_append.mpr ⟨noEnd, fun token member => ?_⟩
  rw [only token member]
  exact TokenKind.noConfusion

end

/--
Spans are exact: where a text is read without a report, the text under an
expression of the program is this expression, and the text under a statement is
this statement.  Only a conditional that an `ELSEIF` makes is none alone.
-/
theorem spans_are_exact
    (text : List Char)
    (clean : (programOfText text).reports = [])
    (statement : Stmt)
    (member : statement ∈ (programOfText text).value.statements) :
    (∀ value, Node.Within (.statement statement) (.expression value) →
        ExpressionUnderSpan text value) ∧
      ∀ made, Node.Within (.statement statement) (.statement made) →
        ¬ FromElseIf made (tokens (all text)) →
        StatementUnderSpan text made := by
  obtain ⟨body, shape, noEnd⟩ := Lexeme.exists_body text
  have start := ofTokens_ofText shape noEnd
  have ahead : (State.ofTokens (tokens (all text))).rest = tokens body :=
    congrArg State.rest start
  have spelled : AllSpelled (tokens body) := by
    rw [← ahead]
    exact allSpelled_of_clean clean
  obtain ⟨before, part, after, split, stands⟩ :=
    standsBefore_program (inOrder_ofText shape noEnd) clean statement member
  rw [ahead] at split
  have stop : (State.ofTokens (tokens (all text))).stop =
      Span.empty (byteWidth text) :=
    congrArg State.stop start
  rw [stop] at stands
  have inside : part <:+: tokens body :=
    ⟨before, after, by rw [split, List.append_assoc]⟩
  constructor
  · intro value within
    obtain among | ⟨impossible, -⟩ := stands.within within
    · obtain ⟨piece, pieceInside, standsOn⟩ := among
      exact expression_of_standsOn shape spelled
        (pieceInside.trans inside) standsOn
    · cases impossible
  · intro made within noElseIf
    obtain (⟨conditional, token, isToken, word⟩ | ⟨piece, pieceInside,
        alone⟩) | ⟨same, open_⟩ :=
      stands.within within
    · refine absurd ⟨conditional, token, ?_, word⟩ noElseIf
      rw [shape, tokens, List.map_append]
      exact List.mem_append_left _ (inside.subset isToken)
    · exact statement_of_standsAlone shape spelled
        (pieceInside.trans inside) alone
    · cases same
      exact statement_of_standsOpen shape spelled split open_

/--
A conditional with a continued line in its
`ELSEIF`, the line, and the product on it.
-/
theorem spans_are_exact_elseIf :
    let text := "IF a\nELSEIF b\n? 2 * ;\n3\nENDIF".toList
    let product :=
      Expr.binary .multiply (.literal ⟨.number, "2"⟩ ⟨16, 17⟩)
        (.literal ⟨.number, "3"⟩ ⟨22, 23⟩) ⟨16, 23⟩
    let line := Stmt.print true [product] ⟨14, 23⟩
    let inner :=
      Stmt.conditional (.name ⟨"b", ⟨12, 13⟩⟩ ⟨12, 13⟩) (.of [line] ⟨14, 23⟩)
        none ⟨5, 23⟩
    let outer :=
      Stmt.conditional (.name ⟨"a", ⟨3, 4⟩⟩ ⟨3, 4⟩) (.of [] ⟨5, 5⟩)
        (some (.of [inner] ⟨5, 23⟩)) ⟨0, 29⟩
    (programOfText text).reports = [] ∧
      (programOfText text).value.statements = [outer] ∧
      StatementUnderSpan text outer ∧ StatementUnderSpan text line ∧
        ExpressionUnderSpan text product := by
  intro text product line inner outer
  have clean : (programOfText text).reports = [] := by decide +kernel
  have read : tokens (all text) =
      [⟨.ifWord, ⟨0, 2⟩, "IF"⟩, ⟨.identifier, ⟨3, 4⟩, "a"⟩,
        ⟨.elseIf, ⟨5, 11⟩, "ELSEIF"⟩, ⟨.identifier, ⟨12, 13⟩, "b"⟩,
        ⟨.question, ⟨14, 15⟩, "?"⟩, ⟨.number, ⟨16, 17⟩, "2"⟩,
        ⟨.star, ⟨18, 19⟩, "*"⟩, ⟨.number, ⟨22, 23⟩, "3"⟩,
        ⟨.endIf, ⟨24, 29⟩, "ENDIF"⟩, .endOfFile 29] := by
    decide +kernel
  have statements : (programOfText text).value.statements = [outer] := by
    rw [programOfText, read]
    with_unfolding_all rfl
  have member : outer ∈ (programOfText text).value.statements := by
    rw [statements]
    exact List.mem_cons_self
  have block : Node.Within (.statement outer) (.block (.of [inner] ⟨5, 23⟩)) :=
    .child .root
      (List.mem_cons_of_mem _ (List.mem_cons_of_mem _ List.mem_cons_self))
  have nested : Node.Within (.statement outer) (.block (.of [line] ⟨14, 23⟩)) :=
    .child (.child block List.mem_cons_self)
      (List.mem_cons_of_mem _ List.mem_cons_self)
  have isLine : Node.Within (.statement outer) (.statement line) :=
    .child nested List.mem_cons_self
  have isProduct : Node.Within (.statement outer) (.expression product) :=
    .child isLine List.mem_cons_self
  have noElseIf : ∀ token ∈ tokens (all text), token.kind = .elseIf →
      token.span.start ≠ 0 := by
    decide +kernel
  have exact' := spans_are_exact text clean outer member
  refine ⟨clean, statements, exact'.2 outer .root ?_, exact'.2 line isLine ?_,
    exact'.1 product isProduct⟩
  · rintro ⟨-, token, isToken, word, start⟩
    exact noElseIf token isToken word start
  · rintro ⟨conditional, -⟩
    cases conditional

end Clipper
