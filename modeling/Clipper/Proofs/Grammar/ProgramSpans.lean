import Clipper.Analysis
import Clipper.Proofs.Directive.Placement
import Clipper.Proofs.Grammar.StatementSpans
import Clipper.Proofs.Lexeme.Partition

/-!
# Spans of programs

Every program is a list of nested statements, whatever the tokens are.  The
tokens of a source text lie within the text, with or without its directives, and
the last of them stands at its end; therefore the span of the program is the
whole text, and the ends of every span in it are in order.

The list of tokens is any list in the first statement, which therefore holds
of hand-made tokens too.  The second one needs a text: that the last token
stands at the end comes from the scanner, and for a text without its
directives from the placing of spans, which puts the end of the filtered text
at the end of the source text.
-/

namespace Clipper

open Grammar Source

namespace Grammar

variable {family : SpanFamily}

/-- The state before tokens whose spans are in a family is in this family. -/
theorem State.Inside.ofTokens
    {tokens : List Token}
    (spans : ∀ token ∈ tokens, family.span token.span) :
    (State.ofTokens tokens).Inside family := by
  have final : family.span (State.ofTokens tokens).final := by
    unfold State.ofTokens
    dsimp only
    split
    · exact family.empty family.zero
    · next token isLast =>
        have inside := spans token (List.mem_of_getLast? isLast)
        split
        · exact inside
        · exact family.empty (family.stop inside)
  refine ⟨?_, ?_, final, family.zero⟩
  · intro token member
    exact spans token ((List.takeWhile_prefix _).subset member)
  · unfold State.ofTokens
    dsimp only
    cases found : tokens.find? (·.kind == .endOfFile) with
    | none => exact final
    | some token => exact spans token (List.mem_of_find?_eq_some found)

/-- Every statement of a program is nested, whatever the tokens are. -/
theorem nested_program
    {tokens : List Token}
    (spans : ∀ token ∈ tokens, family.span token.span) :
    ∀ statement ∈ (readProgram tokens).value.statements,
      Node.Nested family (.statement statement) := by
  have yields :
      program.Yields (State.inside family)
        (fun value => ∀ statement ∈ value.statements,
          Node.Nested family (.statement statement)) := by
    refine Rule.Yields.bind
      (Rule.Yields.sequence (nested_statement nestingLimit))
      fun statements statementsNested => ?_
    exact Rule.Yields.bind (Rule.Yields.any _) fun _ _ =>
      Rule.Yields.pure statementsNested
  exact yields (State.ofTokens tokens) (.ofTokens spans)

/-! ## The end of the token list -/

/-- A list of tokens ends at an offset, and nowhere before. -/
def EndsAt
    (offset : Nat)
    (tokens : List Token) :
    Prop :=
  ∃ earlier lexeme,
    tokens = earlier ++ [⟨.endOfFile, Span.empty offset, lexeme⟩] ∧
      ∀ token ∈ earlier, token.kind ≠ .endOfFile

/-- Both ends of a token list that a state knows are at a span. -/
def State.endsAt (span : Span) : State.Invariant where
  holds state := state.stop = span ∧ state.final = span
  kept before after move ends := by
    cases move with
    | advance =>
        unfold State.advance
        split
        · exact ends
        · exact ends
    | report | reportHere | recovered => exact ends
    | fail cause =>
        unfold State.fail
        split
        · exact ends
        · unfold State.recover
          dsimp only
          split
          · unfold State.advance
            split
            · exact ends
            · exact ends
          · exact ends
    | cutOff =>
        unfold State.cutOff
        dsimp only
        split
        · exact ⟨ends.2, ends.2⟩
        · exact ⟨ends.2, ends.2⟩

/-- The state before tokens and the end of the file. -/
theorem ofTokens_concat
    {tokens : List Token}
    {last : Token}
    (noEnd : ∀ token ∈ tokens, token.kind ≠ .endOfFile)
    (ended : last.kind = .endOfFile) :
    State.ofTokens (tokens ++ [last]) =
      ⟨tokens, last.span, last.span, 0, [], false, false⟩ := by
  have notFound : tokens.find? (·.kind == .endOfFile) = none :=
    List.find?_eq_none.mpr fun token member => by simpa using noEnd token member
  have ahead : (tokens ++ [last]).takeWhile (·.kind != .endOfFile) =
      tokens := by
    rw [List.takeWhile_append_of_pos
      fun token member => by simpa using noEnd token member]
    simp [ended]
  have found : (tokens ++ [last]).find? (·.kind == .endOfFile) = some last := by
    rw [List.find?_append, notFound]
    simp [ended]
  rw [State.ofTokens, ahead, found, List.getLast?_concat]
  dsimp only
  rw [if_pos ended]

theorem State.ofTokens_endsAt
    {offset : Nat}
    {tokens : List Token}
    (ends : EndsAt offset tokens) :
    (State.endsAt (Span.empty offset)).holds (State.ofTokens tokens) := by
  obtain ⟨earlier, lexeme, rfl, notEnd⟩ := ends
  rw [ofTokens_concat notEnd rfl]
  exact ⟨rfl, rfl⟩

/-- A program spans everything up to the end of its tokens. -/
theorem span_readProgram
    {offset : Nat}
    {tokens : List Token}
    (ends : EndsAt offset tokens) :
    (readProgram tokens).value.span = ⟨0, offset⟩ := by
  have kept :=
    (State.endsAt (Span.empty offset)).after
      (Rule.sequence (fun _ => false) (statement nestingLimit))
      (State.ofTokens_endsAt ends)
  have atEnd :=
    Rule.runSequence_ended (fun _ => false) (statement nestingLimit)
      (State.ofTokens tokens)
  rcases atEnd with noneAhead | closed
  · change (⟨0, State.current _ |>.span.stop⟩ : Span) = _
    unfold State.current
    change ((Rule.sequence (fun _ => false) (statement nestingLimit)).run
      (State.ofTokens tokens)).2.rest = [] at noneAhead
    rw [noneAhead]
    dsimp only
    rw [kept.1]
    rfl
  · cases closed

end Grammar

/-! ## The tokens of a source text -/

namespace Lexeme

/-- The tokens of a text lie within the text. -/
theorem below_all
    (text : List Char)
    {token : Token}
    (member : token ∈ tokens (all text)) :
    (SpanFamily.below (byteWidth text)).span token.span := by
  have partition : Partition [] text (tokens (all text)) :=
    (Scanner.ofText .remembering text).partition_lexemes .remembering rfl
  rcases partition.exists_earlier with ⟨earlier, shape, stand⟩
  rw [shape] at member
  rcases List.mem_append.mp member with isEarlier | isLast
  · have stands := stand token isEarlier
    exact ⟨Nat.le_of_lt stands.nonempty, stands.stop.le⟩
  · rw [List.mem_singleton] at isLast
    subst isLast
    simp [SpanFamily.below, Token.endOfFile, Span.empty]

theorem endsAt_all (text : List Char) :
    EndsAt (byteWidth text) (tokens (all text)) := by
  have partition : Partition [] text (tokens (all text)) :=
    (Scanner.ofText .remembering text).partition_lexemes .remembering rfl
  rcases partition.exists_earlier with ⟨earlier, shape, stand⟩
  refine ⟨earlier, "", ?_, fun token member => (stand token member).kind⟩
  simpa [Token.endOfFile] using shape

/--
Without its directives, a text has the tokens
of the filtered text, placed in the text.
-/
theorem tokens_allOutsideDirectives (text : List Char) :
    tokens (allOutsideDirectives text) =
      (tokens (all (Directive.Filtered.ofSource text).text)).map
        (fun token =>
          { token with span :=
            (Directive.Filtered.ofSource text).place token.span }) := by
  simp [tokens, allOutsideDirectives, moveTo]

end Lexeme

namespace Analysis

/--
The tokens of an analysis lie within its text, with its directives or without.
-/
theorem below_tokens
    (stripDirectives : Bool)
    (text : List Char) :
    ∀ token ∈ (ofText stripDirectives text).tokens,
      (SpanFamily.below (byteWidth text)).span token.span := by
  intro token member
  cases stripDirectives with
  | false => exact Lexeme.below_all text member
  | true =>
      change token ∈ Lexeme.tokens (Lexeme.allOutsideDirectives text) at member
      rw [Lexeme.tokens_allOutsideDirectives] at member
      rcases List.mem_map.mp member with ⟨inner, isInner, rfl⟩
      exact Directive.Filtered.below_place text (Lexeme.below_all _ isInner)

/-- The tokens of an analysis end with a token at the end of its text. -/
theorem endsAt_tokens
    (stripDirectives : Bool)
    (text : List Char) :
    EndsAt (byteWidth text) (ofText stripDirectives text).tokens := by
  cases stripDirectives with
  | false => exact Lexeme.endsAt_all text
  | true =>
      obtain ⟨earlier, lexeme, shape, notEnd⟩ :=
        Lexeme.endsAt_all (Directive.Filtered.ofSource text).text
      change EndsAt _ (Lexeme.tokens (Lexeme.allOutsideDirectives text))
      rw [Lexeme.tokens_allOutsideDirectives, shape, List.map_append]
      refine
        ⟨earlier.map
            (fun token =>
              { token with span :=
                (Directive.Filtered.ofSource text).place token.span }),
          lexeme, ?_, ?_⟩
      · simp [Directive.Filtered.place_end]
      · intro token member
        rcases List.mem_map.mp member with ⟨inner, isInner, rfl⟩
        exact notEnd inner isInner

end Analysis

/--
In a program read from any tokens, every node below a top-level statement lies
in the span of its parent.  The program of a source text spans the whole text,
with or without the directives of the text; its statements lie in it, and the
ends of every span are in order.
-/
theorem spans_nested :
    (∀ tokens, ∀ statement ∈ (readProgram tokens).value.statements,
      ∀ parent, Node.Within (.statement statement) parent →
        ∀ child ∈ parent.children, parent.span.contains child.span = true) ∧
      ∀ stripDirectives text,
        (Analysis.ofText stripDirectives text).reading.value.span =
          ⟨0, byteWidth text⟩ ∧
          ∀ statement ∈ (Analysis.ofText stripDirectives
            text).reading.value.statements,
            (Analysis.ofText stripDirectives text).reading.value.span.contains
                statement.span = true ∧
              ∀ node, Node.Within (.statement statement) node →
                node.span.start ≤ node.span.stop := by
  constructor
  · intro tokens statement member parent within
    have nested : Node.Nested .all (.statement statement) :=
      nested_program (fun _ _ => trivial) statement member
    exact (nested parent within).2
  · intro stripDirectives text
    have whole :
        (Analysis.ofText stripDirectives text).reading.value.span =
          ⟨0, byteWidth text⟩ :=
      span_readProgram (Analysis.endsAt_tokens stripDirectives text)
    refine ⟨whole, fun statement member => ?_⟩
    have nested : Node.Nested (.below (byteWidth text))
        (.statement statement) :=
      nested_program (Analysis.below_tokens stripDirectives text)
        statement member
    constructor
    · rw [whole, Span.contains_iff]
      exact ⟨Nat.zero_le _, nested.span.2⟩
    · intro node within
      exact (nested node within).1.1

end Clipper
