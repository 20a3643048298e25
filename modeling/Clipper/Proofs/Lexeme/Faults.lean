import Clipper.Analysis
import Clipper.Proofs.Directive.Origin

/-!
# Faults and error tokens

A lexeme has a fault if and only if its token is of the kind for pieces that are
no tokens.  So the faults of a text are in order those of its error tokens, each
with the span of its token, with or without the directives of the text.

The tokens of a text begin one after the other, so no two of them share a span.

The mark of a lexeme, its fault, is made together with its token in one step
of the scanner, and nothing later changes either of them.  The statement about
the text without directives needs that moving a lexeme keeps its kind and its
fault.  That spans differ lets a fault be found again by its span, as the
diagnostics do.
-/

namespace Clipper

open Source Directive

/-- The tokens that are no tokens of the language. -/
def errorTokens (tokens : List Token) : List Token :=
  tokens.filter (fun token => token.kind == .error)

@[simp]
theorem errorTokens_nil : errorTokens [] = [] :=
  rfl

@[simp]
theorem errorTokens_append (first second : List Token) :
    errorTokens (first ++ second) = errorTokens first ++ errorTokens second :=
  List.filter_append ..

theorem errorTokens_cons_of_error
    {token : Token}
    (error : token.kind = .error)
    (others : List Token) :
    errorTokens (token :: others) = token :: errorTokens others :=
  List.filter_cons_of_pos (beq_iff_eq.mpr error)

theorem errorTokens_cons_of_ne
    {token : Token}
    (notError : token.kind ≠ .error)
    (others : List Token) :
    errorTokens (token :: others) = errorTokens others :=
  List.filter_cons_of_neg (fun error => notError (eq_of_beq error))

theorem mem_errorTokens
    {token : Token}
    {tokens : List Token} :
    token ∈ errorTokens tokens ↔ token ∈ tokens ∧ token.kind = .error := by
  rw [errorTokens, List.mem_filter, beq_iff_eq]

namespace Lexeme

/-! ## Lexemes with a fault -/

/-- A lexeme has a fault when its token is an error, and only then. -/
def Marked (lexeme : Lexeme) : Prop :=
  lexeme.fault?.isSome = true ↔ lexeme.token.kind = .error

/--
What one step takes off is marked: it is an error token if and
only if it has a fault.
-/
theorem Taken.marked
    {σ : Type}
    {scanner following : Scanner σ}
    {taken : Taken}
    (takes : scanner.Takes taken following)
    {lexeme : Lexeme}
    (made : taken.lexeme? = some lexeme) :
    lexeme.Marked := by
  unfold Taken.lexeme? ofContent? at made
  split at made
  · cases made
  · next kind text content =>
      cases made
      simp [Marked, (takes.kind kind text content).2]
  · cases made
    simp [Marked]

/--
All lexemes of a scanner are marked.  The induction is on the steps, and the
lexeme at the end of the text has no fault.
-/
theorem Scanner.marked_lexemes
    {σ : Type}
    (reader : LineReader σ)
    (scanner : Scanner σ) :
    ∀ lexeme ∈ scanner.lexemes reader, lexeme.Marked := by
  fun_induction scanner.lexemes reader with
  | case1 scanner ended =>
      intro lexeme member
      cases List.mem_singleton.mp member
      simp [Marked, endOfFile, Token.endOfFile]
  | case2 scanner taken following step lexeme made hypothesis =>
      exact List.forall_mem_cons.mpr
        ⟨Taken.marked (takes_of_step? step) made, hypothesis⟩
  | case3 scanner taken following step made hypothesis => exact hypothesis

theorem marked_allOutsideDirectives
    {text : List Char}
    {lexeme : Lexeme}
    (member : lexeme ∈ allOutsideDirectives text) :
    lexeme.Marked := by
  obtain ⟨inner, isInner, rfl⟩ := List.mem_map.mp member
  exact Scanner.marked_lexemes .remembering _ inner isInner

/-- The faults of lexemes stand at their error tokens, in order. -/
theorem faults_spans
    {lexemes : List Lexeme}
    (marked : ∀ lexeme ∈ lexemes, lexeme.Marked) :
    (faults lexemes).map Prod.snd =
      (errorTokens (tokens lexemes)).map Token.span := by
  induction lexemes with
  | nil => rfl
  | cons lexeme lexemes hypothesis =>
      rw [List.forall_mem_cons] at marked
      obtain ⟨here, others⟩ := marked
      have tail := hypothesis others
      obtain ⟨token, fault?⟩ := lexeme
      cases fault? with
      | none =>
          have notError : token.kind ≠ .error :=
            fun error => by simpa using here.mpr error
          change (faults lexemes).map Prod.snd =
            (errorTokens (token :: tokens lexemes)).map Token.span
          rw [errorTokens_cons_of_ne notError, tail]
      | some fault =>
          have error : token.kind = .error := here.mp rfl
          change token.span :: (faults lexemes).map Prod.snd =
            (errorTokens (token :: tokens lexemes)).map Token.span
          rw [errorTokens_cons_of_error error, List.map_cons, tail]

/-! ## The beginnings of tokens -/

/--
No token of a partition begins before the
place from which it partitions the text.
-/
theorem Partition.le_start
    {before after : List Char}
    {tokens : List Token}
    (partition : Partition before after tokens) :
    ∀ token ∈ tokens, byteWidth before ≤ token.span.start := by
  induction partition with
  | finish =>
      intro token member
      cases List.mem_singleton.mp member
      exact Nat.le_add_right _ _
  | @token before gap raw after token others isGap nonempty kind start stop
      later hypothesis =>
      refine List.forall_mem_cons.mpr ⟨by omega, fun other member => ?_⟩
      have behind := hypothesis other member
      rw [byteWidth_append, byteWidth_append, byteWidth_reverse] at behind
      omega

/-- Tokens that partition a text begin one after the other. -/
theorem Partition.increasing
    {before after : List Char}
    {tokens : List Token}
    (partition : Partition before after tokens) :
    tokens.Pairwise (fun first second =>
      first.span.start < second.span.start) := by
  induction partition with
  | finish => exact List.pairwise_singleton ..
  | @token before gap raw after token others isGap nonempty kind start stop
      later hypothesis =>
      refine List.pairwise_cons.mpr ⟨fun other member => ?_, hypothesis⟩
      have behind := later.le_start other member
      have positive := byteWidth_pos nonempty
      rw [byteWidth_append, byteWidth_append, byteWidth_reverse,
        byteWidth_reverse] at behind
      omega

end Lexeme

namespace Analysis

variable (stripDirectives : Bool) (text : List Char)

theorem marked_lexemes : ∀ lexeme ∈ (ofText stripDirectives text).lexemes,
    lexeme.Marked := by
  intro lexeme member
  cases stripDirectives with
  | false => exact Lexeme.Scanner.marked_lexemes .remembering _ lexeme member
  | true => exact Lexeme.marked_allOutsideDirectives member

/-- The faults of an analysis stand at its error tokens, in order. -/
theorem faults_spans :
    (ofText stripDirectives text).faults.map Prod.snd =
      (errorTokens (ofText stripDirectives text).tokens).map Token.span :=
  Lexeme.faults_spans (marked_lexemes stripDirectives text)

/-- The tokens of an analysis begin one after the other. -/
theorem tokens_increasing :
    (ofText stripDirectives text).tokens.Pairwise
      (fun first second => first.span.start < second.span.start) := by
  have partition (text : List Char) :
      Lexeme.Partition [] text (Lexeme.tokens (Lexeme.all text)) :=
    (Lexeme.Scanner.ofText .remembering text).partition_lexemes .remembering rfl
  cases stripDirectives with
  | false => exact (partition text).increasing
  | true =>
      change (Lexeme.tokens (Lexeme.allOutsideDirectives text)).Pairwise _
      rw [Lexeme.tokens_allOutsideDirectives, List.pairwise_map]
      refine (partition (Filtered.ofSource text).text).increasing.imp_of_mem ?_
      intro first second isFirst isSecond order
      have inside := Lexeme.below_all _ isFirst
      have insideSecond := Lexeme.below_all _ isSecond
      simp only [Filtered.place, Filtered.place?_eq inside,
        Filtered.place?_eq insideSecond]
      exact origin_lt_origin order (Nat.le_trans insideSecond.1 insideSecond.2)

end Analysis

end Clipper
