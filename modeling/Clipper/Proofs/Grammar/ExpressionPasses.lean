import Clipper.Proofs.Grammar.Passes

/-!
# The tokens that readings of expressions take

The marks of an expression show the tokens that its reading passed.  A reading
that is recovering reads no expression, so every part of an expression behind a
cut is a placeholder, and an operand or a suffix is read only where nothing was
cut.

Behind a cut the tokens are gone, so what a rule makes there has no tokens to
show.  The lemmas therefore say two things at once: which tokens were passed
before a cut, in order, and that nothing but placeholders was made behind it.
They compose with the lemmas on the ways in which rules are made, and only the
primary, which looks at the first token, has cases of its own.
-/

namespace Clipper.Grammar

open Rule State

theorem tells_placeholderHere : placeholderHere.Tells Expr.marks := by
  intro state silent
  refine ⟨[], .refl state, ?_, silent⟩
  change Shows (Expr.placeholder state.start).marks []
  rw [Expr.marks_placeholder]
  exact .nothing []

theorem passes_tooDeep :
    Passes Whole tooDeep (Showing Expr.marks) (fun _ => Silent) := by
  have cut : Passes Whole cutOff Anything (fun _ => Silent) :=
    passes_cutOff.weaken fun _ whole => whole.silent.dropped
  refine cut.bind fun _ taken _ => ?_
  refine tells_placeholderHere.mono (fun _ silent => silent) ?_
    (fun _ _ silent => silent)
  exact fun _ _ shown => shown.after taken

/--
Where nothing is read while recovering, the rule is run on whole states only.
-/
theorem Rule.Passes.unlessRecovering
    {rule : Rule Expr}
    (passes : Passes Whole rule (Showing Expr.marks) (fun _ => Silent)) :
    (unlessRecovering rule).Tells Expr.marks := by
  refine passes_asking fun recovering =>
    passes_ite (fun _ => ?_) fun steady => ?_
  · exact tells_placeholderHere.weaken fun _ both => both.1
  · apply passes.weaken
    rintro state ⟨silent, same⟩
    exact silent.whole (same.trans (Bool.eq_false_iff.mpr steady))

theorem tells_noExpression : noExpression.Tells Expr.marks := by
  refine passes_ask fun token => (passes_fail rfl).bind fun _ taken _ =>
    passes_pure ?_ ?_
  · rw [Showing, Expr.marks_placeholder]
    exact .nothing _
  · exact fun _ silent => silent

theorem passes_invalidToken :
    Passes Whole invalidToken (Showing Expr.marks) (fun _ => Silent) := by
  refine passes_ask fun token => (passes_reportHere rfl).bind fun _ _ _ => ?_
  refine (passes_advance guard_whole).bind fun _ _ _ =>
    passes_pure ?_ fun _ whole => whole.silent
  rw [Showing, Expr.marks_placeholder]
  exact .nothing _

/-! ## Suffixes -/

/-- The marks of a suffix without that of its first token. -/
def SuffixForm.marks : SuffixForm → List Mark
  | .call arguments => arguments.flatMap Expr.marks
  | .index position => position.marks
  | .property message => message.marks
  | .send message arguments => message.marks ++ arguments.flatMap Expr.marks
  | .field column => column.marks

theorem Suffix.marks_apply
    (target : Expr)
    (suffix : Suffix) :
    (suffix.apply target).marks = target.marks ++ .form ::
      suffix.form.marks := by
  rcases suffix with ⟨form, stop⟩
  cases form <;> simp [apply, Expr.marks, SuffixForm.marks]

theorem Suffix.marks_foldl_apply
    (target : Expr)
    (suffixes : List Suffix) :
    (suffixes.foldl Suffix.apply target).marks =
      target.marks ++ suffixes.flatMap
        (fun suffix => .form :: suffix.form.marks) := by
  induction suffixes generalizing target with
  | nil => simp
  | cons suffix rest hypothesis => simp [hypothesis, marks_apply]

section

variable {nested : Rule Expr} (tells : nested.Tells Expr.marks)

include tells

/-- A message shows its name and what its arguments show. -/
theorem tells_message : (message nested).Tells SuffixForm.marks := by
  refine (tells_expectName .colon).bind fun name taken shown =>
    passes_ask fun _ => ?_
  refine passes_ite (fun _ => passes_pure (shown.passing []) fun _ silent =>
    silent) fun _ => ?_
  refine (passes_eat guard_silent _).bind fun _ opening _ =>
    passes_ite (fun _ => ?_) fun _ => ?_
  · refine (tells.enclosed _ _).bind fun arguments later shownLater => ?_
    refine passes_pure (shown.append ?_) fun _ silent => silent
    exact (shownLater.passing []).after opening
  · exact passes_pure (shown.passing _) fun _ silent => silent

/--
What a suffix shows is what its parts show; its sign is shown by the suffix.
-/
theorem tells_suffixForm?
    {kind : TokenKind}
    {rule : Rule SuffixForm}
    (opened : suffixForm? nested kind = some rule) :
    rule.Tells SuffixForm.marks := by
  unfold suffixForm? at opened
  split at opened
  · cases opened
    exact (tells.enclosed _ _).bind fun _ _ shown =>
      passes_pure (shown.passing []) fun _ silent => silent
  · cases opened
    refine tells.bind fun _ _ shown =>
      (passes_expect _ _).bind fun _ closing _ => ?_
    exact passes_pure (shown.passing _) fun _ silent => silent
  · cases opened
    exact tells_message tells
  · cases opened
    exact (tells_expectName _).bind fun _ _ shown =>
      passes_pure (shown.passing []) fun _ silent => silent
  · cases opened

theorem tells_suffixes :
    (many (suffix? nested)).Tells
      (List.flatMap fun suffix => .form :: suffix.form.marks) := by
  refine passes_many guard_silent fun token rule opened => ?_
  obtain ⟨form, formOpened, rfl⟩ := Option.map_eq_some_iff.mp opened
  have read := (tells_suffixForm? tells formOpened).whole
  refine read.bind fun _ taken shown => passes_ask fun _ =>
    passes_pure ?_ fun _ silent => silent
  exact (Shows.form token).append (shown.passing [])

/-! ## Primaries -/

theorem passes_parenthesized :
    Passes Whole (parenthesized nested) (Showing Expr.marks)
      (fun _ => Silent) := by
  refine (passes_advance guard_whole).bind fun opening before _ => ?_
  refine tells.whole.bind fun inner taken shown => ?_
  refine (passes_expect _ _).bind fun _ closing _ => passes_ask fun span => ?_
  refine passes_pure ?_ fun _ silent => silent
  rw [Showing, Expr.marks_withSpan]
  exact (shown.passing _).after before

theorem passes_arrayLiteral :
    Passes Ahead (arrayLiteral nested) (Showing Expr.marks)
      (fun _ => Silent) := by
  refine passes_form.bind fun opening before isForm => ?_
  refine (tells.enclosed _ _).whole.bind fun elements taken shown =>
    passes_ask fun span => ?_
  refine passes_pure ?_ fun _ silent => silent
  rw [Showing, Expr.marks, Expr.allMarks_eq_flatMap]
  exact isForm.append (shown.passing [])

/-- A code block shows its brace, its parameters and its expressions. -/
theorem passes_codeBlock :
    Passes Ahead (codeBlock nested) (Showing Expr.marks) (fun _ => Silent) := by
  refine passes_form.bind fun opening before isForm => ?_
  refine (passes_advance guard_whole).bind fun _ bar _ => ?_
  refine ((tells_expectName _).enclosed _ _).whole.bind fun names taken shown =>
    ?_
  refine (tells.enclosed _ _).bind fun body later shownLater =>
    passes_ask fun span => ?_
  refine passes_pure ?_ fun _ silent => silent
  rw [Showing, Expr.marks, Expr.allMarks_eq_flatMap]
  exact isForm.append ((shown.append (shownLater.passing [])).after bar)

omit tells in
/-- A primary that is one token. -/
theorem passes_tokenPrimary
    {token : Token}
    {value : Expr}
    (present : token.kind ≠ .endOfFile)
    (shows : Shows value.marks [token]) :
    Passes (fun state => state.Whole ∧ state.current = token)
      (advance >>= fun _ => pure value)
      (Showing Expr.marks) (fun _ => Silent) := by
  have read := (passes_token present shows).weaken
    fun state (both : state.Whole ∧ state.current = token) =>
      ⟨both.1.silent.dropped, both.2⟩
  exact read.bind fun _ _ shown => passes_pure (shown.passing []) fun _ whole =>
    whole.silent

/--
A primary shows the tokens that it was read from, or it is a
placeholder and shows nothing.
-/
theorem passes_primary :
    Passes Whole (primary nested) (Showing Expr.marks) (fun _ => Silent) := by
  refine passes_asking fun token => ?_
  split
  · next value isLiteral =>
      apply passes_tokenPrimary
      · intro ended
        rw [literal?_eq_none (by rw [ended]; decide)] at isLiteral
        cases isLiteral
      · rw [Expr.marks]
        exact .single (literal_mem_marks isLiteral)
  · split
    · next isName =>
        apply passes_tokenPrimary
        · rw [isName]
          decide
        · rw [Expr.ofIdentifier, Expr.marks]
          exact Identifier.shows_token isName
    · exact (passes_parenthesized tells).weaken fun _ both => both.1
    · next isBrace =>
        have ahead : ∀ state : State, state.Whole ∧ state.current = token →
            state.Ahead := by
          rintro state ⟨whole, rfl⟩
          apply whole.silent.dropped.ahead_of_kind
          rw [State.kind, isBrace]
          decide
        refine passes_ask fun _ => passes_ite (fun _ => ?_) fun _ => ?_
        · exact (passes_codeBlock tells).weaken ahead
        · exact (passes_arrayLiteral tells).weaken ahead
    · exact passes_invalidToken.weaken fun _ both => both.1
    · exact tells_noExpression.whole.weaken fun _ both => both.1

theorem passes_suffixed :
    Passes Whole (suffixed nested) (Showing Expr.marks) (fun _ => Silent) := by
  refine (passes_primary tells).bind fun target taken shown => ?_
  refine (tells_suffixes tells).bind fun suffixes later shownLater => ?_
  refine passes_pure ?_ fun _ silent => silent
  rw [Showing, Suffix.marks_foldl_apply]
  exact shown.append (shownLater.passing [])

end

/-! ## Operators -/

/-- The marks of the operator of an operation with its right operand. -/
def rightMarks (right : BinaryOperator × Expr) : List Mark :=
  .operator right.1.kind :: right.2.marks

theorem marks_foldl_joinRight
    (left : Expr)
    (others : List (BinaryOperator × Expr)) :
    (others.foldl joinRight left).marks =
      left.marks ++ others.flatMap rightMarks := by
  induction others generalizing left with
  | nil => simp
  | cons right rest hypothesis =>
      simp [hypothesis, joinRight, Expr.marks, rightMarks]

section

variable
  {operand : Rule Expr}
  (passes : Passes Whole operand (Showing Expr.marks) (fun _ => Silent))

include passes

/-- A prefix operator shows its token, and then what its operand shows. -/
theorem passes_prefixed
    {operator : UnaryOperator} :
    Passes (fun state =>
      state.Whole ∧ UnaryOperator.ofKind? state.kind = some operator)
        (prefixed operand operator) (Showing Expr.marks) (fun _ => Silent) := by
  have read :
      Passes (fun state =>
        state.Whole ∧ UnaryOperator.ofKind? state.kind = some operator)
          advance (fun _ => Shows [.operator operator.kind])
            (fun _ => Whole) := by
    apply passes_offered.weaken
    rintro state ⟨whole, isOperator⟩
    refine ⟨whole.silent.dropped.ahead_of_kind ?_,
      UnaryOperator.mark_of_token isOperator⟩
    intro ended
    rw [ended] at isOperator
    cases isOperator
  refine read.bind fun token before isOperator =>
    passes.bind fun inner taken shown => ?_
  refine passes_ask fun span => passes_pure ?_ fun _ silent => silent
  rw [Showing, Expr.marks]
  exact isOperator.append (shown.passing [])

/--
A chain of one level shows its operands and the operators
between them, in order.
-/
theorem Rule.Passes.chain (level : Nat) :
    Passes Whole (chain level operand) (Showing Expr.marks)
      (fun _ => Silent) := by
  have others : (many (rightOperand? level operand)).Tells
      (List.flatMap rightMarks) := by
    refine passes_many guard_silent fun token rule opened => ?_
    rw [rightOperand?] at opened
    split at opened
    · next operator isOperator =>
        split at opened
        · cases opened
          refine passes.bind fun value taken shown =>
            passes_pure ?_ fun _ silent => silent
          exact (BinaryOperator.mark_of_token isOperator).append
            (shown.passing [])
        · cases opened
    · cases opened
  refine passes.bind fun first taken shown =>
    others.bind fun rest later shownLater => ?_
  refine passes_pure ?_ fun _ silent => silent
  rw [Showing, marks_foldl_joinRight]
  exact shown.append (shownLater.passing [])

theorem Rule.Passes.binary :
    Passes Whole (binary operand) (Showing Expr.marks) (fun _ => Silent) :=
  (((((passes.chain 6).chain 5).chain 4).chain 3).chain 2).chain 1

end

/--
An operand shows the tokens that it was read from, with any
number of levels left.
-/
theorem passes_operand (levels : Nat) :
    Passes Whole (operand levels) (Showing Expr.marks) (fun _ => Silent) := by
  induction levels with
  | zero =>
      refine passes_ask fun kind => ?_
      cases UnaryOperator.ofKind? kind with
      | some _ => exact passes_tooDeep
      | none => exact passes_suffixed passes_tooDeep.unlessRecovering
  | succ levels hypothesis =>
      refine passes_asking fun kind => ?_
      cases isOperator : UnaryOperator.ofKind? kind with
      | some operator =>
          apply (passes_prefixed hypothesis).weaken
          rintro state ⟨whole, rfl⟩
          exact ⟨whole, isOperator⟩
      | none =>
          exact (passes_suffixed hypothesis.binary.unlessRecovering).weaken
            fun _ both => both.1

/--
An expression shows the tokens that its reading
passed, and a cut leaves it recovering.
-/
theorem tells_expression (levels : Nat) :
    (expression levels).Tells Expr.marks := by
  cases levels with
  | zero => exact passes_tooDeep.unlessRecovering
  | succ levels => exact (passes_operand levels).binary.unlessRecovering

end Clipper.Grammar
