import Clipper.Proofs.Grammar.Together

/-!
# Expressions side by side

Reading an expression does the same in both readings.  Where the first reading
ends and the second one finds the head of a routine, neither finds an operand,
an operator or a suffix; where the seam is after a semicolon, the reading
recovers and no part of an expression looks at the tokens ahead, except to close
it.

`WhenReady` is the form of the statements: two readings that are beside each
other do the same, if the first has a token ahead, or nothing that comes
behind the seam would be taken.  Rules that begin with a question about the
token ahead have the same answer on both sides, since relabelled tokens are of
the same kind; and whatever is made is relabelled with them.
-/

namespace Clipper.Grammar

open Relabelled (relabel)
open Rule

instance : Relabelled BinaryOperator where
  relabel _ operator := operator

/-- A relabelled form of a suffix. -/
def SuffixForm.relabel (change : Relabelling) : SuffixForm → SuffixForm
  | call arguments => call (Relabelled.relabel change arguments)
  | index position => index (Relabelled.relabel change position)
  | property message => property (Relabelled.relabel change message)
  | send message arguments =>
      send (Relabelled.relabel change message)
        (Relabelled.relabel change arguments)
  | field column => field (Relabelled.relabel change column)

instance : Relabelled SuffixForm where
  relabel := SuffixForm.relabel

instance : Relabelled Suffix where
  relabel change suffix :=
    ⟨relabel change suffix.form, relabel change suffix.stop⟩

section Values

variable {change : Relabelling}

@[simp]
theorem relabel_binaryOperator (operator : BinaryOperator) :
    relabel change operator = operator :=
  rfl

theorem relabel_suffix
    (form : SuffixForm)
    (stop : Nat) :
    relabel change (Suffix.mk form stop) =
      ⟨form.relabel change, relabel change stop⟩ :=
  rfl

theorem relabel_apply
    (target : Expr)
    (suffix : Suffix) :
    relabel change (suffix.apply target) =
      (relabel change suffix).apply (relabel change target) := by
  rcases suffix with ⟨form, stop⟩
  rw [relabel_suffix]
  cases form <;> simp [Suffix.apply, SuffixForm.relabel, Function.comp_def]

/-- To apply suffixes commutes with relabelling. -/
@[simp]
theorem relabel_foldl_apply
    (target : Expr)
    (suffixes : List Suffix) :
    relabel change (suffixes.foldl Suffix.apply target) =
      (relabel change suffixes).foldl Suffix.apply (relabel change target) := by
  induction suffixes generalizing target with
  | nil => rfl
  | cons suffix rest hypothesis =>
      rw [List.foldl_cons, hypothesis, relabel_apply]
      rfl

theorem relabel_joinRight
    (left : Expr)
    (right : BinaryOperator × Expr) :
    relabel change (joinRight left right) =
      joinRight (relabel change left) (relabel change right) := by
  simp [joinRight]

/-- To join operands commutes with relabelling. -/
@[simp]
theorem relabel_foldl_joinRight
    (left : Expr)
    (others : List (BinaryOperator × Expr)) :
    relabel change (others.foldl joinRight left) =
      (relabel change others).foldl joinRight (relabel change left) := by
  induction others generalizing left with
  | nil => rfl
  | cons right rest hypothesis =>
      rw [List.foldl_cons, hypothesis, relabel_joinRight]
      rfl

theorem literal?_relabel (token : Token) :
    literal? (relabel change token) =
      (literal? token).map (relabel change) := by
  rcases token with ⟨kind, span, lexeme⟩
  unfold literal?
  dsimp only [kind_relabel]
  split <;> rfl

end Values

/-- A question that the three words of heads answer like the end of the file. -/
theorem steady
    {α : Type}
    {question : TokenKind → α}
    (function : question .function = question .endOfFile)
    (procedure : question .procedure = question .endOfFile)
    (static : question .static = question .endOfFile)
    (kind : TokenKind)
    (head : isHeadKind kind = true) :
    question kind = question .endOfFile := by
  rw [isHeadKind, isRoutineWord, Bool.or_eq_true, Bool.or_eq_true,
    beq_iff_eq, beq_iff_eq, beq_iff_eq] at head
  obtain (isFunction | isProcedure) | isStatic := head
  · rw [isFunction, function]
  · rw [isProcedure, procedure]
  · rw [isStatic, static]

namespace Seam

variable {seam : Seam}

/-- From all states side by side, a rule goes together with itself. -/
abbrev Always
    {α : Type}
    [Relabelled α]
    (seam : Seam)
    (rule : Rule α) :
    Prop :=
  ∀ left right, seam.Beside left right → seam.Together rule rule left right

/--
From all states side by side where no error may
be hidden, a rule goes together with itself.
-/
abbrev WhenReady
    {α : Type}
    [Relabelled α]
    (seam : Seam)
    (rule : Rule α) :
    Prop :=
  ∀ left right, seam.Beside left right → seam.Ready left →
    seam.Together rule rule left right

theorem always_placeholderHere : seam.Always placeholderHere := by
  refine fun left right beside _ => ⟨?_, beside⟩
  change Expr.placeholder right.start = relabel _ (Expr.placeholder left.start)
  rw [beside.start, relabel_placeholder_expr]

theorem always_tooDeep : seam.Always tooDeep := fun _ _ beside =>
  together_bind (together_cutOff beside) fun _ _ _ _ after =>
    always_placeholderHere _ _ after

theorem always_unlessRecovering
    {rule : Rule Expr}
    (ready : seam.WhenReady rule) :
    seam.Always (unlessRecovering rule) := by
  intro left right beside
  refine together_ask_bind
    (together_ite (by rw [beside.recovering]) (fun _ => ?_) (fun calm => ?_))
  · exact always_placeholderHere _ _ beside
  · exact ready _ _ beside fun _ => Bool.eq_false_iff.mpr calm

section Nested

variable {nested : Rule Expr} (always : seam.Always nested)

include always

/-- A list of arguments is read alike, up to the token that closes it. -/
theorem together_arguments
    {left right : State}
    {closer : TokenKind}
    {part : Part}
    (beside : seam.Beside left right)
    (plain : isPlain closer = true)
    (prolonging : prolongs closer = true) :
    seam.Together (enclosed nested closer part) (enclosed nested closer part)
      left right := by
  refine together_enclosed beside plain ?_ prolonging
    (fun _ => always _ _ beside) fun _ _ beside _ => always _ _ beside
  rintro rfl
  cases prolonging

/-- A message is read alike, whether or not arguments follow its name. -/
theorem whenReady_message : seam.WhenReady (message nested) := by
  intro left right beside ready
  refine together_bind (together_expectName beside _ ready)
    fun name middle _ _ beside => ?_
  refine together_ask_bind
    (together_ite (by rw [beside.recovering]) (fun _ => ?_) (fun calm => ?_))
  · exact together_pure beside rfl
  · refine together_eat_bind beside rfl (fun _ => (by decide))
      (fun _ => Or.inl (Bool.eq_false_iff.mpr calm)) (fun _ ate => ?_)
      (fun _ => together_pure beside rfl)
    exact together_bind (together_arguments always ate rfl rfl)
      fun _ _ _ _ after =>
        together_pure after rfl

/-- A suffix is read alike, whichever sign opens it; no semicolon opens one. -/
theorem whenReady_suffixForm?
    {kind : TokenKind}
    {rule : Rule SuffixForm}
    (opened : suffixForm? nested kind = some rule) :
    kind ≠ .semicolon ∧ seam.WhenReady rule := by
  unfold suffixForm? at opened
  split at opened
  · cases opened
    refine ⟨(by decide), fun left right beside _ => ?_⟩
    exact together_bind (together_arguments always beside rfl rfl)
      fun _ _ _ _ after =>
        together_pure after rfl
  · cases opened
    refine ⟨(by decide), fun left right beside _ => ?_⟩
    refine together_bind (always _ _ beside) fun position _ _ _ after => ?_
    exact together_bind
      (together_expect after rfl (by decide) fun _ => Or.inr rfl)
        fun _ _ _ _ final =>
          together_pure final rfl
  · cases opened
    exact ⟨(by decide), whenReady_message always⟩
  · cases opened
    refine ⟨(by decide), fun left right beside ready => ?_⟩
    exact together_bind (together_expectName beside _ ready)
      fun _ _ _ _ after =>
        together_pure after rfl
  · cases opened

/-- A token and the relabelled token open the same suffix. -/
theorem opensAlike_suffix? :
    seam.OpensAlike (suffix? nested) (suffix? nested) where
  closed _ none := none
  opened token rule opened := by
    obtain ⟨form, formOpened, rfl⟩ := Option.map_eq_some_iff.mp opened
    obtain ⟨noSemicolon, ready⟩ := whenReady_suffixForm? always formOpened
    refine ⟨noSemicolon, _, opened, fun left right beside calm => ?_⟩
    refine together_bind (ready _ _ beside calm) fun form _ _ _ after => ?_
    exact together_ask_bind (together_pure after (by rw [after.reached]; rfl))
  noHead token head := by
    have none : suffixForm? nested token.kind = suffixForm? nested .endOfFile :=
      steady rfl rfl rfl token.kind head
    rw [suffix?, none]
    rfl

end Nested

/-! ## Primaries -/

section Primaries

variable {left right : State} (beside : seam.Beside left right)

include beside

/-- Where no expression stands, both readings report it and recover. -/
theorem together_noExpression (ready : seam.Ready left) :
    seam.Together noExpression noExpression left right := by
  have same :
      seam.kind = .routine ∨
        Cause.expectedExpression right.kind =
          relabel seam.change (Cause.expectedExpression left.kind) := by
    rcases Decidable.em (seam.kind = .routine) with isRoutine | noRoutine
    · exact Or.inl isRoutine
    · exact Or.inr (congrArg _ (beside.kind_eq ready noRoutine))
  refine together_ask_bind
    (together_bind (together_fail beside same) fun _ _ _ _ after => ?_)
  refine together_pure after ?_
  rw [beside.span_current, start_relabel, relabel_placeholder_expr]

/--
An invalid token is reported on both sides, with its text
relabelled, and taken.
-/
theorem together_invalidToken (faulty : left.kind = .error) :
    seam.Together invalidToken invalidToken left right := by
  have ahead : left.rest ≠ [] := State.ahead_of_kind faulty (by decide)
  have fault : left.current.kind = .error := faulty
  have same :
      Cause.invalidToken right.current.lexeme =
        relabel seam.change (Cause.invalidToken left.current.lexeme) := by
    rw [beside.current ahead, lexeme_relabel, fault]
    rfl
  refine together_ask_bind
    (together_bind (together_reportHere beside (Or.inr same)) ?_)
  rintro _ middle middle' run after
  obtain ⟨-, rfl⟩ := Prod.mk.inj run
  refine together_advance_bind after ahead (fun _ => ?_) fun after =>
    together_pure after ?_
  · change left.kind ≠ .semicolon
    rw [faulty]
    decide
  · rw [beside.span_current, start_relabel, relabel_placeholder_expr]

variable {nested : Rule Expr} (always : seam.Always nested)

include always

/-- An expression between parentheses is read alike. -/
theorem together_parenthesized (opens : left.kind = .leftParenthesis) :
    seam.Together (parenthesized nested) (parenthesized nested) left right := by
  have ahead : left.rest ≠ [] := State.ahead_of_kind opens (by decide)
  refine together_advance_bind beside ahead (fun _ => by rw [opens]; decide)
    fun beside => ?_
  refine together_bind (always _ _ beside) fun inner _ _ _ beside => ?_
  refine together_bind
    (together_expect beside rfl (by decide) fun _ => Or.inr rfl)
      fun _ _ _ _ beside => ?_
  refine together_bind (together_spanFrom beside _) fun span _ _ _ beside => ?_
  exact together_pure beside (by simp)

theorem together_arrayLiteral (opens : left.kind = .leftBrace) :
    seam.Together (arrayLiteral nested) (arrayLiteral nested) left right := by
  have ahead : left.rest ≠ [] := State.ahead_of_kind opens (by decide)
  refine together_advance_bind beside ahead (fun _ => by rw [opens]; decide)
    fun beside => ?_
  refine together_bind (together_arguments always beside rfl rfl)
    fun elements _ _ _ beside => ?_
  refine together_bind (together_spanFrom beside _) fun span _ _ _ beside => ?_
  exact together_pure beside (by simp [Function.comp_def])

/-- A code block is read alike. -/
theorem together_codeBlock
    (ready : seam.Ready left)
    (opens : left.kind = .leftBrace)
    (bar : left.secondKind = .bar) :
    seam.Together (codeBlock nested) (codeBlock nested) left right := by
  have ahead : left.rest ≠ [] := State.ahead_of_kind opens (by decide)
  refine together_advance_bind beside ahead (fun _ => by rw [opens]; decide)
    fun beside => ?_
  have atBar : left.advance.kind = .bar := by rw [State.kind_advance, bar]
  have aheadBar : left.advance.rest ≠ [] :=
    State.ahead_of_kind atBar (by decide)
  refine together_advance_bind beside aheadBar (fun _ => by rw [atBar]; decide)
    fun beside => ?_
  have names :
      seam.Together (enclosed (expectName .bar) .bar .codeBlockParameters)
        (enclosed (expectName .bar) .bar .codeBlockParameters)
          left.advance.advance
        right.advance.advance := by
    refine together_enclosed beside rfl (by decide)
      rfl (fun _ => together_expectName beside _ ?_)
      fun _ _ beside ready => together_expectName beside _ ready
    intro isSemicolon
    rw [State.recovering_advance, State.recovering_advance, ready isSemicolon]
  refine together_bind names fun parameters _ _ _ beside => ?_
  refine together_bind (together_arguments always beside rfl rfl)
    fun body _ _ _ beside => ?_
  refine together_bind (together_spanFrom beside _) fun span _ _ _ beside => ?_
  exact together_pure beside (by simp [Function.comp_def])

omit beside always in
/-- Where the first reading ends or a head begins, there is no primary. -/
theorem primary_beyond
    {state : State}
    (beyond : state.kind = .endOfFile ∨ isHeadKind state.kind = true) :
    (primary nested).run state = noExpression.run state := by
  rw [isHeadKind, isRoutineWord, Bool.or_eq_true, Bool.or_eq_true,
    beq_iff_eq, beq_iff_eq, beq_iff_eq] at beyond
  rw [primary, run_bind]
  dsimp only [ask, literal?]
  rw [State.kind] at beyond
  obtain isEnd | (isFunction | isProcedure) | isStatic := beyond
  · rw [isEnd]
  · rw [isFunction]
  · rw [isProcedure]
  · rw [isStatic]

omit beside in
/--
A primary is read alike.  The token ahead tells which form
it has, on both sides.
-/
theorem whenReady_primary : seam.WhenReady (primary nested) := by
  intro left right beside ready
  rcases Decidable.em (left.rest = []) with ended | ahead
  · have isEnd : left.kind = .endOfFile := by
      rw [State.kind_eq_headKind, ended, headKind]
    rw [Together, primary_beyond (Or.inl isEnd),
      primary_beyond (beside.kind_beyond ready ended)]
    exact together_noExpression beside ready
  · refine together_ask_bind ?_
    rw [beside.current ahead, literal?_relabel]
    cases isLiteral : literal? left.current with
    | some value =>
        refine together_advance_bind beside ahead (fun _ isSemicolon => ?_)
          fun beside =>
            together_pure beside (relabel_literal _ _).symm
        have kind : left.current.kind = .semicolon := isSemicolon
        rw [literal?, kind] at isLiteral
        cases isLiteral
    | none =>
        dsimp only [Option.map_none, kind_relabel]
        split
        · next named =>
            have isName : left.kind = .identifier := named
            refine together_advance_bind beside ahead
              (fun _ => by rw [isName]; decide) fun beside =>
                together_pure beside ?_
            rw [lexeme_relabel, named, relabel_ofIdentifier, relabel_identifier,
              span_relabel_token]
        · next opens => exact together_parenthesized beside always opens
        · next opens =>
            have isBrace : left.kind = .leftBrace := opens
            have sameBar : right.secondKind = .bar ↔ left.secondKind = .bar :=
              beside.same_secondKind rfl ahead (by rw [isBrace]; decide)
            refine together_ask_bind
              (together_ite sameBar (fun bar => ?_) (fun _ => ?_))
            · exact together_codeBlock beside always ready opens bar
            · exact together_arrayLiteral beside always opens
        · next faulty => exact together_invalidToken beside faulty
        · exact together_noExpression beside ready

omit beside in
theorem whenReady_suffixed : seam.WhenReady (suffixed nested) := by
  intro left right beside ready
  refine together_bind (whenReady_primary always _ _ beside ready)
    fun target _ _ _ beside => ?_
  refine together_bind (together_many (opensAlike_suffix? always) beside)
    fun suffixes _ _ _ beside => ?_
  exact together_pure beside (by simp)

end Primaries

/-! ## Operators -/

section Operators

variable {operand : Rule Expr} (ready : seam.WhenReady operand)

include ready

/-- An operand behind a prefix operator is read alike. -/
theorem together_prefixed
    {operator : UnaryOperator}
    {left right : State}
    (beside : seam.Beside left right)
    (calm : seam.Ready left)
    (opens : UnaryOperator.ofKind? left.kind = some operator) :
    seam.Together (prefixed operand operator) (prefixed operand operator)
      left right := by
  have notEnd : left.kind ≠ .endOfFile := by
    intro isEnd
    rw [isEnd] at opens
    cases opens
  have ahead : left.rest ≠ [] := State.ahead_of_kind rfl notEnd
  have other : left.kind ≠ .semicolon := by
    intro isSemicolon
    rw [isSemicolon] at opens
    cases opens
  refine together_advance_bind beside ahead (fun _ => other) fun beside => ?_
  have calmNext : seam.Ready left.advance := fun isSemicolon => by
    rw [State.recovering_advance, calm isSemicolon]
  refine together_bind (ready _ _ beside calmNext) fun inner _ _ _ beside => ?_
  refine together_bind (together_spanFrom beside _) fun span _ _ _ beside => ?_
  exact together_pure beside (by simp)

/-- A chain of one level is read alike, if its operands are. -/
theorem whenReady_chain (level : Nat) :
    seam.WhenReady (chain level operand) := by
  have alike : seam.OpensAlike (rightOperand? level operand)
      (rightOperand? level operand) :=
    { closed := fun _ none => none
      opened := by
        intro token rule opened
        refine ⟨?_, rule, opened, ?_⟩
        · intro isSemicolon
          rw [rightOperand?, isSemicolon] at opened
          cases opened
        · rw [rightOperand?] at opened
          split at opened
          · split at opened
            · cases opened
              intro left right beside calm
              exact together_bind (ready _ _ beside calm)
                fun value _ _ _ beside =>
                  together_pure beside rfl
            · cases opened
          · cases opened
      noHead := fun token head => by
        have none : BinaryOperator.ofKind? token.kind =
            BinaryOperator.ofKind? .endOfFile :=
          steady rfl rfl rfl token.kind head
        rw [rightOperand?, none]
        rfl }
  intro left right beside calm
  refine together_bind (ready _ _ beside calm) fun first _ _ _ beside => ?_
  refine together_bind (together_many alike beside) fun others _ _ _ beside =>
    ?_
  exact together_pure beside (by simp)

theorem whenReady_binary : seam.WhenReady (binary operand) := by
  rw [binary]
  exact whenReady_chain
    (whenReady_chain (whenReady_chain (whenReady_chain (whenReady_chain
      (whenReady_chain ready 6) 5) 4) 3) 2) 1

end Operators

/-- An operand is read alike, with any number of levels left. -/
theorem whenReady_operand (levels : Nat) : seam.WhenReady (operand levels) := by
  have sameOperator {left right : State}
      (beside : seam.Beside left right)
      (calm : seam.Ready left) :
      UnaryOperator.ofKind? right.kind = UnaryOperator.ofKind? left.kind :=
    beside.answer (steady rfl rfl rfl) calm
  induction levels with
  | zero =>
      intro left right beside calm
      refine together_ask_bind ?_
      rw [sameOperator beside calm]
      split
      · exact always_tooDeep _ _ beside
      · exact whenReady_suffixed (always_unlessRecovering fun _ _ beside _ =>
          always_tooDeep _ _ beside) _ _ beside calm
  | succ levels hypothesis =>
      intro left right beside calm
      refine together_ask_bind ?_
      rw [sameOperator beside calm]
      split
      · next opens => exact together_prefixed hypothesis beside calm opens
      · exact whenReady_suffixed
          (always_unlessRecovering (whenReady_binary hypothesis)) _ _
          beside calm

/-- Side by side, two readings read the same expression. -/
theorem always_expression (levels : Nat) : seam.Always (expression levels) := by
  cases levels with
  | zero => exact always_unlessRecovering fun _ _ beside _ =>
      always_tooDeep _ _ beside
  | succ levels =>
      exact always_unlessRecovering
        (whenReady_binary (whenReady_operand levels))

end Seam

end Clipper.Grammar
