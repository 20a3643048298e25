import Clipper.Proofs.Grammar.Curtailment
import Clipper.Proofs.Grammar.ExpressionComplete

/-!
# Expressions do not depend on what stands behind them

The rules for expressions keep what they read where the tokens behind are
missing, and also with more levels left.

The cases are the rules of the grammar.  At the end of an expression a rule
looks at the next token to see whether it goes on, with a suffix or an
operator; where tokens before the seam are left this is the same token on both
sides, and where none is left, what stands behind the seam is known to prolong
nothing.  A brace is the one place in an expression at which a rule looks at a
second token: a bar makes it a code block.
-/

namespace Clipper.Grammar.Curtailment

open Rule

variable {cut : Curtailment} {left : State}

theorem keeps_spanFrom_bind
    {β : Type}
    {start : Nat}
    {next further : Span → Rule β}
    (later : ∀ span, cut.Keeps (next span) (further span) left) :
    cut.Keeps (spanFrom start >>= next) (spanFrom start >>= further) left :=
  keeps_ask_bind (fun _ _ => rfl) (later _)

/-- Every rule takes some of the tokens ahead. -/
theorem sound_any
    {α : Type}
    (rule : Rule α) :
    Sound rule (fun _ _ => True) := by
  intro state value next reads
  have within := rule.suffix state
  rw [reads.run] at within
  obtain ⟨tokens, shape⟩ := within
  exact ⟨tokens, shape.symm, trivial⟩

theorem length_lt_of_taken
    {tokens rest later : List Token}
    (shape : rest = tokens ++ later)
    (nonempty : tokens ≠ []) :
    later.length < rest.length := by
  rw [shape, List.length_append]
  exact Nat.lt_add_of_pos_left (List.length_pos_iff.mpr nonempty)

section

variable {nested other : Rule Expr}
    (keeps : ∀ state, cut.Keeps nested other state)

include keeps

theorem Keeps.unlessRecovering :
    cut.Keeps (unlessRecovering nested) (unlessRecovering other) left := by
  intro tree next front reads shape reached clear
  obtain ⟨later, shapeNext, kept⟩ :=
    keeps left (reads_unlessRecovering.mp reads) shape reached clear
  exact ⟨later, shapeNext, reads_unlessRecovering.mpr kept⟩

/-! ## Suffixes -/

theorem keeps_message : cut.Keeps (message nested) (message other) left := by
  refine (keeps_expectName .colon).bind fun name middle _ => ?_
  refine keeps_ask_bind (fun _ _ => rfl)
    (keeps_ite (fun _ => keeps_pure _) fun _ => ?_)
  refine keeps_eatWord_bind (by decide) (by decide) (fun _ => ?_) fun _ =>
    keeps_pure _
  exact (Keeps.enclosed keeps (by decide) _).bind fun _ _ _ => keeps_pure _

/--
What a sign for a suffix opens is kept, and the same sign
opens it on both sides.
-/
theorem keeps_suffixForm?
    {kind : TokenKind}
    {rule : Rule SuffixForm}
    (opened : suffixForm? nested kind = some rule) :
    ∃ further, suffixForm? other kind = some further ∧
      ∀ state, cut.Keeps rule further state := by
  unfold suffixForm? at opened
  split at opened
  · cases opened
    refine ⟨_, rfl, fun state => ?_⟩
    exact (Keeps.enclosed keeps (by decide) _).bind fun _ _ _ => keeps_pure _
  · cases opened
    refine ⟨_, rfl, fun state => (keeps state).bind fun _ _ _ => ?_⟩
    exact keeps_expect_bind (by decide) (keeps_pure _)
  · cases opened
    exact ⟨_, rfl, fun state => keeps_message keeps⟩
  · cases opened
    exact ⟨_, rfl, fun state => (keeps_expectName _).bind fun _ _ _ =>
      keeps_pure _⟩
  · cases opened

/--
The suffixes of an operand are kept, if what stands behind
the seam opens none.
-/
theorem keeps_suffixes :
    cut.Keeps (many (suffix? nested)) (many (suffix? other)) left := by
  refine keeps_many ?_ ?_ ?_
  · intro token rule opened
    obtain ⟨form, formOpened, rfl⟩ := Option.map_eq_some_iff.mp opened
    obtain ⟨further, furtherOpened, kept⟩ := keeps_suffixForm? keeps formOpened
    refine ⟨_, Option.map_eq_some_iff.mpr ⟨further, furtherOpened, rfl⟩,
      fun state => ?_⟩
    exact (kept state).bind fun _ _ _ =>
      keeps_ask_bind (fun _ _ => rfl) (keeps_pure _)
  · intro token closed
    have noForm : suffixForm? nested token.kind = none :=
      Option.map_eq_none_iff.mp closed
    apply suffix?_eq_none other
    cases kind : token.kind <;>
      first | rfl | (rw [kind] at noForm; cases noForm)
  · intro _ token isQuiet
    apply suffix?_eq_none other
    cases kind : token.kind <;>
      first | rfl | (rw [kind] at isQuiet; cases isQuiet)

/-! ## Primaries -/

theorem keeps_parenthesized
    (ahead : left.rest ≠ []) :
    cut.Keeps (parenthesized nested) (parenthesized other) left := by
  refine keeps_advance_bind ahead ((keeps _).bind fun inner _ _ => ?_)
  exact keeps_expect_bind (by decide)
    (keeps_spanFrom_bind fun _ => keeps_pure _)

theorem keeps_arrayLiteral
    (ahead : left.rest ≠ []) :
    cut.Keeps (arrayLiteral nested) (arrayLiteral other) left := by
  refine keeps_advance_bind ahead
    ((Keeps.enclosed keeps (by decide) _).bind fun _ _ _ => ?_)
  exact keeps_spanFrom_bind fun _ => keeps_pure _

/-- A code block is kept.  Its two bars stand before the seam. -/
theorem keeps_codeBlock
    (ahead : left.rest ≠ [])
    (bars : left.secondKind = .bar) :
    cut.Keeps (codeBlock nested) (codeBlock other) left := by
  have aheadBar : left.advance.rest ≠ [] :=
    State.ahead_of_kind ((State.kind_advance left).trans bars) (by decide)
  refine keeps_advance_bind ahead (keeps_advance_bind aheadBar ?_)
  refine (Keeps.enclosed (fun _ => keeps_expectName _) (by decide) _).bind
    fun _ _ _ => ?_
  refine (Keeps.enclosed keeps (by decide) _).bind fun _ _ _ => ?_
  exact keeps_spanFrom_bind fun _ => keeps_pure _

/-- After a brace, a bar tells a code block from an array. -/
theorem keeps_braced (ahead : left.rest ≠ []) :
    cut.Keeps
      (ask State.secondKind >>= fun second =>
        if second = .bar then codeBlock nested else arrayLiteral nested)
      (ask State.secondKind >>= fun second =>
        if second = .bar then codeBlock other else arrayLiteral other)
        left := by
  intro tree next front reads shape reached clear
  have continued := reads_ask_bind.mp reads
  rcases Decidable.em (left.secondKind = .bar) with bars | noBars
  · rw [if_pos bars] at continued
    have bar : left.advance.kind = .bar := (State.kind_advance left).trans bars
    have further := continued
    rw [codeBlock, reads_advance_bind] at further
    obtain ⟨token, front, rfl⟩ :=
      exists_cons_of_taken shape reached (length_lt_of_advance ahead continued)
    obtain ⟨second, front, rfl⟩ :=
      exists_cons_of_taken (State.rest_advance shape) reached
        (length_lt_of_advance (State.ahead_of_kind bar (by decide)) further)
    obtain ⟨later, shapeNext, kept⟩ :=
      keeps_codeBlock keeps ahead bars continued shape reached clear
    refine ⟨later, shapeNext, reads_ask_bind.mpr ?_⟩
    rw [if_pos]
    · exact kept
    · rw [← State.kind_advance, advance_state shape,
        kind_state (State.rest_advance shape), bar]
  · rw [if_neg noBars] at continued
    have further := continued
    rw [arrayLiteral, reads_advance_bind] at further
    obtain ⟨token, front, rfl⟩ :=
      exists_cons_of_taken shape reached (length_lt_of_advance ahead continued)
    obtain ⟨later, shapeNext, kept⟩ :=
      keeps_arrayLiteral keeps ahead continued shape reached clear
    refine ⟨later, shapeNext, reads_ask_bind.mpr ?_⟩
    rw [if_neg]
    · exact kept
    · rw [← State.kind_advance, advance_state shape]
      cases front with
      | nil =>
          rw [kind_state_nil]
          exact behind_ne (by decide)
            (reached.full (State.rest_advance shape) (suffix_of_reads further))
      | cons second front =>
          rw [kind_state (State.rest_advance shape), State.kind_advance]
          exact noBars

/-- A primary is kept, whichever token begins it. -/
theorem keeps_primary : cut.Keeps (primary nested) (primary other) left := by
  refine keeps_peek_bind (fun _ _ shape _ => current_state shape) ?_ ?_
  · intro tree last reads
    obtain ⟨tokens, shape, phrased⟩ :=
      sound_primary (sound_any nested) left tree last (reads_ask_bind.mpr reads)
    exact length_lt_of_taken shape (begins_primary _ _ _ phrased).1
  · have ahead (isToken : left.current.kind ≠ .endOfFile) : left.rest ≠ [] :=
      State.ahead_of_kind rfl isToken
    split
    · next value isLiteral =>
        refine keeps_advance_bind (ahead ?_) (keeps_pure
          (Expr.literal value left.current.span))
        intro ended
        rw [literal?, ended] at isLiteral
        cases isLiteral
    · split
      · next isName =>
          have present := ahead (by rw [isName]; decide)
          exact keeps_advance_bind present
            (keeps_pure (Expr.ofIdentifier ⟨_, _⟩))
      · next opens =>
          exact keeps_parenthesized keeps (ahead (by rw [opens]; decide))
      · next opens => exact keeps_braced keeps (ahead (by rw [opens]; decide))
      · apply keeps_of_never
        intro tree next reads
        rw [invalidToken, reads_ask_bind] at reads
        obtain ⟨_, _, reported, -⟩ := reads_bind.mp reads
        exact not_reads_reportHere reported
      · apply keeps_of_never
        intro tree next reads
        rw [noExpression, reads_ask_bind] at reads
        obtain ⟨_, _, failed, -⟩ := reads_bind.mp reads
        exact not_reads_fail failed

theorem keeps_suffixed : cut.Keeps (suffixed nested) (suffixed other) left :=
  (keeps_primary keeps).bind fun _ _ _ =>
    (keeps_suffixes keeps).bind fun _ _ _ => keeps_pure _

end

/-! ## Operators -/

section

variable {operand other : Rule Expr}
    (keeps : ∀ state, cut.Keeps operand other state)

include keeps

theorem keeps_prefixed
    (ahead : left.rest ≠ [])
    (operator : UnaryOperator) :
    cut.Keeps (prefixed operand operator) (prefixed other operator) left := by
  refine keeps_advance_bind ahead ((keeps _).bind fun inner _ _ => ?_)
  exact keeps_spanFrom_bind fun _ => keeps_pure _

/--
A chain of one level is kept, if its operands are, and if what stands behind
the seam is no operator of the level.
-/
theorem Keeps.chain (level : Nat) :
    cut.Keeps (chain level operand) (chain level other) left := by
  have others (state : State) :
      cut.Keeps (many (rightOperand? level operand))
        (many (rightOperand? level other)) state := by
    refine keeps_many ?_ ?_ ?_
    · intro token rule opened
      rw [rightOperand?] at opened
      rw [rightOperand?]
      split at opened
      · split at opened
        · next binds =>
            cases opened
            exact ⟨_, if_pos binds, fun state => (keeps state).bind fun _ _ _ =>
              keeps_pure _⟩
        · cases opened
      · cases opened
    · intro token closed
      rw [rightOperand?] at closed ⊢
      split at closed
      · split at closed
        · cases closed
        · next other => exact if_neg other
      · rfl
    · intro _ token isQuiet
      rw [rightOperand?]
      cases kind : token.kind <;>
        first | rfl | (rw [kind] at isQuiet; cases isQuiet)
  exact (keeps left).bind fun _ middle _ => (others middle).bind fun _ _ _ =>
    keeps_pure _

theorem Keeps.binary : cut.Keeps (binary operand) (binary other) left :=
  Keeps.chain (fun _ =>
    Keeps.chain (fun _ => Keeps.chain (fun _ => Keeps.chain (fun _ =>
      Keeps.chain (fun _ => Keeps.chain keeps 6) 5) 4) 3) 2) 1

end

/-- Where an operand is read, a token is taken. -/
theorem takes_operand
    {levels : Nat}
    {state next : State}
    {tree : Expr}
    (reads : Reads (operand levels) state tree next) :
    next.rest.length < state.rest.length := by
  obtain ⟨tokens, shape, phrased⟩ := sound_operand levels _ _ _ reads
  exact length_lt_of_taken shape (begins_operand levels _ _ phrased).1

theorem keeps_tooDeep (other : Rule Expr) : cut.Keeps tooDeep other left := by
  apply keeps_of_never
  intro tree next reads
  obtain ⟨_, -, impossible⟩ := sound_tooDeep _ _ _ reads
  exact impossible

theorem keeps_unlessTooDeep (other : Rule Expr) :
    cut.Keeps (unlessRecovering tooDeep) other left := by
  apply keeps_of_never
  intro tree next reads
  obtain ⟨_, -, impossible⟩ := sound_tooDeep.unlessRecovering _ _ _ reads
  exact impossible

/-- An operand, with any rules for what is inside it. -/
theorem keeps_operandOf
    {nested other : Rule Expr}
    {deeper further : UnaryOperator → Rule Expr}
    (keeps : ∀ state, cut.Keeps nested other state)
    (keepsDeeper :
      ∀ operator, UnaryOperator.ofKind? left.kind = some operator →
        cut.Keeps (deeper operator) (further operator) left)
    (takes :
      ∀ tree next,
        Reads
            (match UnaryOperator.ofKind? left.kind with
              | some operator => deeper operator
              | none => suffixed nested)
            left tree next →
          next.rest.length < left.rest.length) :
    cut.Keeps
      (ask State.kind >>= fun kind =>
        match UnaryOperator.ofKind? kind with
        | some operator => deeper operator
        | none => suffixed nested)
      (ask State.kind >>= fun kind =>
        match UnaryOperator.ofKind? kind with
        | some operator => further operator
        | none => suffixed other) left := by
  refine keeps_peek_bind (fun _ _ shape _ => kind_state shape) takes ?_
  split
  · next operator isOperator => exact keepsDeeper operator isOperator
  · exact keeps_suffixed keeps

/-- An operand is kept, with as many levels left or with more. -/
theorem keeps_operand
    {levels more : Nat}
    (le : levels ≤ more) :
    cut.Keeps (operand levels) (operand more) left := by
  induction levels generalizing more left with
  | zero =>
      have takes (tree : Expr) (next : State)
          (reads : Reads (operand 0) left tree next) :=
        takes_operand reads
      cases more with
      | zero =>
          refine keeps_operandOf (fun _ => keeps_unlessTooDeep _)
            (fun _ _ => keeps_tooDeep _) ?_
          exact fun tree next reads =>
            takes tree next (reads_ask_bind.mpr reads)
      | succ more =>
          refine keeps_operandOf (fun _ => keeps_unlessTooDeep _)
            (fun _ _ => keeps_tooDeep _) ?_
          exact fun tree next reads =>
            takes tree next (reads_ask_bind.mpr reads)
  | succ levels hypothesis =>
      obtain ⟨more, rfl⟩ :=
        Nat.exists_eq_add_of_le' (Nat.le_trans (Nat.succ_pos levels) le)
      have deeper (state : State) :
          cut.Keeps (operand levels) (operand more) state :=
        hypothesis (Nat.le_of_succ_le_succ le)
      refine keeps_operandOf
        (fun _ => Keeps.unlessRecovering fun _ => Keeps.binary deeper) ?_ ?_
      · intro operator isOperator
        apply keeps_prefixed deeper
        apply State.ahead_of_kind rfl
        intro ended
        rw [ended] at isOperator
        cases isOperator
      · intro value next reads
        have whole : Reads (operand (levels + 1)) left value next :=
          reads_ask_bind.mpr reads
        exact takes_operand whole

/-- An expression is kept, with as many levels left or with more. -/
theorem keeps_expression
    {levels more : Nat}
    (le : levels ≤ more) :
    cut.Keeps (expression levels) (expression more) left := by
  cases levels with
  | zero => exact keeps_unlessTooDeep _
  | succ levels =>
      obtain ⟨more, rfl⟩ :=
        Nat.exists_eq_add_of_le' (Nat.le_trans (Nat.succ_pos levels) le)
      exact Keeps.unlessRecovering fun _ => Keeps.binary fun _ =>
        keeps_operand (Nat.le_of_succ_le_succ le)

end Clipper.Grammar.Curtailment
