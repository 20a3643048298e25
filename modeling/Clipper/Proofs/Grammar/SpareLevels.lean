import Clipper.Proofs.Grammar.CutShort
import Clipper.Proofs.Grammar.StatementForms
import Clipper.Proofs.Grammar.Together

/-!
# Levels that are not needed

A rule is given the number of nesting levels that are left to it, and it asks
for that number only where it is cut short.  A reading that is not cut short is
therefore the same with more levels, report by report: there is one lemma for
each way in which rules are made, and one for each rule.

That a reading was not cut short is a hypothesis about its end, and it is
known at every point before, as no move clears that record.  A rule and the
same rule with more levels are compared from one state, and the states behind
are equal, with the reports and the recovery.  Nothing is asked of the tokens.
A reading that was cut short could go on further with more levels, so nothing
is said of it.
-/

namespace Clipper.Grammar

open Rule

namespace Rule

variable {α β : Type}

/-- Where the first rule is not cut short, the second one does the same. -/
def Persists (rule other : Rule α) : Prop :=
  ∀ state : State, (rule.run state).2.cutShort = false →
    other.run state = rule.run state

theorem Persists.refl (rule : Rule α) : rule.Persists rule :=
  fun _ _ => rfl

/-- A rule that is always cut short is like any other where it is not. -/
theorem persists_of_cut
    {rule : Rule α}
    (cut : ∀ state : State, (rule.run state).2.cutShort = true)
    (other : Rule α) :
    rule.Persists other := by
  intro state whole
  rw [cut state] at whole
  cases whole

/-- Two rules in turn are the same with more levels, if each of them is. -/
theorem Persists.bind
    {rule other : Rule α}
    {next further : α → Rule β}
    (first : rule.Persists other)
    (second : ∀ value, (next value).Persists (further value)) :
    (rule >>= next).Persists (other >>= further) := by
  intro state whole
  have wholeFirst : (rule.run state).2.cutShort = false :=
    ((next (rule.run state).1).reaches _).whole whole
  rw [run_bind, run_bind, first state wholeFirst]
  exact second _ _ whole

theorem persists_bind
    (rule : Rule α)
    {next further : α → Rule β}
    (second : ∀ value, (next value).Persists (further value)) :
    (rule >>= next).Persists (rule >>= further) :=
  (Persists.refl rule).bind second

theorem Persists.map
    {rule other : Rule α}
    (persists : rule.Persists other)
    (change : α → β) :
    (change <$> rule).Persists (change <$> other) :=
  persists.bind fun _ => .refl _

theorem persists_ite
    {condition : Prop}
    [Decidable condition]
    {rule other alternative otherwise : Rule α}
    (yes : condition → rule.Persists other)
    (no : ¬ condition → alternative.Persists otherwise) :
    (if condition then rule else alternative).Persists
      (if condition then other else otherwise) := by
  split
  · next holds => exact yes holds
  · next fails => exact no fails

/--
A loop is the same with more levels, if its rounds are.  The induction follows
the rounds, none of which is cut short.
-/
theorem Persists.many
    {open? openToo? : Token → Option (Rule α)}
    (opened : ∀ token, Option.Rel Persists (open? token) (openToo? token)) :
    (many open?).Persists (many openToo?) := by
  intro state whole
  change runMany openToo? state = runMany open? state
  change (runMany open? state).2.cutShort = false at whole
  fun_induction runMany open? state with
  | case1 state ended =>
      refine runMany_closed (.inr ?_)
      rw [ended]
      rintro _ ⟨⟩
  | case2 state token rest ahead recovering =>
      exact runMany_closed (.inl recovering)
  | case3 state token rest ahead calm closed =>
      have closedToo := opened token
      rw [closed] at closedToo
      refine runMany_closed (.inr ?_)
      rw [ahead]
      rintro _ ⟨⟩
      cases isOpen : openToo? token with
      | none => rfl
      | some rule =>
          rw [isOpen] at closedToo
          cases closedToo
  | case4 state token rest ahead calm rule isOpen first shorter others
      hypothesis =>
      have openedToo := opened token
      rw [isOpen] at openedToo
      cases isOther : openToo? token with
      | none =>
          rw [isOther] at openedToo
          cases openedToo
      | some other =>
          rw [isOther] at openedToo
          have wholeFirst : first.2.cutShort = false :=
            (runMany_reaches open? _).whole whole
          have same : other.run state.advance = first := by
            cases openedToo with
            | some persists => exact persists _ wholeFirst
          rw [runMany_opened ahead (Bool.eq_false_iff.mpr calm) isOther, same,
            hypothesis whole]

/-- A loop over statements is the same with more levels, if a statement is. -/
theorem Persists.sequence
    {item other : Rule (Option α)}
    (persists : item.Persists other)
    (closes : State → Bool) :
    (sequence closes item).Persists (sequence closes other) := by
  intro state whole
  change runSequence closes other state = runSequence closes item state
  change (runSequence closes item state).2.cutShort = false at whole
  fun_induction runSequence closes item state with
  | case1 state ended => exact runSequence_closed (.inl ended)
  | case2 state _ closed => exact runSequence_closed (.inr closed)
  | case3 state ahead opened first shorter others hypothesis =>
      have wholeFirst : first.2.cutShort = false :=
        ((State.forward_reaches state first.2).trans
          (runSequence_reaches _ _ _)).whole whole
      have same : other.run state = first := persists state wholeFirst
      rw [runSequence_opened ahead (Bool.eq_false_iff.mpr opened), same,
        hypothesis whole]

section

variable {rule other : Rule α} (persists : rule.Persists other)

include persists

theorem Persists.separated : (separated rule).Persists (separated other) := by
  refine persists.bind fun first =>
    (Persists.many fun token => ?_).bind fun others => .refl _
  unfold afterComma?
  split
  · exact .some persists
  · exact .none

theorem Persists.enclosed
    (closer : TokenKind)
    (part : Part) :
    (enclosed rule closer part).Persists (enclosed other closer part) := by
  have items : (separatedUnless rule closer).Persists
      (separatedUnless other closer) :=
    persists_bind _ fun _ => persists_ite (fun _ => .refl _) fun _ =>
      persists.separated
  exact items.bind fun _ => .refl _

theorem Persists.optionalAfter (kind : TokenKind) :
    (optionalAfter kind rule).Persists (optionalAfter kind other) :=
  persists_bind _ fun _ => persists_ite (fun _ => persists.map some) fun _ =>
    .refl _

end

end Rule

/-! ## Expressions -/

section

variable {nested other : Rule Expr} (persists : nested.Persists other)

include persists

theorem Rule.Persists.unlessRecovering :
    (unlessRecovering nested).Persists (unlessRecovering other) :=
  persists_bind _ fun _ => persists_ite (fun _ => .refl _) fun _ => persists

theorem persists_message : (message nested).Persists (message other) := by
  refine persists_bind _ fun name => persists_bind _ fun _ => ?_
  refine persists_ite (fun _ => .refl _) fun _ => persists_bind _ fun _ => ?_
  refine persists_ite (fun _ => ?_) fun _ => .refl _
  exact (persists.enclosed _ _).bind fun _ => .refl _

theorem persists_suffixForm? (kind : TokenKind) :
    Option.Rel Persists (suffixForm? nested kind) (suffixForm? other kind) := by
  cases kind with
  | leftParenthesis =>
      exact .some ((persists.enclosed _ _).bind fun _ => .refl _)
  | leftBracket => exact .some (persists.bind fun _ => .refl _)
  | colon => exact .some (persists_message persists)
  | arrow => exact .some (.refl _)
  | _ => exact .none

theorem persists_suffix? (token : Token) :
    Option.Rel Persists (suffix? nested token) (suffix? other token) := by
  have forms := persists_suffixForm? persists token.kind
  rw [suffix?, suffix?]
  generalize suffixForm? nested token.kind = form? at forms
  generalize suffixForm? other token.kind = formToo? at forms
  cases forms with
  | none => exact .none
  | some form => exact .some (form.bind fun _ => .refl _)

/-- A primary is the same with more levels, if what is nested in it is. -/
theorem persists_primary : (primary nested).Persists (primary other) := by
  refine persists_bind _ fun token => ?_
  cases literal? token with
  | some value => exact .refl _
  | none =>
      cases token.kind with
      | leftParenthesis =>
          exact persists_bind _ fun _ => persists.bind fun _ => .refl _
      | leftBrace =>
          refine persists_bind _ fun _ => persists_ite (fun _ => ?_) fun _ => ?_
          · refine persists_bind _ fun _ => persists_bind _ fun _ =>
              persists_bind _ fun _ => ?_
            exact (persists.enclosed _ _).bind fun _ => .refl _
          · exact persists_bind _ fun _ => (persists.enclosed _ _).bind fun _ =>
              .refl _
      | _ => exact .refl _

theorem persists_suffixed : (suffixed nested).Persists (suffixed other) := by
  have suffixes := Persists.many (persists_suffix? persists)
  exact (persists_primary persists).bind fun _ => suffixes.bind fun _ => .refl _

theorem persists_prefixed (operator : UnaryOperator) :
    (prefixed nested operator).Persists (prefixed other operator) :=
  persists_bind _ fun _ => persists.bind fun _ => .refl _

/-- A chain of one level is the same with more levels, if its operands are. -/
theorem Rule.Persists.chain (level : Nat) :
    (chain level nested).Persists (chain level other) := by
  refine persists.bind fun first =>
    (Persists.many fun token => ?_).bind fun _ => .refl _
  unfold rightOperand?
  split
  · split
    · exact .some (persists.bind fun _ => .refl _)
    · exact .none
  · exact .none

theorem Rule.Persists.binary : (binary nested).Persists (binary other) :=
  (((((persists.chain 6).chain 5).chain 4).chain 3).chain 2).chain 1

end

/-- Where the levels are used up, a reading is cut short or recovers already. -/
theorem persists_tooDeep (other : Rule Expr) : tooDeep.Persists other :=
  persists_of_cut (fun _ => rfl) other

/--
An operand is read alike with more levels if the rules for what follows its
operator and for its inner expressions are.
-/
theorem persists_operandOf
    {nested other : Rule Expr}
    {deeper further : UnaryOperator → Rule Expr}
    (persists : nested.Persists other)
    (persistsDeeper : ∀ operator,
      (deeper operator).Persists (further operator)) :
    (ask State.kind >>= fun kind =>
        match UnaryOperator.ofKind? kind with
        | some operator => deeper operator
        | none => suffixed nested).Persists
      (ask State.kind >>= fun kind =>
        match UnaryOperator.ofKind? kind with
        | some operator => further operator
        | none => suffixed other) := by
  refine persists_bind _ fun kind => ?_
  cases UnaryOperator.ofKind? kind with
  | some operator => exact persistsDeeper operator
  | none => exact persists_suffixed persists

/--
An operand is the same with more levels.  Without a level left
it would be cut short.
-/
theorem persists_operand
    {levels more : Nat}
    (le : levels ≤ more) :
    (operand levels).Persists (operand more) := by
  induction levels generalizing more with
  | zero =>
      cases more with
      | zero => exact .refl _
      | succ more =>
          exact persists_operandOf (persists_tooDeep _).unlessRecovering
            fun _ => persists_tooDeep _
  | succ levels hypothesis =>
      obtain ⟨more, rfl⟩ :=
        Nat.exists_eq_add_of_le' (Nat.le_trans (Nat.succ_pos levels) le)
      have inside := hypothesis (Nat.le_of_succ_le_succ le)
      exact persists_operandOf inside.binary.unlessRecovering
        (persists_prefixed inside)

/-- An expression is the same with more levels left. -/
theorem persists_expression
    {levels more : Nat}
    (le : levels ≤ more) :
    (expression levels).Persists (expression more) := by
  cases levels with
  | zero =>
      cases more with
      | zero => exact .refl _
      | succ more => exact (persists_tooDeep _).unlessRecovering
  | succ levels =>
      obtain ⟨more, rfl⟩ :=
        Nat.exists_eq_add_of_le' (Nat.le_trans (Nat.succ_pos levels) le)
      exact (persists_operand
        (Nat.le_of_succ_le_succ le)).binary.unlessRecovering

/-! ## Statements -/

section

variable
  {expression other : Rule Expr}
  (persists : expression.Persists other)
  {block otherBlock : List TokenKind → Rule Block}
  (persistsBlock : ∀ closers, (block closers).Persists (otherBlock closers))

section

include persists

theorem persists_declaration :
    (declaration expression).Persists (declaration other) := by
  have bound (place : NamePlace) :
      (binding expression place).Persists (binding other place) :=
    persists_bind _ fun _ => persists_bind _ fun _ =>
      persists_ite (fun _ => persists.bind fun _ => .refl _) fun _ => .refl _
  exact persists_bind _ fun _ => (bound _).separated.bind fun _ => .refl _

theorem persists_resultStatement :
    (resultStatement expression).Persists (resultStatement other) :=
  persists_bind _ fun _ => persists_bind _ fun _ =>
    persists_ite (fun _ => persists.bind fun _ => .refl _) fun _ => .refl _

theorem persists_printStatement :
    (printStatement expression).Persists (printStatement other) := by
  have values : (printedValues expression).Persists (printedValues other) :=
    persists_bind _ fun _ => persists_ite (fun _ => persists.separated) fun _ =>
      .refl _
  exact persists_bind _ fun _ => values.bind fun _ => .refl _

theorem persists_expressionStatement :
    (expressionStatement expression).Persists (expressionStatement other) := by
  refine persists_bind _ fun start => persists.bind fun target =>
    persists_bind _ fun _ => ?_
  refine persists_ite (fun _ => .refl _) fun _ => persists_bind _ fun kind => ?_
  cases AssignmentForm.ofKind? kind with
  | none => exact .refl _
  | some form =>
      exact persists_bind _ fun _ => persists_bind _ fun _ =>
        persists.bind fun _ => .refl _

end

theorem Rule.Persists.terminated
    {rule other : Rule Stmt}
    (persists : rule.Persists other) :
    (terminated rule).Persists (terminated other) :=
  persists.bind fun _ => .refl _

section

include persists persistsBlock

/--
A conditional is the same with more levels, if its
expressions and its blocks are.
-/
theorem persists_conditional :
    (conditional expression block).Persists (conditional other otherBlock) := by
  have arms (start : Nat) : (arm expression block start).Persists
      (arm other otherBlock start) :=
    persists.bind fun _ => persists_bind _ fun _ =>
      (persistsBlock _).bind fun _ => .refl _
  refine persists_bind _ fun word => (arms _).bind fun first => ?_
  refine (Persists.many fun token => ?_).bind fun others => ?_
  · unfold furtherArm?
    split
    · exact .some (arms _)
    · exact .none
  · exact ((persistsBlock _).optionalAfter _).bind fun _ => .refl _

theorem persists_whileLoop :
    (whileLoop expression block).Persists (whileLoop other otherBlock) := by
  refine persists_bind _ fun start => persists_bind _ fun _ =>
    persists_bind _ fun _ => ?_
  exact persists.bind fun _ => persists_bind _ fun _ =>
    (persistsBlock _).bind fun _ => .refl _

theorem persists_forLoop :
    (forLoop expression block).Persists (forLoop other otherBlock) := by
  refine persists_bind _ fun word => persists_bind _ fun counter =>
    persists_bind _ fun _ => ?_
  refine persists.bind fun first => persists_bind _ fun _ =>
    persists.bind fun last => ?_
  exact (persists.optionalAfter _).bind fun _ => (persistsBlock _).bind fun _ =>
    .refl _

omit persists in
theorem persists_routine : (routine block).Persists (routine otherBlock) := by
  rw [routine_eq, routine_eq]
  exact persists_bind _ fun _ => (persistsBlock _).bind fun _ => .refl _

/--
A statement of any form is the same with more levels, if its
expressions and its blocks are.
-/
theorem persists_statementOfForm (form : StatementForm) :
    (statementOfForm expression block form).Persists
      (statementOfForm other otherBlock form) := by
  cases form with
  | empty | strayCloser | control => exact .refl _
  | conditional => exact (persists_conditional persists persistsBlock).map some
  | whileLoop => exact (persists_whileLoop persists persistsBlock).map some
  | forLoop => exact (persists_forLoop persists persistsBlock).map some
  | routine => exact (persists_routine persistsBlock).map some
  | declaration => exact (persists_declaration persists).terminated
  | result => exact (persists_resultStatement persists).terminated
  | print => exact (persists_printStatement persists).terminated
  | expression => exact (persists_expressionStatement persists).terminated

theorem persists_statementOf :
    (statementOf expression block).Persists (statementOf other otherBlock) :=
  persists_bind _ fun _ => persists_bind _ fun form =>
    persists_statementOfForm persists persistsBlock form

end

end

theorem Rule.Persists.blockOf
    {item other : Rule (Option Stmt)}
    (persists : item.Persists other)
    (closers : List TokenKind) :
    (blockOf item closers).Persists (blockOf other closers) :=
  persists_bind _ fun _ => (persists.sequence _).bind fun _ => .refl _

/--
A statement that is read with some levels
is read in the same way with more of them.
-/
theorem persists_statement
    {levels more : Nat}
    (le : levels ≤ more) :
    (statement levels).Persists (statement more) := by
  induction levels generalizing more with
  | zero =>
      rw [statement_eq 0, statement_eq more]
      exact persists_statementOf (persists_expression le) fun _ =>
        persists_of_cut (fun _ => rfl) _
  | succ levels hypothesis =>
      obtain ⟨more, rfl⟩ :=
        Nat.exists_eq_add_of_le' (Nat.le_trans (Nat.succ_pos levels) le)
      exact persists_statementOf (persists_expression le) fun closers =>
        (hypothesis (Nat.le_of_succ_le_succ le)).blockOf closers

end Clipper.Grammar
