import Clipper.Proofs.Grammar.Body
import Clipper.Proofs.Grammar.ExpressionTogether

/-!
# Statements side by side

From states side by side with a token ahead, reading a statement does the same
in both readings.  The rules of simple statements go together before every seam;
only the semicolon after them and the compound statements ask for a seam that is
not after a semicolon.

At a semicolon behind a simple statement the second reading may have further
statements while the first one has none.  If the seam is after that semicolon,
the two differ from there on, and this is the case that another module treats.
Compound statements have their own closing words; at a seam before the head of
a routine, a missing closing word is reported on both sides, since that head
closes nothing.
-/

namespace Clipper.Grammar

open Relabelled (relabel)
open Rule

instance : Relabelled Arm where
  relabel change arm :=
    ⟨relabel change arm.start, relabel change arm.condition,
      relabel change arm.block⟩

section Values

variable {change : Relabelling}

@[simp]
theorem relabel_arm
    (start : Nat)
    (condition : Expr)
    (block : Block) :
    relabel change (Arm.mk start condition block) =
      ⟨relabel change start, relabel change condition, relabel change block⟩ :=
  rfl

@[simp]
theorem relabel_armConditional
    (reached : Nat)
    (arm : Arm)
    (negative? : Option Block) :
    relabel change (arm.conditional reached negative?) =
      (relabel change arm).conditional (relabel change reached)
        (relabel change negative?) := by
  rcases arm with ⟨start, condition, block⟩
  cases negative? <;> simp [Arm.conditional]

theorem relabel_nest
    (reached : Nat)
    (arm : Arm)
    (negative? : Option Block) :
    relabel change (arm.nest reached negative?) =
      (relabel change arm).nest (relabel change reached)
        (relabel change negative?) := by
  rw [Arm.nest, Arm.nest, ← relabel_armConditional, span_relabel_stmt,
    relabel_option, Option.map_some, relabel_block, relabel_list,
    List.map_singleton]

@[simp]
theorem condition_relabel_arm (arm : Arm) :
    (relabel change arm).condition = relabel change arm.condition :=
  rfl

@[simp]
theorem block_relabel_arm (arm : Arm) :
    (relabel change arm).block = relabel change arm.block :=
  rfl

/-- To nest the arms of a conditional commutes with relabelling. -/
@[simp]
theorem relabel_foldr_nest
    (reached : Nat)
    (arms : List Arm)
    (last? : Option Block) :
    (arms.foldr (Arm.nest reached) last?).map (relabel change) =
      (arms.map (relabel change)).foldr (Arm.nest (relabel change reached))
        (last?.map (relabel change)) := by
  induction arms with
  | nil => rfl
  | cons arm rest hypothesis =>
      rw [List.map_cons, List.foldr_cons, List.foldr_cons, ← hypothesis,
        ← relabel_option, relabel_nest, relabel_option]

end Values

namespace Seam

variable {seam : Seam} {left right : State}

/-- Where the seam is not after a semicolon, errors may be hidden. -/
theorem ready_of_noSemicolon
    (noSemicolon : seam.kind ≠ .semicolon)
    (state : State) :
    seam.Ready state :=
  fun isSemicolon => absurd isSemicolon noSemicolon

/-! ## Simple statements -/

/-- Checking a target takes no token. -/
theorem kind_checkTarget
    (target : Expr)
    (state : State) :
    ((checkTarget target).run state).2.kind = state.kind := by
  rw [checkTarget]
  split <;> rfl

section Simple

variable (beside : seam.Beside left right)

include beside

/-- Both readings take a word that is no semicolon. -/
theorem together_word_bind
    {β : Type}
    [Relabelled β]
    {next further : Token → Rule β}
    (word : left.kind ≠ .endOfFile ∧ left.kind ≠ .semicolon)
    (later :
      seam.Beside left.advance right.advance →
        (seam.Ready left → seam.Ready left.advance) →
        seam.Together (next left.current)
          (further (relabel seam.change left.current))
          left.advance right.advance) :
    seam.Together (advance >>= next) (advance >>= further) left right :=
  together_advance_bind beside (State.ahead_of_kind rfl word.1)
    (fun _ => word.2) fun beside =>
      later beside fun ready isSemicolon =>
        (State.recovering_advance left).trans (ready isSemicolon)

/-- The statements that leave or resume a loop are read together. -/
theorem together_loopControl (word : left.kind = .exit ∨ left.kind = .loop) :
    seam.Together loopControl loopControl left right := by
  have isWord : left.kind ≠ .endOfFile ∧ left.kind ≠ .semicolon := by
    obtain isExit | isLoop := word
    · rw [isExit]; decide
    · rw [isLoop]; decide
  refine together_word_bind beside isWord fun beside _ =>
    together_pure beside ?_
  rw [kind_relabel, span_relabel_token]
  split
  · rw [relabel_exit]
  · rw [relabel_loop]

theorem together_checkTarget (target : Expr) :
    seam.Together (checkTarget target)
      (checkTarget (relabel seam.change target)) left right := by
  refine together_ite (by rw [isAssignable_relabel])
    (fun _ => together_pure beside rfl) (fun _ => ?_)
  exact together_report beside rfl (span_relabel_expr target)

theorem together_standalone
    (start : Nat)
    (value : Expr) :
    seam.Together (standalone start value)
      (standalone (relabel seam.change start) (relabel seam.change value))
        left right := by
  refine together_bind (together_spanFrom beside start) fun span _ _ _ beside =>
    ?_
  exact together_pure beside (by simp)

variable {expression : Rule Expr} (always : seam.Always expression)

include always

/-- A declared name is read alike, with its first value or without. -/
theorem together_binding
    (place : NamePlace)
    (ready : seam.Ready left) :
    seam.Together (binding expression place) (binding expression place)
      left right := by
  refine together_bind (together_expectName beside place ready)
    fun name _ _ _ beside => ?_
  refine together_eat_bind beside rfl (fun _ => (by decide))
    (fun _ => Or.inr rfl) (fun _ beside => ?_)
    (fun _ => together_pure beside (by simp))
  exact together_bind (always _ _ beside) fun value _ _ _ beside =>
    together_pure beside (by simp)

/-- A declaration is read alike. -/
theorem together_declaration
    (ready : seam.Ready left)
    (word : left.kind = .localWord ∨ left.kind = .static) :
    seam.Together (declaration expression) (declaration expression)
      left right := by
  have isWord : left.kind ≠ .endOfFile ∧ left.kind ≠ .semicolon := by
    obtain isLocal | isStatic := word
    · rw [isLocal]; decide
    · rw [isStatic]; decide
  refine together_word_bind beside isWord fun beside calm => ?_
  have bindings (place : NamePlace) :
      seam.Together (separated (binding expression place))
        (separated (binding expression place)) left.advance right.advance :=
    together_separated (together_binding beside always place (calm ready))
      fun _ _ beside ready =>
        together_binding beside always place ready
  refine together_bind (bindings _) fun bindings _ _ _ beside => ?_
  refine together_bind (together_spanFrom beside _) fun span _ _ _ beside => ?_
  exact together_pure beside (by simp [Function.comp_def])

omit always in
/-- Both readings or none of them find an expression ahead. -/
theorem Beside.same_opensExpression (ready : seam.Ready left) :
    opensExpression right.kind = opensExpression left.kind :=
  beside.answer (steady rfl rfl rfl) ready

/-- A statement that returns is read alike. -/
theorem together_resultStatement
    (ready : seam.Ready left)
    (word : left.kind = .returnWord) :
    seam.Together (resultStatement expression) (resultStatement expression)
      left right := by
  have isWord : left.kind ≠ .endOfFile ∧ left.kind ≠ .semicolon := by
    rw [word]; decide
  refine together_word_bind beside isWord fun beside calm => ?_
  refine together_ask_bind
    (together_ite (by rw [beside.same_opensExpression (calm ready)])
      (fun _ => ?_) (fun _ => ?_))
  · refine together_bind (always _ _ beside) fun value _ _ _ beside => ?_
    refine together_bind (together_spanFrom beside _) fun span _ _ _ beside =>
      ?_
    exact together_pure beside (by simp)
  · refine together_bind (together_spanFrom beside _) fun span _ _ _ beside =>
      ?_
    exact together_pure beside (by simp)

theorem together_printedValues (ready : seam.Ready left) :
    seam.Together (printedValues expression) (printedValues expression)
      left right :=
  together_ask_bind (together_ite (by rw [beside.same_opensExpression ready])
    (fun _ => together_separated (always _ _ beside) fun _ _ beside _ =>
      always _ _ beside)
    (fun _ => together_pure beside rfl))

/-- A statement that prints is read alike. -/
theorem together_printStatement
    (ready : seam.Ready left)
    (word : left.kind = .question ∨ left.kind = .doubleQuestion) :
    seam.Together (printStatement expression) (printStatement expression)
      left right := by
  have isWord : left.kind ≠ .endOfFile ∧ left.kind ≠ .semicolon := by
    obtain isOne | isTwo := word
    · rw [isOne]; decide
    · rw [isTwo]; decide
  refine together_word_bind beside isWord fun beside calm => ?_
  refine together_bind (together_printedValues beside always (calm ready))
    fun values _ _ _ beside => ?_
  refine together_bind (together_spanFrom beside _) fun span _ _ _ beside => ?_
  exact together_pure beside (by simp [Function.comp_def])

/--
An assignment is read alike.  Whether its target can be assigned is the
same after relabelling.
-/
theorem together_assignment
    (start : Nat)
    (target : Expr)
    {form : AssignmentForm}
    (opens : AssignmentForm.ofKind? left.kind = some form) :
    seam.Together (assignment expression start target form)
      (assignment expression (relabel seam.change start)
        (relabel seam.change target) form)
      left right := by
  have isWord : left.kind ≠ .endOfFile ∧ left.kind ≠ .semicolon := by
    constructor
    · intro isEnd
      rw [isEnd] at opens
      cases opens
    · intro isSemicolon
      rw [isSemicolon] at opens
      cases opens
  refine together_bind (together_checkTarget beside target)
    fun _ middle _ run beside => ?_
  have same : middle.kind = left.kind := by
    rw [← kind_checkTarget target left, run]
  refine together_word_bind beside (by rwa [same]) fun beside _ => ?_
  refine together_bind (always _ _ beside) fun value _ _ _ beside => ?_
  refine together_bind (together_spanFrom beside start) fun span _ _ _ beside =>
    ?_
  refine together_pure beside ?_
  cases form <;> simp [AssignmentForm.statement]

/-- A statement that begins as an expression is read alike. -/
theorem together_expressionStatement :
    seam.Together (expressionStatement expression)
      (expressionStatement expression) left right := by
  refine together_ask_bind
    (together_bind (always _ _ beside) fun target middle _ _ after => ?_)
  rw [beside.start]
  refine together_ask_bind
    (together_ite (by rw [after.recovering]) (fun _ => ?_) (fun calm => ?_))
  · exact together_standalone after _ target
  · have same : AssignmentForm.ofKind? _ = AssignmentForm.ofKind? middle.kind :=
      after.answer (steady rfl rfl rfl) fun _ => Bool.eq_false_iff.mpr calm
    refine together_ask_bind ?_
    rw [same]
    split
    · exact together_standalone after _ target
    · next opens => exact together_assignment after always _ target opens

end Simple

/-! ## Compound statements -/

section Compound

variable (noSemicolon : seam.kind ≠ .semicolon)
    (beside : seam.Beside left right)

include noSemicolon beside

omit beside in
theorem together_terminated
    {rule : Rule Stmt}
    (both : seam.Together rule rule left right) :
    seam.Together (terminated rule) (terminated rule) left right := by
  refine together_bind both fun statement _ _ _ beside => ?_
  refine together_eat_bind beside rfl (absurd · noSemicolon)
    (absurd · noSemicolon) (fun _ beside => ?_) (fun _ => ?_)
  · exact together_pure beside rfl
  · exact together_pure beside rfl

/-- A closing word is taken on both sides, or reported as missing on both. -/
theorem together_close
    {closer : TokenKind}
    (opener : TokenKind)
    (plain : isPlain closer = true) :
    seam.Together (close closer opener) (close closer opener) left right := by
  refine together_eat_bind beside plain (absurd · noSemicolon)
    (absurd · noSemicolon)
    (fun _ beside => together_pure beside rfl) (fun _ => ?_)
  refine together_ask_bind
    (together_ite (by rw [beside.cutShort]) (fun _ => ?_) (fun _ => ?_))
  · exact together_pure beside rfl
  · exact together_reportHere beside (Or.inr rfl)

/--
The word that may stand behind a condition is eaten on both
sides or on neither.
-/
theorem together_trailingDo :
    seam.Together trailingDo trailingDo left right := by
  have sameKind : right.kind = .doWord ↔ left.kind = .doWord :=
    beside.same_kind rfl (absurd · noSemicolon)
  have same :
      right.kind = .doWord ∧ right.secondKind ≠ .whileWord ↔
        left.kind = .doWord ∧ left.secondKind ≠ .whileWord := by
    rw [sameKind]
    refine and_congr_right fun isDo => not_congr ?_
    exact beside.same_secondKind rfl (State.ahead_of_kind isDo (by decide))
      (by rw [isDo]; decide)
  refine together_ask_bind
    (together_ask_bind (together_ite same (fun isDo => ?_) (fun _ => ?_)))
  · have isWord : left.kind ≠ .endOfFile ∧ left.kind ≠ .semicolon := by
      rw [isDo.1]; decide
    exact together_word_bind beside isWord fun beside _ =>
      together_pure beside rfl
  · exact together_pure beside rfl

/--
The counter behind `NEXT` is told by its text, which
relabelling keeps up to case.
-/
theorem together_counterAgain (counter : Identifier) :
    seam.Together (counterAgain counter)
      (counterAgain (relabel seam.change counter)) left right := by
  have sameKind : right.kind = .identifier ↔ left.kind = .identifier :=
    beside.same_kind rfl (absurd · noSemicolon)
  have same :
      right.current.kind = .identifier ∧
          Source.sameIgnoringCase right.current.lexeme
            (relabel seam.change counter).name ↔
        left.current.kind = .identifier ∧
          Source.sameIgnoringCase left.current.lexeme counter.name := by
    change right.kind = .identifier ∧ _ ↔ left.kind = .identifier ∧ _
    rw [sameKind]
    refine and_congr_right fun isName => ?_
    have kind : left.current.kind = .identifier := isName
    rw [beside.current (State.ahead_of_kind isName (by decide)),
      lexeme_relabel, kind]
    exact Bool.eq_iff_iff.mp (seam.change.sameName _ _)
  refine together_ask_bind (together_ite same (fun again => ?_) (fun _ => ?_))
  · have isWord : left.kind ≠ .endOfFile ∧ left.kind ≠ .semicolon := by
      rw [State.kind, again.1]; decide
    exact together_word_bind beside isWord fun beside _ =>
      together_pure beside rfl
  · exact together_pure beside rfl

theorem together_counterSign :
    seam.Together counterSign counterSign left right := by
  refine together_eat_bind beside rfl (absurd · noSemicolon)
    (absurd · noSemicolon)
    (fun _ beside => together_pure beside rfl) (fun _ => ?_)
  refine together_eat_bind beside rfl (absurd · noSemicolon)
    (absurd · noSemicolon)
    (fun _ beside => together_pure beside rfl) (fun _ => ?_)
  exact together_fail beside (Or.inr rfl)

theorem together_closeFor (counter : Identifier) :
    seam.Together (closeFor counter) (closeFor (relabel seam.change counter))
      left right := by
  refine together_eat_bind beside rfl (absurd · noSemicolon)
    (absurd · noSemicolon)
    (fun _ beside => together_counterAgain noSemicolon beside counter)
    (fun _ => ?_)
  refine together_ask_bind
    (together_ite (by rw [beside.cutShort]) (fun _ => ?_) (fun _ => ?_))
  · exact together_pure beside rfl
  · exact together_reportHere beside (Or.inr rfl)

theorem together_parameters :
    seam.Together parameters parameters left right := by
  refine together_eat_bind beside rfl (absurd · noSemicolon)
    (absurd · noSemicolon)
    (fun _ beside => ?_) (fun _ => together_pure beside rfl)
  refine together_enclosed beside rfl (by decide) rfl (fun _ => ?_)
    fun _ _ beside ready => ?_
  · exact together_expectName beside _ (ready_of_noSemicolon noSemicolon _)
  · exact together_expectName beside _ ready

theorem together_closeRoutine :
    seam.Together closeRoutine closeRoutine left right := by
  refine together_eat_bind beside rfl (absurd · noSemicolon)
    (absurd · noSemicolon)
    (fun _ beside => together_pure beside rfl) (fun _ => ?_)
  exact together_eat_bind beside rfl (absurd · noSemicolon)
    (absurd · noSemicolon)
    (fun _ beside => together_pure beside rfl)
    (fun _ => together_pure beside rfl)

/-- A closing word out of place is reported and taken on both sides. -/
theorem together_strayCloser (ahead : left.rest ≠ []) :
    seam.Together strayCloser strayCloser left right := by
  have same :
      Cause.unexpected right.kind =
        relabel seam.change (Cause.unexpected left.kind) := by
    rw [beside.kind_of_ahead ahead]
    rfl
  refine together_ask_bind
    (together_bind (together_reportHere beside (Or.inr same)) ?_)
  rintro _ middle middle' run after
  obtain ⟨-, rfl⟩ := Prod.mk.inj run
  exact together_advance_bind after ahead (absurd · noSemicolon) fun beside =>
    together_pure beside rfl

variable {expression : Rule Expr} {block : List TokenKind → Rule Block}
variable (always : seam.Always expression)
    (alwaysBlock : ∀ closers, seam.Always (block closers))

include always alwaysBlock

/--
The arms of a conditional are read together if their
conditions and their blocks are.
-/
theorem together_arm (start : Nat) :
    seam.Together (arm expression block start)
      (arm expression block (relabel seam.change start))
      left right := by
  refine together_bind (always _ _ beside) fun condition _ _ _ beside => ?_
  have sameThen := beside.same_kind (show isPlain .thenWord = true from rfl)
      (absurd · noSemicolon)
  refine together_bind
    (together_eat beside sameThen (by decide) fun _ => (by decide))
      fun _ _ _ _ beside => ?_
  refine together_bind (alwaysBlock _ _ _ beside) fun body _ _ _ beside => ?_
  exact together_pure beside rfl

omit beside in
/--
On both sides of a seam a further arm is opened by the same words, and its
rules read together.
-/
theorem opensAlike_furtherArm? :
    seam.OpensAlike (furtherArm? expression block)
      (furtherArm? expression block) where
  closed token none := by
    rw [furtherArm?] at none
    split at none
    · cases none
    · next noElseIf => exact if_neg noElseIf
  opened token rule opened := by
    rw [furtherArm?] at opened
    split at opened
    · next isElseIf =>
        cases opened
        exact ⟨by rw [isElseIf]; decide, _, if_pos isElseIf, fun _ _ beside _ =>
          together_arm noSemicolon beside always alwaysBlock _⟩
    · cases opened
  noHead token head := by
    refine if_neg fun isElseIf => ?_
    rw [isElseIf] at head
    cases head

/-- A conditional is read alike, given that its expressions and blocks are. -/
theorem together_conditional (word : left.kind = .ifWord) :
    seam.Together (conditional expression block) (conditional expression block)
      left right := by
  have isWord : left.kind ≠ .endOfFile ∧ left.kind ≠ .semicolon := by
    rw [word]; decide
  refine together_word_bind beside isWord fun beside _ => ?_
  refine together_bind (together_arm noSemicolon beside always alwaysBlock _)
    fun first _ _ _ beside => ?_
  refine together_bind
    (together_many (opensAlike_furtherArm? noSemicolon always alwaysBlock)
      beside)
    fun others _ _ _ beside => ?_
  have ready := ready_of_noSemicolon noSemicolon
  refine together_bind
    (together_optionalAfter beside rfl (by decide) (ready _)
      (alwaysBlock _ _ _))
    fun last? middle _ _ beside => ?_
  refine together_ask_bind ?_
  rw [beside.reached]
  refine together_bind (together_close noSemicolon beside _ rfl)
    fun _ _ _ _ beside => ?_
  refine together_bind (together_spanFrom beside _) fun span _ _ _ beside => ?_
  exact together_pure beside (by simp [← span_relabel_stmt])

/-- A loop with a condition is read alike. -/
theorem together_whileLoop
    (words : left.kind = .whileWord ∨ left.kind = .doWord ∧
      left.secondKind = .whileWord) :
    seam.Together (whileLoop expression block) (whileLoop expression block)
      left right := by
  have sameDo := beside.same_kind (show isPlain .doWord = true from rfl)
      (absurd · noSemicolon)
  refine together_ask_bind
    (together_bind (together_eat beside sameDo (by decide) fun _ => (by decide))
      ?_)
  intro _ middle _ run after
  have word := kind_afterDo words
  rw [run] at word
  have isWord : middle.kind ≠ .endOfFile ∧ middle.kind ≠ .semicolon := by
    rw [word]; decide
  rw [beside.start]
  refine together_word_bind after isWord fun beside _ => ?_
  refine together_bind (always _ _ beside) fun condition _ _ _ beside => ?_
  refine together_bind (together_trailingDo noSemicolon beside)
    fun _ _ _ _ beside => ?_
  refine together_bind (alwaysBlock _ _ _ beside) fun body _ _ _ beside => ?_
  refine together_bind (together_close noSemicolon beside _ rfl)
    fun _ _ _ _ beside => ?_
  refine together_bind (together_spanFrom beside _) fun span _ _ _ beside => ?_
  exact together_pure beside (by simp)

/-- A counting loop is read alike. -/
theorem together_forLoop (word : left.kind = .forWord) :
    seam.Together (forLoop expression block) (forLoop expression block)
      left right := by
  have isWord : left.kind ≠ .endOfFile ∧ left.kind ≠ .semicolon := by
    rw [word]; decide
  refine together_word_bind beside isWord fun beside _ => ?_
  refine together_bind
    (together_expectName beside _ (ready_of_noSemicolon noSemicolon _))
    fun counter _ _ _ beside => ?_
  refine together_bind (together_counterSign noSemicolon beside)
    fun _ _ _ _ beside => ?_
  refine together_bind (always _ _ beside) fun first _ _ _ beside => ?_
  refine together_bind
    (together_expect beside rfl (by decide) (absurd · noSemicolon))
      fun _ _ _ _ beside => ?_
  refine together_bind (always _ _ beside) fun last _ _ _ beside => ?_
  have ready := ready_of_noSemicolon noSemicolon
  refine together_bind
    (together_optionalAfter beside rfl (by decide) (ready _) (always _ _))
    fun step? _ _ _ beside => ?_
  refine together_bind (alwaysBlock _ _ _ beside) fun body _ _ _ beside => ?_
  refine together_bind (together_closeFor noSemicolon beside counter)
    fun _ _ _ _ beside => ?_
  refine together_bind (together_spanFrom beside _) fun span _ _ _ beside => ?_
  refine together_pure beside ?_
  cases step? <;> simp

omit always in
/-- A routine is read alike. -/
theorem together_routine (opens : opensRoutine left.rest = true) :
    seam.Together (routine block) (routine block) left right := by
  have ahead := ahead_of_opensRoutine opens
  have sameStatic : right.kind = .static ↔ left.kind = .static := by
    rw [beside.kind_of_ahead ahead]
  refine together_ask_bind
    (together_bind (together_eat beside sameStatic (by decide) fun _ =>
      (by decide)) ?_)
  intro isStatic middle _ run after
  have word := isRoutineWord_afterStatic opens
  rw [run] at word
  have isWord : middle.kind ≠ .endOfFile ∧ middle.kind ≠ .semicolon := by
    constructor
    · intro isEnd
      rw [isEnd] at word
      cases word
    · intro isSemicolon
      rw [isSemicolon] at word
      cases word
  rw [beside.start]
  refine together_word_bind after isWord fun beside _ => ?_
  refine together_bind
    (together_expectName beside _ (ready_of_noSemicolon noSemicolon _))
    fun name _ _ _ beside => ?_
  refine together_bind (together_parameters noSemicolon beside)
    fun parameters _ _ _ beside => ?_
  refine together_bind (alwaysBlock _ _ _ beside) fun body _ _ _ beside => ?_
  refine together_bind (together_closeRoutine noSemicolon beside)
    fun _ _ _ _ beside => ?_
  refine together_bind (together_spanFrom beside _) fun span _ _ _ beside => ?_
  exact together_pure beside (by simp [Function.comp_def])

end Compound

/-! ## Statements and blocks -/

/-- With a token ahead, both states begin a statement of the same form. -/
theorem Beside.form
    (beside : seam.Beside left right)
    (ahead : left.rest ≠ []) :
    StatementForm.of right = StatementForm.of left := by
  rw [StatementForm.of, StatementForm.of, beside.kind_of_ahead ahead,
    beside.opensRoutine_rest ahead]
  cases kind : left.kind with
  | doWord =>
      have same : right.secondKind = .whileWord ↔
          left.secondKind = .whileWord :=
        beside.same_secondKind rfl ahead (by rw [kind]; decide)
      exact if_congr same rfl rfl
  | _ => rfl

/--
A simple statement that is not empty is one that a
semicolon may end, and the rule for what is before the
semicolon goes together with itself before every seam.
-/
theorem together_beforeSemicolon
    {expression : Rule Expr}
    (block : List TokenKind → Rule Block)
    (always : seam.Always expression)
    {form : StatementForm}
    (simple : form.isSimple = true)
    (notEmpty : form ≠ .empty)
    (beside : seam.Beside left right)
    (ready : seam.Ready left)
    (atWord : form.Ahead left) :
    ∃ rule, statementOfForm expression block form = terminated rule ∧
      seam.Together rule rule left right := by
  cases form with
  | declaration =>
      exact ⟨_, rfl, together_declaration beside always ready atWord⟩
  | result =>
      exact ⟨_, rfl, together_resultStatement beside always ready atWord⟩
  | control => exact ⟨_, rfl, together_loopControl beside atWord⟩
  | print => exact ⟨_, rfl, together_printStatement beside always ready atWord⟩
  | expression => exact ⟨_, rfl, together_expressionStatement beside always⟩
  | empty => exact absurd rfl notEmpty
  | strayCloser | conditional | whileLoop | forLoop | routine => cases simple

section Forms

variable {expression : Rule Expr} {block : List TokenKind → Rule Block}
variable (noSemicolon : seam.kind ≠ .semicolon)
variable (always : seam.Always expression)
    (alwaysBlock : ∀ closers, seam.Always (block closers))
variable (beside : seam.Beside left right) (ahead : left.rest ≠ [])

include noSemicolon always alwaysBlock beside ahead

/--
A statement of any form is read alike.  The cases are the forms, which the
first tokens tell on both sides.
-/
theorem together_statementOfForm
    {form : StatementForm}
    (atWord : form.Ahead left) :
    seam.Together (statementOfForm expression block form)
      (statementOfForm expression block form)
      left right := by
  have some {rule : Rule Stmt} (both : seam.Together rule rule left right) :
      seam.Together (some <$> rule) (some <$> rule) left right :=
    together_map both fun _ => rfl
  have ended (simple : form.isSimple = true) (notEmpty : form ≠ .empty) :
      seam.Together (statementOfForm expression block form)
        (statementOfForm expression block form)
        left right := by
    obtain ⟨rule, same, both⟩ :=
      together_beforeSemicolon block always simple notEmpty beside
        (ready_of_noSemicolon noSemicolon left) atWord
    rw [same]
    exact together_terminated noSemicolon both
  cases form with
  | empty =>
      refine together_advance_bind beside ahead (absurd · noSemicolon)
        fun beside => ?_
      exact together_pure beside rfl
  | strayCloser => exact together_strayCloser noSemicolon beside ahead
  | conditional =>
      exact some (together_conditional noSemicolon beside always
        alwaysBlock atWord)
  | whileLoop =>
      exact some (together_whileLoop noSemicolon beside always
        alwaysBlock atWord)
  | forLoop =>
      exact some (together_forLoop noSemicolon beside always alwaysBlock atWord)
  | routine =>
      exact some (together_routine noSemicolon beside alwaysBlock atWord)
  | declaration | result | control | print | expression =>
      exact ended rfl (by decide)

theorem together_statementOf :
    seam.Together (statementOf expression block) (statementOf expression block)
      left right := by
  refine together_recovered_bind beside (absurd · noSemicolon) fun beside =>
    together_ask_bind ?_
  rw [beside.form ahead]
  exact together_statementOfForm noSemicolon always alwaysBlock beside ahead
    (StatementForm.ahead_of _)

end Forms

theorem always_blockTooDeep : seam.Always blockTooDeep := by
  intro left right beside
  refine together_ask_bind
    (together_bind (together_cutOff beside) fun _ _ _ _ after => ?_)
  exact together_pure after (by rw [beside.start]; simp)

/-- A block ends at the seam or before it. -/
theorem always_blockOf
    {statement : Rule (Option Stmt)}
    (noSemicolon : seam.kind ≠ .semicolon)
    (each :
      ∀ left right, seam.Beside left right → left.rest ≠ [] →
        seam.Together statement statement left right)
    (closers : List TokenKind) :
    seam.Always (blockOf statement closers) := by
  intro left right beside
  have alike (left right : State) (beside : seam.Beside left right)
      (ahead : left.rest ≠ []) :
      endsBlock closers right = endsBlock closers left := by
    rw [endsBlock, endsBlock, beside.kind_of_ahead ahead,
      beside.opensRoutine_rest ahead]
  have beyond (right : State) (atSeam : right.rest = seam.tail) :
      right.rest = [] ∨ endsBlock closers right = true := by
    have fits := seam.fits
    rw [endsBlock, Bool.or_eq_true, atSeam]
    cases kind : seam.kind with
    | ending =>
        rw [kind] at fits
        exact Or.inl fits
    | routine =>
        rw [kind] at fits
        exact Or.inr (Or.inr fits)
    | semicolon => exact absurd kind noSemicolon
  refine together_ask_bind ?_
  refine together_bind (together_sequence noSemicolon alike beyond each beside)
    fun statements _ _ _ after => ?_
  refine together_recovered_bind after (absurd · noSemicolon) fun after => ?_
  rw [beside.start]
  refine together_bind (together_spanFrom after _) fun span _ _ _ after => ?_
  exact together_pure after (by simp [Function.comp_def])

/-- With a token ahead, both readings read the same statement. -/
theorem together_statement
    (noSemicolon : seam.kind ≠ .semicolon)
    (levels : Nat)
    (left right : State)
    (beside : seam.Beside left right)
    (ahead : left.rest ≠ []) :
    seam.Together (statement levels) (statement levels) left right := by
  induction levels generalizing left right with
  | zero =>
      exact together_statementOf noSemicolon (always_expression 0)
        (fun _ => always_blockTooDeep) beside ahead
  | succ levels hypothesis =>
      exact together_statementOf noSemicolon (always_expression (levels + 1))
        (always_blockOf noSemicolon hypothesis) beside ahead

end Seam

end Clipper.Grammar
