import Clipper.Grammar.Program
import Clipper.Proofs.Grammar.Reads

/-!
# The course of a reading

What is asked of a reading as a whole is often a relation between the state
before a part of it and the state behind.  A reading does few things to its
state, and an expression fewer still: it takes tokens, reports an invalid token
and takes it, fails, and cuts the reading short.  A relation that all of these
are in, and that can be followed from one to the next, is followed by every
rule.

While a reading recovers it reads no expression.  So the parts of an expression
are read from steady states only, and no invalid token is reported, nor is the
reading cut short in an expression, while it recovers.

There are two judgements: a rule goes along a relation from every state, or
from every steady state only, where no recovery is under way.  The second is
enough for the parts of an expression.  For statements there is a third one,
of rules that take a token.  The relation stands in a structure with one field
for each move, so a use of this module has to check these fields and nothing
about the grammar.
-/

namespace Clipper.Grammar

open Rule

/-- The lexeme of the invalid token that a cause speaks of. -/
def Cause.invalidLexeme? : Cause → Option String
  | invalidToken lexeme => some lexeme
  | _ => none

/-- Whether a cause is that something else had to stand at the token ahead. -/
def Cause.isExpectation : Cause → Bool
  | expectedExpression _ | expectedName _ | expectedToken .. => true
  | _ => false

theorem Cause.invalidLexeme?_of_isExpectation
    {cause : Cause}
    (expects : cause.isExpectation = true) :
    cause.invalidLexeme? = none := by
  cases cause with
  | invalidToken => cases expects
  | _ => rfl

/--
Whether a cause is that a word has no place
here, or that a closing word is missing.
-/
def Cause.isMisplacement : Cause → Bool
  | unexpected _ | unclosed .. => true
  | _ => false

theorem Cause.invalidLexeme?_of_isMisplacement
    {cause : Cause}
    (misplaced : cause.isMisplacement = true) :
    cause.invalidLexeme? = none := by
  cases cause with
  | invalidToken => cases misplaced
  | _ => rfl

/--
A relation that everything keeps to which an
expression does to the state of a reading.
-/
structure Course (relation : State → State → Prop) : Prop where
  /-- To do nothing. -/
  refl : ∀ state, relation state state
  /-- To do one thing after another. -/
  trans : ∀ {first second third}, relation first second →
    relation second third →
    relation first third
  /-- To take the token ahead. -/
  advance : ∀ state : State, relation state state.advance
  /-- To report an error token and to take it, unless the reading recovers. -/
  invalidToken : ∀ state : State, state.recovering = false →
    state.kind = .error →
    relation state (state.addHere (.invalidToken state.current.lexeme)).advance
  /--
  To report that something else was expected,
  and to skip tokens up to a boundary.
  -/
  fail : ∀ (state : State) (cause : Cause), cause.isExpectation = true →
    relation state (state.fail cause)
  /-- To drop the tokens ahead, unless the reading recovers. -/
  cutOff : ∀ state : State, state.recovering = false →
    relation state state.cutOff

/--
A relation that everything keeps to which statements do to the state of a
reading, but for the report of a target that cannot be assigned.
-/
structure StatementCourse (relation : State → State → Prop) :
    Prop extends Course relation where
  /-- To report a misplaced or missing word at the token ahead and go on. -/
  reportHere : ∀ (state : State) (cause : Cause), cause.isMisplacement = true →
    relation state (state.addHere cause)
  /-- To drop the tokens ahead at a block, also while the reading recovers. -/
  cutBlock : ∀ state : State, relation state state.cutOff
  /-- To report errors again. -/
  recovered : ∀ state : State, relation state { state with recovering := false }

namespace Rule

variable {α β : Type} {relation : State → State → Prop}

/-- From every state, the rule leads to a state in relation to it. -/
def Along
    (relation : State → State → Prop)
    (rule : Rule α) :
    Prop :=
  ∀ state : State, relation state (rule.run state).2

/--
From every state that does not recover, the
rule leads to a state in relation to it.
-/
def AlongSteady
    (relation : State → State → Prop)
    (rule : Rule α) :
    Prop :=
  ∀ state : State, state.recovering = false → relation state (rule.run state).2

/--
From this state the rule first takes the token ahead, and leads on from there.
-/
def TakesAt
    (relation : State → State → Prop)
    (state : State)
    (rule : Rule α) :
    Prop :=
  relation state.advance (rule.run state).2

theorem Along.steady
    {rule : Rule α}
    (along : rule.Along relation) :
    rule.AlongSteady relation :=
  fun state _ => along state

theorem takesAt_advance_bind
    {next : Token → Rule β}
    (later : ∀ token, (next token).Along relation)
    (state : State) :
    (advance >>= next).TakesAt relation state :=
  later _ _

theorem takesAt_ask_bind
    {state : State}
    {question : State → α}
    {next : α → Rule β}
    (takes : (next (question state)).TakesAt relation state) :
    (ask question >>= next).TakesAt relation state :=
  takes

/-- A question and what its answer asks for. -/
theorem steady_ask_bind
    {answer : Type}
    {question : State → answer}
    {next : answer → Rule α}
    (along : ∀ value, (next value).AlongSteady relation) :
    (ask question >>= next).AlongSteady relation :=
  fun state steady => along (question state) state steady

section

variable (course : Course relation)

include course

theorem Along.bind
    {rule : Rule α}
    {next : α → Rule β}
    (first : rule.Along relation)
    (second : ∀ value, (next value).Along relation) :
    (rule >>= next).Along relation :=
  fun state => course.trans (first state) (second _ _)

/-- What follows may be read while the reading recovers. -/
theorem AlongSteady.bind
    {rule : Rule α}
    {next : α → Rule β}
    (first : rule.AlongSteady relation)
    (second : ∀ value, (next value).Along relation) :
    (rule >>= next).AlongSteady relation :=
  fun state steady => course.trans (first state steady) (second _ _)

/-- Taking a token does not begin a recovery. -/
theorem steady_advance_bind
    {next : Token → Rule β}
    (second : ∀ token, (next token).AlongSteady relation) :
    (advance >>= next).AlongSteady relation :=
  fun state steady =>
    course.trans (course.advance state)
      (second _ state.advance (state.recovering_advance.trans steady))

theorem TakesAt.bind
    {state : State}
    {rule : Rule α}
    {next : α → Rule β}
    (takes : rule.TakesAt relation state)
    (later : ∀ value, (next value).Along relation) :
    (rule >>= next).TakesAt relation state :=
  course.trans takes (later _ _)

theorem along_of_takesAt
    {rule : Rule α}
    (takes : ∀ state, rule.TakesAt relation state) :
    rule.Along relation :=
  fun state => course.trans (course.advance state) (takes state)

theorem along_pure (value : α) : (pure value : Rule α).Along relation :=
  course.refl

theorem along_ask (question : State → α) : (ask question).Along relation :=
  course.refl

theorem Along.map
    {rule : Rule α}
    (along : rule.Along relation)
    (change : α → β) :
    (change <$> rule).Along relation :=
  along.bind course fun _ => along_pure course _

omit course in
/-- A choice by a test goes along the relation if both rules do. -/
theorem along_ite
    {condition : Prop}
    [Decidable condition]
    {first second : Rule α}
    (yes : first.Along relation)
    (no : second.Along relation) :
    (if condition then first else second).Along relation := by
  split
  · exact yes
  · exact no

/-- A question and what its answer asks for. -/
theorem along_ask_bind
    {question : State → α}
    {next : α → Rule β}
    (along : ∀ value, (next value).Along relation) :
    (ask question >>= next).Along relation :=
  (along_ask course question).bind course along

theorem along_advance : advance.Along relation :=
  course.advance

theorem along_eat (kind : TokenKind) : (eat kind).Along relation := by
  intro state
  rw [eat]
  dsimp only
  split
  · exact course.advance state
  · exact course.refl state

/-- A token that may stand first, and what takes the token behind it. -/
theorem takesAt_eat_bind
    {kind : TokenKind}
    {next : Bool → Rule β}
    (later : ∀ value state, (next value).TakesAt relation state)
    (state : State) :
    (eat kind >>= next).TakesAt relation state := by
  rw [TakesAt, run_bind, eat]
  dsimp only
  split
  · exact along_of_takesAt course (later true) state.advance
  · exact later false state

theorem along_fail
    {cause : Cause}
    (expects : cause.isExpectation = true) :
    (fail cause).Along relation :=
  fun state => course.fail state cause expects

theorem steady_cutOff : cutOff.AlongSteady relation :=
  course.cutOff

theorem along_expect
    (kind : TokenKind)
    (part : Part) :
    (expect kind part).Along relation :=
  (along_eat course kind).bind course fun _ =>
    along_ite (along_pure course ()) (along_fail course rfl)

theorem along_expectName (place : NamePlace) :
    (expectName place).Along relation := by
  refine along_ask_bind course fun _ => along_ite ?_ ?_
  · exact (along_advance course).bind course fun _ => along_pure course _
  · exact (along_fail course rfl).bind course fun _ => along_pure course _

theorem Along.optionalAfter
    {rule : Rule α}
    (along : rule.Along relation)
    (kind : TokenKind) :
    (optionalAfter kind rule).Along relation :=
  (along_eat course kind).bind course fun _ =>
    along_ite (along.map course some) (along_pure course none)

/--
A loop goes along the relation if each of its rounds does from steady states:
before a round the loop has made sure that no recovery is under way.
-/
theorem along_many
    {open? : Token → Option (Rule α)}
    (opened : ∀ token rule, open? token = some rule →
      rule.AlongSteady relation) :
    (many open?).Along relation := by
  intro state
  change relation state (runMany open? state).2
  fun_induction runMany open? state with
  | case1 | case2 | case3 => exact course.refl _
  | case4 state token rest ahead calm rule isOpened first shorter others
      hypothesis =>
      have steady : state.advance.recovering = false :=
        state.recovering_advance.trans (Bool.eq_false_iff.mpr calm)
      exact course.trans
        (course.trans (course.advance state)
          (opened token rule isOpened _ steady)) hypothesis

/-- A list goes along the relation if its items do. -/
theorem Along.separated
    {item : Rule α}
    (along : item.Along relation) :
    (separated item).Along relation := by
  refine along.bind course fun _ => (along_many course ?_).bind course fun _ =>
    along_pure course _
  intro token rule opened
  rw [afterComma?] at opened
  split at opened
  · cases opened
    exact along.steady
  · cases opened

/-- A part between two tokens goes along the relation if the part does. -/
theorem Along.enclosed
    {item : Rule α}
    (along : item.Along relation)
    (closer : TokenKind)
    (part : Part) :
    (enclosed item closer part).Along relation := by
  have items : (separatedUnless item closer).Along relation :=
    along_ask_bind course fun _ =>
      along_ite (along_pure course []) (along.separated course)
  exact items.bind course fun _ =>
    (along_expect course closer part).bind course fun _ => along_pure course _

/-- A loop reads its items only where tokens are ahead. -/
theorem along_sequence
    {item : Rule (Option α)}
    (along : ∀ state : State, state.rest ≠ [] →
      relation state (item.run state).2)
    (closes : State → Bool) :
    (sequence closes item).Along relation := by
  intro state
  change relation state (runSequence closes item state).2
  fun_induction runSequence closes item state with
  | case1 | case2 => exact course.refl _
  | case3 state ended opened first shorter others hypothesis =>
      have forwards : relation first.2 (state.forward first.2) := by
        rw [State.forward]
        split
        · exact course.advance first.2
        · exact course.refl first.2
      exact course.trans (course.trans (along state ended) forwards) hypothesis

theorem Along.sequence
    {item : Rule (Option α)}
    (along : item.Along relation)
    (closes : State → Bool) :
    (sequence closes item).Along relation :=
  along_sequence course (fun state _ => along state) closes

end

end Rule

variable {relation : State → State → Prop}

/-! ## Expressions -/

section

variable (course : Course relation)

include course

theorem along_placeholderHere : placeholderHere.Along relation :=
  along_ask course _

theorem steady_tooDeep : tooDeep.AlongSteady relation :=
  (steady_cutOff course).bind course fun _ => along_placeholderHere course

/--
Where nothing is read while recovering, the rule is run from steady states only.
-/
theorem Rule.AlongSteady.unlessRecovering
    {rule : Rule Expr}
    (along : rule.AlongSteady relation) :
    (unlessRecovering rule).Along relation := by
  intro state
  change relation state
    ((if state.recovering then placeholderHere else rule).run state).2
  cases steady : state.recovering with
  | true => exact along_placeholderHere course state
  | false => exact along state steady

theorem along_noExpression : noExpression.Along relation :=
  along_ask_bind course fun _ => (along_fail course rfl).bind course fun _ =>
    along_pure course _

variable {nested : Rule Expr} (along : nested.Along relation)

include along

theorem along_message : (message nested).Along relation := by
  refine (along_expectName course .colon).bind course fun _ =>
    along_ask_bind course fun _ => ?_
  refine along_ite (along_pure course _)
    ((along_eat course _).bind course fun _ => ?_)
  refine along_ite ?_ (along_pure course _)
  exact (along.enclosed course _ _).bind course fun _ => along_pure course _

/-- A suffix goes along the relation, whichever token opens it. -/
theorem along_suffix?
    (token : Token)
    (rule : Rule Suffix)
    (opened : suffix? nested token = some rule) :
    rule.Along relation := by
  obtain ⟨form, formOpened, rfl⟩ := Option.map_eq_some_iff.mp opened
  suffices inner : form.Along relation from
    inner.bind course fun _ => along_ask_bind course fun _ =>
      along_pure course _
  unfold suffixForm? at formOpened
  split at formOpened
  · cases formOpened
    exact (along.enclosed course _ _).bind course fun _ => along_pure course _
  · cases formOpened
    exact along.bind course fun _ =>
      (along_expect course _ _).bind course fun _ => along_pure course _
  · cases formOpened
    exact along_message course along
  · cases formOpened
    exact (along_expectName course _).bind course fun _ => along_pure course _
  · cases formOpened

theorem takesAt_parenthesized (state : State) :
    (parenthesized nested).TakesAt relation state := by
  refine takesAt_advance_bind (fun _ => along.bind course fun _ => ?_) state
  refine (along_expect course _ _).bind course fun _ => ?_
  exact along_ask_bind course fun _ => along_pure course _

theorem takesAt_arrayLiteral (state : State) :
    (arrayLiteral nested).TakesAt relation state := by
  refine takesAt_advance_bind
    (fun _ => (along.enclosed course _ _).bind course fun _ => ?_) state
  exact along_ask_bind course fun _ => along_pure course _

theorem takesAt_codeBlock (state : State) :
    (codeBlock nested).TakesAt relation state := by
  refine takesAt_advance_bind
    (fun _ => (along_advance course).bind course fun _ => ?_) state
  refine ((along_expectName course _).enclosed course _ _).bind course fun _ =>
    ?_
  refine (along.enclosed course _ _).bind course fun _ => ?_
  exact along_ask_bind course fun _ => along_pure course _

/--
A primary goes along the relation from steady states.  It is the one rule that
reports an invalid token.
-/
theorem steady_primary : (primary nested).AlongSteady relation := by
  intro state steady
  unfold primary
  rw [run_bind]
  dsimp only [ask]
  split
  · exact (along_advance course).bind course
      (fun _ => along_pure course _) state
  · split
    · exact (along_advance course).bind course
        (fun _ => along_pure course _) state
    · exact along_of_takesAt course (takesAt_parenthesized course along) state
    · refine along_ask_bind course (fun _ => along_ite ?_ ?_) state
      · exact along_of_takesAt course (takesAt_codeBlock course along)
      · exact along_of_takesAt course (takesAt_arrayLiteral course along)
    · next error => exact course.invalidToken state steady error
    · exact along_noExpression course state

theorem steady_suffixed : (suffixed nested).AlongSteady relation := by
  have suffixes : (many (suffix? nested)).Along relation :=
    along_many course fun token rule opened =>
      (along_suffix? course along token rule opened).steady
  exact (steady_primary course along).bind course fun _ =>
    suffixes.bind course fun _ => along_pure course _

end

/-! ## Operators -/

section

variable (course : Course relation)

include course

variable {nested : Rule Expr} (along : nested.AlongSteady relation)

include along

theorem steady_prefixed (operator : UnaryOperator) :
    (prefixed nested operator).AlongSteady relation := by
  refine steady_advance_bind course fun _ => along.bind course fun _ => ?_
  exact along_ask_bind course fun _ => along_pure course _

/-- The right operands of a level go along the relation. -/
theorem along_rightOperands (level : Nat) :
    (many (rightOperand? level nested)).Along relation := by
  refine along_many course fun token rule opened => ?_
  unfold rightOperand? at opened
  split at opened
  · split at opened
    · cases opened
      exact along.bind course fun _ => along_pure course _
    · cases opened
  · cases opened

theorem Rule.AlongSteady.chain (level : Nat) :
    (chain level nested).AlongSteady relation :=
  along.bind course fun _ =>
    (along_rightOperands course along level).bind course fun _ =>
      along_pure course _

theorem Rule.AlongSteady.binary : (binary nested).AlongSteady relation :=
  ((((((along.chain course 6).chain course 5).chain course 4).chain course
    3).chain course 2).chain
    course 1)

omit along in
/--
An operand goes along the relation from steady states, with any number of
levels left.  Without any, the reading is cut short.
-/
theorem steady_operand (levels : Nat) :
    (operand levels).AlongSteady relation := by
  induction levels with
  | zero =>
      refine steady_ask_bind fun kind => ?_
      cases UnaryOperator.ofKind? kind with
      | some _ => exact steady_tooDeep course
      | none =>
          exact steady_suffixed course
            ((steady_tooDeep course).unlessRecovering course)
  | succ levels hypothesis =>
      refine steady_ask_bind fun kind => ?_
      cases UnaryOperator.ofKind? kind with
      | some operator => exact steady_prefixed course hypothesis operator
      | none =>
          exact steady_suffixed course
            ((hypothesis.binary course).unlessRecovering course)

omit along in
/-- An expression keeps to every course. -/
theorem along_expression (levels : Nat) :
    (expression levels).Along relation := by
  cases levels with
  | zero => exact (steady_tooDeep course).unlessRecovering course
  | succ levels =>
      exact ((steady_operand course levels).binary course).unlessRecovering
        course

end

/-! ## Simple statements -/

section

variable (course : Course relation)

include course

theorem along_standalone
    (start : Nat)
    (value : Expr) :
    (standalone start value).Along relation :=
  along_ask_bind course fun _ => along_pure course _

theorem takesAt_loopControl (state : State) :
    loopControl.TakesAt relation state :=
  takesAt_advance_bind (fun _ => along_pure course _) state

theorem along_loopControl : loopControl.Along relation :=
  along_of_takesAt course (takesAt_loopControl course)

theorem Rule.Along.terminated
    {rule : Rule Stmt}
    (along : rule.Along relation) :
    (terminated rule).Along relation :=
  along.bind course fun _ => (along_eat course _).bind course fun _ =>
    along_pure course _

theorem along_trailingDo : trailingDo.Along relation := by
  refine along_ask_bind course fun _ => along_ask_bind course fun _ => ?_
  refine along_ite ?_ (along_pure course ())
  exact (along_advance course).bind course fun _ => along_pure course ()

theorem along_counterAgain (counter : Identifier) :
    (counterAgain counter).Along relation := by
  refine along_ask_bind course fun _ => along_ite ?_ (along_pure course ())
  exact (along_advance course).bind course fun _ => along_pure course ()

theorem along_counterSign : counterSign.Along relation := by
  refine (along_eat course _).bind course fun _ =>
    along_ite (along_pure course ()) ?_
  refine (along_eat course _).bind course fun _ =>
    along_ite (along_pure course ()) ?_
  exact along_fail course rfl

theorem along_parameters : parameters.Along relation :=
  (along_eat course _).bind course fun _ =>
    along_ite ((along_expectName course _).enclosed course _ _)
      (along_pure course [])

theorem along_closeRoutine : closeRoutine.Along relation := by
  refine (along_eat course _).bind course fun _ =>
    along_ite (along_pure course ()) ?_
  exact (along_eat course _).bind course fun _ => along_pure course ()

variable {expression : Rule Expr} (along : expression.Along relation)

include along

theorem along_binding (place : NamePlace) :
    (binding expression place).Along relation := by
  refine (along_expectName course place).bind course fun _ => ?_
  refine (along_eat course _).bind course fun _ =>
    along_ite ?_ (along_pure course _)
  exact along.bind course fun _ => along_pure course _

theorem takesAt_declaration (state : State) :
    (declaration expression).TakesAt relation state := by
  refine takesAt_advance_bind (fun _ => ?_) state
  refine ((along_binding course along _).separated course).bind course fun _ =>
    ?_
  exact along_ask_bind course fun _ => along_pure course _

theorem along_declaration : (declaration expression).Along relation :=
  along_of_takesAt course (takesAt_declaration course along)

theorem takesAt_resultStatement (state : State) :
    (resultStatement expression).TakesAt relation state := by
  refine takesAt_advance_bind (fun _ => along_ask_bind course fun _ => ?_) state
  refine along_ite (along.bind course fun _ => ?_) ?_
  · exact along_ask_bind course fun _ => along_pure course _
  · exact along_ask_bind course fun _ => along_pure course _

theorem along_resultStatement : (resultStatement expression).Along relation :=
  along_of_takesAt course (takesAt_resultStatement course along)

theorem takesAt_printStatement (state : State) :
    (printStatement expression).TakesAt relation state := by
  have values : (printedValues expression).Along relation :=
    along_ask_bind course fun _ =>
      along_ite (along.separated course) (along_pure course [])
  refine takesAt_advance_bind (fun _ => values.bind course fun _ => ?_) state
  exact along_ask_bind course fun _ => along_pure course _

theorem along_printStatement : (printStatement expression).Along relation :=
  along_of_takesAt course (takesAt_printStatement course along)

/-- All of an assignment but the check of its target keeps to the course. -/
theorem along_assignment
    (start : Nat)
    (target : Expr)
    (form : AssignmentForm)
    (state : State) :
    relation ((checkTarget target).run state).2
      ((assignment expression start target form).run state).2 := by
  have rest : (do
      let _ ← advance
      let value ← expression
      let span ← spanFrom start
      pure (form.statement target value
        ((span.merge target.span).merge value.span)) :
        Rule Stmt).Along relation :=
    (along_advance course).bind course fun _ => along.bind course fun _ =>
      along_ask_bind course fun _ => along_pure course _
  exact rest _

end

/-! ## Blocks and statements -/

section

variable (course : StatementCourse relation)

include course

theorem along_close (closer opener : TokenKind) :
    (close closer opener).Along relation := by
  have onward := course.toCourse
  refine (along_eat onward _).bind onward fun _ =>
    along_ite (along_pure onward ()) ?_
  refine along_ask_bind onward fun _ => along_ite (along_pure onward ()) ?_
  exact fun state => course.reportHere state _ rfl

theorem along_closeFor (counter : Identifier) :
    (closeFor counter).Along relation := by
  have onward := course.toCourse
  refine (along_eat onward _).bind onward fun _ =>
    along_ite (along_counterAgain onward counter) ?_
  refine along_ask_bind onward fun _ => along_ite (along_pure onward ()) ?_
  exact fun state => course.reportHere state _ rfl

theorem along_blockTooDeep : blockTooDeep.Along relation := by
  have onward := course.toCourse
  have cut : cutOff.Along relation := course.cutBlock
  exact along_ask_bind onward fun _ => cut.bind onward fun _ =>
    along_pure onward _

theorem along_strayCloser : strayCloser.Along relation := by
  have onward := course.toCourse
  have reported (kind : TokenKind) :
      (reportHere (.unexpected kind)).Along relation :=
    fun state => course.reportHere state _ rfl
  refine along_ask_bind onward fun _ => (reported _).bind onward fun _ => ?_
  exact (along_advance onward).bind onward fun _ => along_pure onward none

/--
A block goes along the relation, if a statement does
wherever a token is ahead.
-/
theorem along_blockOf
    {statement : Rule (Option Stmt)}
    (along : ∀ state : State, state.rest ≠ [] →
      relation state (statement.run state).2)
    (closers : List TokenKind) :
    (blockOf statement closers).Along relation := by
  have onward := course.toCourse
  have calmed : recovered.Along relation := course.recovered
  refine along_ask_bind onward fun _ =>
    (along_sequence onward along _).bind onward fun _ => ?_
  exact calmed.bind onward fun _ => along_ask_bind onward fun _ =>
    along_pure onward _

variable {block : List TokenKind → Rule Block}
variable (alongBlock : ∀ closers, (block closers).Along relation)

include alongBlock

/-- A routine takes its word, and goes along the relation from there. -/
theorem takesAt_routine (state : State) :
    (routine block).TakesAt relation state := by
  have onward := course.toCourse
  refine takesAt_ask_bind (takesAt_eat_bind onward (fun _ => ?_) state)
  refine takesAt_advance_bind fun _ => ?_
  refine (along_expectName onward _).bind onward fun _ => ?_
  refine (along_parameters onward).bind onward fun _ =>
    (alongBlock _).bind onward fun _ => ?_
  refine (along_closeRoutine onward).bind onward fun _ => ?_
  exact along_ask_bind onward fun _ => along_pure onward _

variable {expression : Rule Expr} (along : expression.Along relation)

include along

theorem along_arm (start : Nat) :
    (arm expression block start).Along relation := by
  have onward := course.toCourse
  refine along.bind onward fun _ => (along_eat onward _).bind onward fun _ => ?_
  exact (alongBlock _).bind onward fun _ => along_pure onward _

/-- A conditional takes its word, and goes along the relation from there. -/
theorem takesAt_conditional (state : State) :
    (conditional expression block).TakesAt relation state := by
  have onward := course.toCourse
  have arms (token : Token) (rule : Rule Arm)
      (opened : furtherArm? expression block token = some rule) :
      rule.AlongSteady relation := by
    rw [furtherArm?] at opened
    split at opened
    · cases opened
      exact (along_arm course alongBlock along _).steady
    · cases opened
  refine takesAt_advance_bind (fun _ => ?_) state
  refine (along_arm course alongBlock along _).bind onward fun _ => ?_
  refine (along_many onward arms).bind onward fun _ => ?_
  refine ((alongBlock _).optionalAfter onward _).bind onward fun _ => ?_
  refine along_ask_bind onward fun _ =>
    (along_close course _ _).bind onward fun _ => ?_
  exact along_ask_bind onward fun _ => along_pure onward _

/--
A loop with a condition takes its word, and goes along the
relation from there.
-/
theorem takesAt_whileLoop (state : State) :
    (whileLoop expression block).TakesAt relation state := by
  have onward := course.toCourse
  refine takesAt_ask_bind (takesAt_eat_bind onward (fun _ => ?_) state)
  refine takesAt_advance_bind fun _ => ?_
  refine along.bind onward fun _ => ?_
  refine (along_trailingDo onward).bind onward fun _ =>
    (alongBlock _).bind onward fun _ => ?_
  refine (along_close course _ _).bind onward fun _ => ?_
  exact along_ask_bind onward fun _ => along_pure onward _

/-- A counting loop takes its word, and goes along the relation from there. -/
theorem takesAt_forLoop (state : State) :
    (forLoop expression block).TakesAt relation state := by
  have onward := course.toCourse
  refine takesAt_advance_bind (fun _ => ?_) state
  refine (along_expectName onward _).bind onward fun counter => ?_
  refine (along_counterSign onward).bind onward fun _ =>
    along.bind onward fun _ => ?_
  refine (along_expect onward _ _).bind onward fun _ =>
    along.bind onward fun _ => ?_
  refine (along.optionalAfter onward _).bind onward fun _ =>
    (alongBlock _).bind onward fun _ => ?_
  refine (along_closeFor course counter).bind onward fun _ => ?_
  exact along_ask_bind onward fun _ => along_pure onward _

variable (assigns : (expressionStatement expression).Along relation)

include assigns

/--
A statement goes along the relation, given that expressions and blocks do.
The cases are the forms.
-/
theorem along_statementOf : (statementOf expression block).Along relation := by
  have onward := course.toCourse
  have calmed : recovered.Along relation := course.recovered
  refine calmed.bind onward fun _ => along_ask_bind onward fun form => ?_
  cases form with
  | empty =>
      exact (along_advance onward).bind onward fun _ => along_pure onward none
  | strayCloser => exact along_strayCloser course
  | conditional =>
      exact (along_of_takesAt onward
        (takesAt_conditional course alongBlock along)).map onward some
  | whileLoop =>
      exact (along_of_takesAt onward
        (takesAt_whileLoop course alongBlock along)).map onward some
  | forLoop =>
      exact (along_of_takesAt onward
        (takesAt_forLoop course alongBlock along)).map onward some
  | routine =>
      exact (along_of_takesAt onward (takesAt_routine course alongBlock)).map
        onward some
  | declaration => exact (along_declaration onward along).terminated onward
  | result => exact (along_resultStatement onward along).terminated onward
  | control => exact (along_loopControl onward).terminated onward
  | print => exact (along_printStatement onward along).terminated onward
  | expression => exact assigns.terminated onward

end

section

variable
    (course : StatementCourse relation)
    (assigns : ∀ levels,
      (expressionStatement (expression levels)).Along relation)

include course assigns

/-- A statement goes along the relation, with any number of levels left. -/
theorem along_statement (levels : Nat) : (statement levels).Along relation := by
  have onward := course.toCourse
  induction levels with
  | zero =>
      exact along_statementOf course (fun _ => along_blockTooDeep course)
        (along_expression onward 0) (assigns 0)
  | succ levels hypothesis =>
      exact along_statementOf course
        (along_blockOf course fun state _ => hypothesis state)
        (along_expression onward (levels + 1)) (assigns (levels + 1))

/-- A program keeps to every course that its expression statements keep to. -/
theorem along_program : program.Along relation := by
  have onward := course.toCourse
  refine ((along_statement course assigns nestingLimit).sequence onward _).bind
    onward fun _ => ?_
  exact along_ask_bind onward fun _ => along_pure onward _

end

end Clipper.Grammar
