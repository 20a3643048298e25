import Clipper.Proofs.Grammar.Counter
import Clipper.Proofs.Grammar.NestingBound
import Clipper.Proofs.Grammar.StatementForms

/-!
# The grammar with a counter of the nesting

The rules of the grammar once more, with a counter in place of the levels that
are left: an expression, a prefix operator and a block enter a level before they
read and leave it afterwards, and past the limit they do not read at all.  Only
the recursion of the definitions needs a bound.  It is never met: where the
counter has fewer levels left than the bound, the counted rules do what the
rules of the grammar do, stay within the limit and come back with the counter
they were given.

The limit is therefore a limit on a counter, as it would be in a program that
counts its nesting while it reads: the theorem on the counted program says
that the counter is never below zero and never above the limit, that it is
zero at the end, and that the outcome is that of the grammar with its levels.
-/

namespace Clipper.Grammar

namespace Counted

variable {before : Int}

/-! ## Suffixes and primaries -/

/-- What follows a colon. -/
def message (nested : Counted Expr) : Counted SuffixForm := do
  let name ← Rule.expectName .colon
  if ← Rule.ask State.recovering then pure (.property name)
  else if ← Rule.eat .leftParenthesis then
    let arguments ← enclosed nested .rightParenthesis .arguments
    pure (.send name arguments)
  else pure (.property name)

/-- The rest of the suffix that a token opens. -/
def suffixForm?
    (nested : Counted Expr) :
    TokenKind → Option (Counted SuffixForm)
  | .leftParenthesis => some do
      let arguments ← enclosed nested .rightParenthesis .arguments
      pure (.call arguments)
  | .leftBracket => some do
      let position ← nested
      Rule.expect .rightBracket .index
      pure (.index position)
  | .colon => some (message nested)
  | .arrow => some do
      let name ← Rule.expectName .arrow
      pure (.field name)
  | _ => none

/--
The rest of the suffix that a token opens, with the offset at which it ends.
-/
def suffix?
    (nested : Counted Expr)
    (token : Token) :
    Option (Counted Suffix) :=
  (suffixForm? nested token.kind).map
    (fun rule => do
      let form ← rule
      let stop ← Rule.ask State.reached
      pure ⟨form, stop⟩)

/-- An expression between parentheses. -/
def parenthesized (nested : Counted Expr) : Counted Expr := do
  let opening ← Rule.advance
  let inner ← nested
  Rule.expect .rightParenthesis .expression
  let span ← Rule.spanFrom opening.span.start
  pure (inner.withSpan (span.merge inner.span))

/-- Elements between braces. -/
def arrayLiteral (nested : Counted Expr) : Counted Expr := do
  let opening ← Rule.advance
  let elements ← enclosed nested .rightBrace .arrayElements
  let span ← Rule.spanFrom opening.span.start
  pure (.array elements (span.mergeAll (elements.map Expr.span)))

/-- A code block. -/
def codeBlock (nested : Counted Expr) : Counted Expr := do
  let opening ← Rule.advance
  let _ ← Rule.advance
  let parameters ← Rule.enclosed (Rule.expectName .bar) .bar
      .codeBlockParameters
  let body ← enclosed nested .rightBrace .codeBlock
  let span ← Rule.spanFrom opening.span.start
  pure (.codeBlock parameters body
    (span.mergeAll (parameters.map Identifier.span ++ body.map Expr.span)))

/-- A primary. -/
def primary (nested : Counted Expr) : Counted Expr := do
  let token ← Rule.ask State.current
  match literal? token with
  | some value =>
      let _ ← Rule.advance
      pure (.literal value token.span)
  | none =>
      match token.kind with
      | .identifier =>
          let _ ← Rule.advance
          pure (.ofIdentifier ⟨token.lexeme, token.span⟩)
      | .leftParenthesis => parenthesized nested
      | .leftBrace =>
          if (← Rule.ask State.secondKind) = .bar then codeBlock nested
          else arrayLiteral nested
      | .error => invalidToken
      | _ => noExpression

/-- A primary with its suffixes. -/
def suffixed (nested : Counted Expr) : Counted Expr := do
  let target ← primary nested
  let suffixes ← many (suffix? nested)
  pure (suffixes.foldl Suffix.apply target)

section

variable
  {nested : Counted Expr}
  {rule : Rule Expr}
  (follows : Follows nested rule before before)

include follows

theorem follows_message :
    Follows (message nested) (Grammar.message rule) before before := by
  refine follows_lift_bind _ fun name =>
    follows_lift_bind _ fun recovering => ?_
  refine follows_ite (fun _ => follows_pure _) fun _ =>
    follows_lift_bind _ fun eaten => ?_
  refine follows_ite (fun _ => ?_) (fun _ => follows_pure _)
  exact (follows_enclosed follows _ _).bind fun arguments => follows_pure _

/--
The suffixes with a counter are opened by the same tokens, and follow the
suffixes of the grammar.
-/
theorem follows_suffixForm? (kind : TokenKind) :
    Option.Rel (fun counted rule => Follows counted rule before before)
      (suffixForm? nested kind) (Grammar.suffixForm? rule kind) := by
  cases kind with
  | leftParenthesis =>
      exact .some ((follows_enclosed follows _ _).bind fun arguments =>
        follows_pure _)
  | leftBracket =>
      exact .some (follows.bind fun position => follows_lift_bind _ fun _ =>
        follows_pure _)
  | colon => exact .some (follows_message follows)
  | arrow => exact .some (follows_lift_bind _ fun name => follows_pure _)
  | _ => exact .none

/--
A suffix with a counter follows the suffix of the grammar, and both
end at the same offset.
-/
theorem follows_suffix? (token : Token) :
    Option.Rel (fun counted rule => Follows counted rule before before)
      (suffix? nested token) (Grammar.suffix? rule token) := by
  have forms := follows_suffixForm? follows token.kind
  rw [suffix?, Grammar.suffix?]
  generalize suffixForm? nested token.kind = counted? at forms
  generalize Grammar.suffixForm? rule token.kind = rule? at forms
  cases forms with
  | none => exact .none
  | some form =>
      exact .some (form.bind fun form => follows_lift_bind _ fun stop =>
        follows_pure _)

theorem follows_parenthesized :
    Follows (parenthesized nested) (Grammar.parenthesized rule) before
      before := by
  refine follows_lift_bind _ fun opening => follows.bind fun inner => ?_
  exact follows_lift_bind _ fun _ => follows_lift_bind _ fun span =>
    follows_pure _

theorem follows_arrayLiteral :
    Follows (arrayLiteral nested) (Grammar.arrayLiteral rule) before
      before := by
  refine follows_lift_bind _ fun opening =>
    (follows_enclosed follows _ _).bind fun elements => ?_
  exact follows_lift_bind _ fun span => follows_pure _

theorem follows_codeBlock :
    Follows (codeBlock nested) (Grammar.codeBlock rule) before before := by
  refine follows_lift_bind _ fun opening => follows_lift_bind _ fun _ => ?_
  refine follows_lift_bind _ fun parameters =>
    (follows_enclosed follows _ _).bind fun body => ?_
  exact follows_lift_bind _ fun span => follows_pure _

/--
A primary with a counter follows the primary of the grammar: what is nested in
it enters a level and leaves it.
-/
theorem follows_primary :
    Follows (primary nested) (Grammar.primary rule) before before := by
  refine follows_lift_bind _ fun token => ?_
  cases literal? token with
  | some value => exact follows_lift_bind _ fun _ => follows_pure _
  | none =>
      cases token.kind with
      | identifier => exact follows_lift_bind _ fun _ => follows_pure _
      | leftParenthesis => exact follows_parenthesized follows
      | leftBrace =>
          refine follows_lift_bind _ fun second =>
            follows_ite (fun _ => ?_) (fun _ => ?_)
          · exact follows_codeBlock follows
          · exact follows_arrayLiteral follows
      | _ => exact follows_lift _

theorem follows_suffixed :
    Follows (suffixed nested) (Grammar.suffixed rule) before before := by
  refine (follows_primary follows).bind fun target => ?_
  exact (follows_many (follows_suffix? follows)).bind fun suffixes =>
    follows_pure _

end

/-! ## Operators -/

/-- The prefix operator ahead and the operand after it, one level deeper. -/
def prefixed
    (operand : Counted Expr)
    (operator : UnaryOperator) :
    Counted Expr := do
  if ← enter then
    let token ← Rule.advance
    let inner ← operand
    leave
    let span ← Rule.spanFrom token.span.start
    pure (.unary operator inner (span.merge inner.span))
  else placeholderHere

/-- The operand to the right of the operator that a token of this level is. -/
def rightOperand?
    (level : Nat)
    (operand : Counted Expr)
    (token : Token) :
    Option (Counted (BinaryOperator × Expr)) :=
  match BinaryOperator.ofKind? token.kind with
  | some operator =>
      if operator.level = level then
        some do
          let right ← operand
          pure (operator, right)
      else none
  | none => none

/-- Operands joined by the operators of one level. -/
def chain
    (level : Nat)
    (operand : Counted Expr) :
    Counted Expr := do
  let first ← operand
  let others ← many (rightOperand? level operand)
  pure (others.foldl joinRight first)

/-- The six levels of binary operators above an operand. -/
def binary (operand : Counted Expr) : Counted Expr :=
  chain 1 (chain 2 (chain 3 (chain 4 (chain 5 (chain 6 operand)))))

/--
An expression one level deeper, or nothing while the reading is recovering.
-/
def expressionOf (operand : Counted Expr) : Counted Expr := do
  if ← Rule.ask State.recovering then placeholderHere
  else if ← enter then
    let value ← binary operand
    leave
    pure value
  else placeholderHere

/-- An operand, given the rule for the operands one level deeper. -/
def operandOf (deeper : Counted Expr) : Counted Expr := do
  match UnaryOperator.ofKind? (← Rule.ask State.kind) with
  | some operator => prefixed deeper operator
  | none => suffixed (expressionOf deeper)

/--
An operand.  With as many levels left as the bound, the recursion is not cut.
-/
def operand : Nat → Counted Expr
  | 0 => placeholderHere
  | bound + 1 => operandOf (operand bound)

/-- An expression. -/
def expression (bound : Nat) : Counted Expr :=
  expressionOf (operand bound)

/--
A chain with a counter follows the chain of the same
level, if the operands do.
-/
theorem follows_chain
    {operand : Counted Expr}
    {rule : Rule Expr}
    (follows : Follows operand rule before before)
    (level : Nat) :
    Follows (chain level operand) (Grammar.chain level rule) before before := by
  refine follows.bind fun first =>
    (follows_many fun token => ?_).bind fun others => follows_pure _
  unfold rightOperand? Grammar.rightOperand?
  cases BinaryOperator.ofKind? token.kind with
  | none => exact .none
  | some operator =>
      by_cases same : operator.level = level
      · simp only [if_pos same]
        exact .some (follows.bind fun right => follows_pure _)
      · simp only [if_neg same]
        exact .none

theorem follows_binary
    {operand : Counted Expr}
    {rule : Rule Expr}
    (follows : Follows operand rule before before) :
    Follows (binary operand) (Grammar.binary rule) before before := by
  unfold binary Grammar.binary
  iterate 6 apply follows_chain
  exact follows

/-- At the limit an expression is nested too deeply. -/
theorem follows_expressionOf_limit (deeper : Counted Expr) :
    Follows (expressionOf deeper) (unlessRecovering tooDeep) nestingLimit
      nestingLimit := by
  refine follows_lift_bind _ fun recovering =>
    follows_ite (fun _ => follows_lift _) fun _ => ?_
  exact follows_enter_limit (follows_lift _)

/--
An expression enters a level, reads, and leaves the level.  Below the limit it
does what the rule of the grammar does with one level less.
-/
theorem follows_expressionOf
    {deeper : Counted Expr}
    {rule : Rule Expr}
    (low : 0 ≤ before)
    (below : before < nestingLimit)
    (follows : Follows deeper rule (before + 1) (before + 1)) :
    Follows (expressionOf deeper) (unlessRecovering (Grammar.binary rule))
      before before := by
  refine follows_lift_bind _ fun recovering =>
    follows_ite (fun _ => follows_lift _) fun _ => ?_
  exact follows_enter below ((follows_binary follows).leave low)

/--
A prefix operator enters a level for its operand and leaves
it behind the operand.
-/
theorem follows_prefixed
    {deeper : Counted Expr}
    {rule : Rule Expr}
    (low : 0 ≤ before)
    (below : before < nestingLimit)
    (follows : Follows deeper rule (before + 1) (before + 1))
    (operator : UnaryOperator) :
    Follows (prefixed deeper operator) (Grammar.prefixed rule operator) before
      before := by
  refine follows_enter below (follows_lift_bind _ fun token => ?_)
  refine follows.bind fun inner => follows_leave_bind low ?_
  exact follows_lift_bind _ fun span => follows_pure _

/--
With some levels left and a greater bound,
an operand is read as with these levels.
-/
theorem follows_operand
    {levels bound : Nat}
    (left : before + levels = nestingLimit)
    (low : 0 ≤ before)
    (enough : levels < bound) :
    Follows (operand bound) (Grammar.operand levels) before before := by
  induction levels generalizing before bound with
  | zero =>
      obtain ⟨bound, rfl⟩ :=
        Nat.exists_eq_succ_of_ne_zero (Nat.ne_zero_of_lt enough)
      obtain rfl : before = nestingLimit := by omega
      refine follows_lift_bind _ fun kind => ?_
      cases UnaryOperator.ofKind? kind with
      | some operator => exact follows_enter_limit (follows_lift _)
      | none => exact follows_suffixed (follows_expressionOf_limit _)
  | succ levels hypothesis =>
      obtain ⟨bound, rfl⟩ :=
        Nat.exists_eq_succ_of_ne_zero (Nat.ne_zero_of_lt enough)
      have below : before < nestingLimit := by omega
      have deeper : Follows (operand bound) (Grammar.operand levels)
          (before + 1) (before + 1) :=
        hypothesis (by omega) (by omega) (Nat.lt_of_succ_lt_succ enough)
      refine follows_lift_bind _ fun kind => ?_
      cases UnaryOperator.ofKind? kind with
      | some operator => exact follows_prefixed low below deeper operator
      | none => exact follows_suffixed (follows_expressionOf low below deeper)

/--
An expression with a counter follows the expression of the grammar whose
levels are those that the counter has left.
-/
theorem follows_expression
    {levels bound : Nat}
    (left : before + levels = nestingLimit)
    (low : 0 ≤ before)
    (enough : levels ≤ bound) :
    Follows (expression bound) (Grammar.expression levels) before before := by
  cases levels with
  | zero =>
      obtain rfl : before = nestingLimit := by omega
      exact follows_expressionOf_limit _
  | succ levels =>
      exact follows_expressionOf low (by omega)
        (follows_operand (by omega) (by omega) enough)

/-! ## Simple statements -/

/-- One declared name, with its first value after `:=`. -/
def binding
    (expression : Counted Expr)
    (place : NamePlace) :
    Counted Binding := do
  let name ← Rule.expectName place
  if ← Rule.eat .assign then
    let value ← expression
    pure ⟨name, some value, name.span.merge value.span⟩
  else pure ⟨name, none, name.span⟩

/-- A declaration of variables. -/
def declaration (expression : Counted Expr) : Counted Stmt := do
  let word ← Rule.advance
  let isStatic := word.kind == .static
  let bindings ← separated
      (binding expression (if isStatic then .staticWord else .localWord))
  let span ← Rule.spanFrom word.span.start
  pure (.declare (if isStatic then .static else .perCall) bindings
    (span.mergeAll (bindings.map Binding.span)))

/-- A return, with a value if an expression follows. -/
def resultStatement (expression : Counted Expr) : Counted Stmt := do
  let word ← Rule.advance
  if opensExpression (← Rule.ask State.kind) then
    let value ← expression
    let span ← Rule.spanFrom word.span.start
    pure (.result (some value) (span.merge value.span))
  else
    let span ← Rule.spanFrom word.span.start
    pure (.result none span)

/-- The values of a print statement, if an expression follows. -/
def printedValues (expression : Counted Expr) : Counted (List Expr) := do
  if opensExpression (← Rule.ask State.kind) then separated expression
  else pure []

/-- A print statement. -/
def printStatement (expression : Counted Expr) : Counted Stmt := do
  let word ← Rule.advance
  let values ← printedValues expression
  let span ← Rule.spanFrom word.span.start
  pure (.print (word.kind == .question) values
    (span.mergeAll (values.map Expr.span)))

/-- The rest of an assignment whose target was read. -/
def assignment
    (expression : Counted Expr)
    (start : Nat)
    (target : Expr)
    (form : AssignmentForm) :
    Counted Stmt := do
  checkTarget target
  let _ ← Rule.advance
  let value ← expression
  let span ← Rule.spanFrom start
  pure (form.statement target value ((span.merge target.span).merge value.span))

/-- An expression as a statement, or an assignment to it. -/
def expressionStatement (expression : Counted Expr) : Counted Stmt := do
  let start ← Rule.ask State.start
  let target ← expression
  if ← Rule.ask State.recovering then standalone start target
  else
    match AssignmentForm.ofKind? (← Rule.ask State.kind) with
    | none => standalone start target
    | some form => assignment expression start target form

/-- A simple statement, after which a semicolon may stand. -/
def terminated (rule : Counted Stmt) : Counted (Option Stmt) := do
  let statement ← rule
  let _ ← Rule.eat .semicolon
  pure (some statement)

section

variable
  {expression : Counted Expr}
  {rule : Rule Expr}
  (follows : Follows expression rule before before)

include follows

/-- A declaration with a counter follows that of the grammar. -/
theorem follows_declaration :
    Follows (declaration expression) (Grammar.declaration rule) before
      before := by
  have followsBinding (place : NamePlace) :
      Follows (binding expression place) (Grammar.binding rule place) before
        before := by
    refine follows_lift_bind _ fun name => follows_lift_bind _ fun eaten => ?_
    exact follows_ite (fun _ => follows.bind fun value => follows_pure _)
      (fun _ => follows_pure _)
  refine follows_lift_bind _ fun word =>
    (follows_separated (followsBinding _)).bind ?_
  exact fun bindings => follows_lift_bind _ fun span => follows_pure _

theorem follows_resultStatement :
    Follows (resultStatement expression) (Grammar.resultStatement rule) before
      before := by
  refine follows_lift_bind _ fun word => follows_lift_bind _ fun kind => ?_
  refine follows_ite (fun _ => follows.bind fun value => ?_) (fun _ => ?_)
  · exact follows_lift_bind _ fun span => follows_pure _
  · exact follows_lift_bind _ fun span => follows_pure _

/-- A statement that prints, with a counter, follows that of the grammar. -/
theorem follows_printStatement :
    Follows (printStatement expression) (Grammar.printStatement rule) before
      before := by
  have followsValues :
      Follows (printedValues expression) (Grammar.printedValues rule)
        before before :=
    follows_lift_bind _ fun kind =>
      follows_ite (fun _ => follows_separated follows) (fun _ => follows_pure _)
  refine follows_lift_bind _ fun word => followsValues.bind fun values => ?_
  exact follows_lift_bind _ fun span => follows_pure _

/--
A statement that begins as an expression, with a counter, follows that of the
grammar: the value of an assignment is read at the same level.
-/
theorem follows_expressionStatement :
    Follows (expressionStatement expression) (Grammar.expressionStatement rule)
      before before := by
  refine follows_lift_bind _ fun start => follows.bind fun target => ?_
  refine follows_lift_bind _ fun recovering =>
    follows_ite (fun _ => follows_lift _) fun _ => ?_
  refine follows_lift_bind _ fun kind => ?_
  cases AssignmentForm.ofKind? kind with
  | none => exact follows_lift _
  | some form =>
      refine follows_lift_bind _ fun _ => follows_lift_bind _ fun _ => ?_
      exact follows.bind fun value => follows_lift_bind _ fun span =>
        follows_pure _

end

theorem follows_terminated
    {statement : Counted Stmt}
    {rule : Rule Stmt}
    (follows : Follows statement rule before before) :
    Follows (terminated statement) (Grammar.terminated rule) before before :=
  follows.bind fun _ => follows_lift_bind _ fun _ => follows_pure _

/-! ## Compound statements -/

/-- A condition and its block. -/
def arm
    (expression : Counted Expr)
    (block : List TokenKind → Counted Block)
    (start : Nat) :
    Counted Arm := do
  let condition ← expression
  let _ ← Rule.eat .thenWord
  let inner ← block [.elseIf, .elseWord, .endIf]
  pure ⟨start, condition, inner⟩

/-- An `ELSEIF` opens a further arm. -/
def furtherArm?
    (expression : Counted Expr)
    (block : List TokenKind → Counted Block)
    (token : Token) :
    Option (Counted Arm) :=
  if token.kind = .elseIf then some (arm expression block token.span.start)
  else none

/-- A conditional with its arms. -/
def conditional
    (expression : Counted Expr)
    (block : List TokenKind → Counted Block) :
    Counted Stmt := do
  let word ← Rule.advance
  let start := word.span.start
  let first ← arm expression block start
  let others ← many (furtherArm? expression block)
  let last? ← optionalAfter .elseWord (block [.endIf])
  let reached ← Rule.ask State.reached
  let negative? := others.foldr (Arm.nest reached) last?
  close .endIf .ifWord
  let span ← Rule.spanFrom start
  let inner := (first.conditional reached negative?).span
  pure (.conditional first.condition first.block negative? (span.merge inner))

/-- A loop with a condition. -/
def whileLoop
    (expression : Counted Expr)
    (block : List TokenKind → Counted Block) :
    Counted Stmt := do
  let start ← Rule.ask State.start
  let _ ← Rule.eat .doWord
  let _ ← Rule.advance
  let condition ← expression
  trailingDo
  let body ← block [.endDo]
  close .endDo .whileWord
  let span ← Rule.spanFrom start
  pure (.whileLoop condition body ((span.merge body.span).merge condition.span))

/-- A counting loop. -/
def forLoop
    (expression : Counted Expr)
    (block : List TokenKind → Counted Block) :
    Counted Stmt := do
  let word ← Rule.advance
  let counter ← Rule.expectName .forWord
  counterSign
  let first ← expression
  Rule.expect .toWord .loopStart
  let last ← expression
  let step? ← optionalAfter .step expression
  let body ← block [.next]
  closeFor counter
  let span ← Rule.spanFrom word.span.start
  let span := ((span.merge counter.span).merge first.span).merge last.span
  let span := step?.elim span (fun step => span.merge step.span)
  pure (.forLoop counter first last step? body (span.merge body.span))

/-- A routine. -/
def routine (block : List TokenKind → Counted Block) : Counted Stmt := do
  let start ← Rule.ask State.start
  let isStatic ← Rule.eat .static
  let word ← Rule.advance
  let kind := if word.kind = .function then RoutineKind.function else .procedure
  let name ← Rule.expectName
      (if word.kind = .function then .functionWord else .procedureWord)
  let parameters ← parameters
  let body ← block [.endFunction, .endProcedure]
  closeRoutine
  let span ← Rule.spanFrom start
  let span := (span.merge name.span).mergeAll (parameters.map Identifier.span)
  pure (.routine ⟨kind, isStatic, name, parameters⟩ body (span.merge body.span))

section

variable
  {expression : Counted Expr}
  {rule : Rule Expr}
  {block : List TokenKind → Counted Block}
  {blockRule : List TokenKind → Rule Block}
  (follows : Follows expression rule before before)
  (followsBlock : ∀ closers, Follows (block closers)
    (blockRule closers) before before)

include follows followsBlock

theorem follows_arm (start : Nat) :
    Follows (arm expression block start) (Grammar.arm rule blockRule start)
      before before := by
  refine follows.bind fun condition => follows_lift_bind _ fun _ => ?_
  exact (followsBlock _).bind fun inner => follows_pure _

/--
A conditional with a counter follows that of the grammar.  Its arms are read
in a loop, so they do not count against the limit.
-/
theorem follows_conditional :
    Follows (conditional expression block) (Grammar.conditional rule blockRule)
      before before := by
  have others (token : Token) :
      Option.Rel (fun counted rule => Follows counted rule before before)
        (furtherArm? expression block token)
        (Grammar.furtherArm? rule blockRule token) := by
    unfold furtherArm? Grammar.furtherArm?
    by_cases isElseIf : token.kind = .elseIf
    · simp only [if_pos isElseIf]
      exact .some (follows_arm follows followsBlock _)
    · simp only [if_neg isElseIf]
      exact .none
  refine follows_lift_bind _ fun word =>
    (follows_arm follows followsBlock _).bind fun first => ?_
  refine (follows_many others).bind fun arms => ?_
  refine (follows_optionalAfter (followsBlock _) _).bind fun last? => ?_
  refine follows_lift_bind _ fun reached => follows_lift_bind _ fun _ => ?_
  exact follows_lift_bind _ fun span => follows_pure _

theorem follows_whileLoop :
    Follows (whileLoop expression block) (Grammar.whileLoop rule blockRule)
      before before := by
  refine follows_lift_bind _ fun start => follows_lift_bind _ fun _ => ?_
  refine follows_lift_bind _ fun _ => follows.bind fun condition =>
    follows_lift_bind _ fun _ => ?_
  refine (followsBlock _).bind fun body => follows_lift_bind _ fun _ => ?_
  exact follows_lift_bind _ fun span => follows_pure _

/-- A counting loop with a counter follows that of the grammar. -/
theorem follows_forLoop :
    Follows (forLoop expression block) (Grammar.forLoop rule blockRule) before
      before := by
  refine follows_lift_bind _ fun word => follows_lift_bind _ fun counter => ?_
  refine follows_lift_bind _ fun _ => follows.bind fun first =>
    follows_lift_bind _ fun _ => ?_
  refine follows.bind fun last =>
    (follows_optionalAfter follows _).bind fun step? => ?_
  refine (followsBlock _).bind fun body => follows_lift_bind _ fun _ => ?_
  exact follows_lift_bind _ fun span => follows_pure _

omit follows in
theorem follows_routine :
    Follows (routine block) (Grammar.routine blockRule) before before := by
  refine follows_lift_bind _ fun start => follows_lift_bind _ fun isStatic => ?_
  refine follows_lift_bind _ fun word => follows_lift_bind _ fun name => ?_
  refine follows_lift_bind _ fun names => (followsBlock _).bind fun body => ?_
  exact follows_lift_bind _ fun _ => follows_lift_bind _ fun span =>
    follows_pure _

end

/-! ## Blocks, statements and programs -/

/-- A statement of a form. -/
def statementOfForm
    (expression : Counted Expr)
    (block : List TokenKind → Counted Block) :
    StatementForm → Counted (Option Stmt)
  | .empty => do
      let _ ← Rule.advance
      pure none
  | .strayCloser => strayCloser
  | .conditional => do
      let statement ← conditional expression block
      pure (some statement)
  | .whileLoop => do
      let statement ← whileLoop expression block
      pure (some statement)
  | .forLoop => do
      let statement ← forLoop expression block
      pure (some statement)
  | .routine => do
      let statement ← routine block
      pure (some statement)
  | .declaration => terminated (declaration expression)
  | .result => terminated (resultStatement expression)
  | .control => terminated loopControl
  | .print => terminated (printStatement expression)
  | .expression => terminated (expressionStatement expression)

/-- One statement, which ends a recovery. -/
def statementOf
    (expression : Counted Expr)
    (block : List TokenKind → Counted Block) :
    Counted (Option Stmt) := do
  Rule.recovered
  let form ← Rule.ask StatementForm.of
  statementOfForm expression block form

/-- A block one level deeper, up to one of its closing words. -/
def blockOf
    (statement : Counted (Option Stmt))
    (closers : List TokenKind) :
    Counted Block := do
  let start ← Rule.ask State.start
  if ← enter then
    let statements ← sequence (endsBlock closers) statement
    Rule.recovered
    leave
    let span ← Rule.spanFrom start
    pure (.of statements (span.mergeAll (statements.map Stmt.span)))
  else pure (.of [] (Span.empty start))

/--
A statement.  With as many levels left as the bound, the recursion is not cut.
-/
def statement : Nat → Counted (Option Stmt)
  | 0 => pure none
  | bound + 1 => statementOf (expression bound) (blockOf (statement bound))

/-- A program: statements up to the end of the file. -/
def program (bound : Nat) : Counted Program := do
  let statements ← sequence (fun _ => false) (statement bound)
  let final ← Rule.ask State.current
  pure ⟨statements, ⟨0, final.span.stop⟩⟩

/--
A statement with a counter follows that of the grammar, given that expressions
and blocks do.  The cases are the forms.
-/
theorem follows_statementOf
    {expression : Counted Expr}
    {rule : Rule Expr}
    {block : List TokenKind → Counted Block}
    {blockRule : List TokenKind → Rule Block}
    (follows : Follows expression rule before before)
    (followsBlock : ∀ closers, Follows (block closers)
      (blockRule closers) before before) :
    Follows (statementOf expression block) (Grammar.statementOf rule blockRule)
      before before := by
  have some {statement : Counted Stmt} {rule : Rule Stmt}
      (follows : Follows statement rule before before) :
      Follows (statement >>= fun made => pure (some made))
        (some <$> rule) before before :=
    follows.bind fun _ => follows_pure _
  refine follows_lift_bind _ fun _ => follows_lift_bind _ fun form => ?_
  cases form with
  | empty => exact follows_lift_bind _ fun _ => follows_pure _
  | strayCloser => exact follows_lift _
  | conditional => exact some (follows_conditional follows followsBlock)
  | whileLoop => exact some (follows_whileLoop follows followsBlock)
  | forLoop => exact some (follows_forLoop follows followsBlock)
  | routine => exact some (follows_routine followsBlock)
  | declaration => exact follows_terminated (follows_declaration follows)
  | result => exact follows_terminated (follows_resultStatement follows)
  | control => exact follows_terminated (follows_lift _)
  | print => exact follows_terminated (follows_printStatement follows)
  | expression => exact follows_terminated (follows_expressionStatement follows)

/-- At the limit a block is nested too deeply. -/
theorem follows_blockOf_limit
    (statement : Counted (Option Stmt))
    (closers : List TokenKind) :
    Follows (blockOf statement closers) blockTooDeep nestingLimit
      nestingLimit :=
  follows_lift_bind _ fun _ => follows_enter_limit (follows_pure _)

/-- A block, where the statements in it are read as with one level less. -/
theorem follows_block_of_statement
    {levels bound : Nat}
    (left : before + levels = nestingLimit)
    (low : 0 ≤ before)
    (inner :
      ∀ fewer, levels = fewer + 1 →
        Follows (statement bound) (Grammar.statement fewer) (before + 1)
          (before + 1))
    (closers : List TokenKind) :
    Follows (blockOf (statement bound) closers) (blocks levels closers) before
      before := by
  cases levels with
  | zero =>
      obtain rfl : before = nestingLimit := by omega
      exact follows_blockOf_limit _ closers
  | succ levels =>
      have below : before < nestingLimit := by omega
      refine follows_lift_bind _ fun start => follows_enter below ?_
      refine (follows_sequence (inner levels rfl) _).bind fun statements => ?_
      refine follows_lift_bind _ fun _ => follows_leave_bind low ?_
      exact follows_lift_bind _ fun span => follows_pure _

/--
With some levels left and a greater bound,
a statement is read as with these levels.
-/
theorem follows_statement
    {levels bound : Nat}
    (left : before + levels = nestingLimit)
    (low : 0 ≤ before)
    (enough : levels < bound) :
    Follows (statement bound) (Grammar.statement levels) before before := by
  induction bound generalizing before levels with
  | zero => cases enough
  | succ bound hypothesis =>
      rw [statement_eq]
      refine follows_statementOf
        (follows_expression left low (Nat.le_of_lt_succ enough)) ?_
      refine follows_block_of_statement left low fun fewer isFewer => ?_
      exact hypothesis (by omega) (by omega) (by omega)

/-- A block enters a level for its statements and leaves it behind them. -/
theorem follows_block
    {levels bound : Nat}
    (left : before + levels = nestingLimit)
    (low : 0 ≤ before)
    (enough : levels ≤ bound)
    (closers : List TokenKind) :
    Follows (blockOf (statement bound) closers) (blocks levels closers)
      before before :=
  follows_block_of_statement left low
    (fun fewer isFewer => follows_statement (by omega) (by omega) (by omega))
      closers

theorem follows_program
    {bound : Nat}
    (enough : nestingLimit < bound) :
    Follows (program bound) Grammar.program 0 0 := by
  refine (follows_sequence (follows_statement ?_ (Int.le_refl 0) enough) _).bind
    ?_
  · exact Int.zero_add _
  · exact fun statements => follows_lift_bind _ fun final => follows_pure _

end Counted

/--
Along no path does a tree that is read have more levels than the
limit.  A reading with a counter of its levels reads the same
program, keeps the counter between zero and the limit all the time
and ends with it at zero; so does every expression, operand and
block inside, which come back with the counter they were given.
-/
theorem nesting_limited :
    (∀ tokens, (readProgram tokens).value.nesting ≤ nestingLimit) ∧
      (∀ tokens bound, nestingLimit < bound →
        ∃ counter : Counter, counter.Bounded ∧ counter.depth = 0 ∧
          (Counted.program bound .start).run (State.ofTokens tokens) =
            (((readProgram tokens).value, counter),
              (program.run (State.ofTokens tokens)).2)) ∧
      ∀ depth levels bound : Nat, depth + levels = nestingLimit →
        levels < bound →
        Counted.Follows (Counted.expression bound)
          (expression levels) depth depth ∧
          Counted.Follows (Counted.operand bound) (operand levels) depth depth ∧
            ∀ closers,
              Counted.Follows
                (Counted.blockOf (Counted.statement bound) closers)
                (blocks levels closers) depth depth := by
  refine ⟨nesting_readProgram, ?_, ?_⟩
  · intro tokens bound enough
    exact Counted.follows_program enough .start Counter.bounded_start
      rfl (State.ofTokens tokens)
  · intro depth levels bound left enough
    have whole : (depth : Int) + levels = nestingLimit := by omega
    have low : (0 : Int) ≤ depth := Int.natCast_nonneg depth
    exact ⟨Counted.follows_expression whole low enough.le,
      Counted.follows_operand whole low enough,
      Counted.follows_block whole low enough.le⟩

end Clipper.Grammar
