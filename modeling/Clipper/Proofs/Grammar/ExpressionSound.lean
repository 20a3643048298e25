import Clipper.Proofs.Grammar.ExpressionPhrase
import Clipper.Proofs.Grammar.Reads

/-!
# Expressions are read by their grammar

What a rule for expressions takes without a report are the tokens of a phrase,
and its value is the tree of the phrase.  There is one lemma for each rule; the
loops keep the phrase of all that was taken so far.

A rule is sound for a phrase if every reading of it without a report has taken
tokens that are such a phrase for the value.  What is nested enters as a
hypothesis on the nested rule, which the induction on the levels supplies.
Nothing is said here of the token behind the phrase: a rule takes as much as
it can, and what it takes is a phrase whatever comes next.
-/

namespace Clipper.Grammar

namespace Rule

variable {α : Type}

/-- What the rule takes without a report spells its value. -/
def Sound
    (rule : Rule α)
    (phrase : Phrase α) :
    Prop :=
  ∀ state value next,
    Reads rule state value next → ∃ tokens, state.rest = tokens ++ next.rest ∧
    phrase tokens value

theorem Sound.expectName (place : NamePlace) :
    Sound (expectName place) NamePhrase := by
  intro state name next reads
  rcases reads_expectName.mp reads with ⟨-, kind, rfl, rfl⟩
  exact ⟨[state.current], State.rest_of_kind kind (by decide), .name kind _⟩

/-! ## Lists -/

/-- The loop over the commas of a list lengthens the list. -/
theorem Sound.further
    {item : Rule α}
    {phrase : Phrase α}
    (sound : Sound item phrase)
    (values : List α) :
    ∀ {state next : State} {before : List Token} {first : α},
      Reads (many (afterComma? item)) state values next → phrase before first →
        ∃ tokens, state.rest = tokens ++ next.rest ∧
          SeparatedPhrase phrase (before ++ tokens) (first :: values) := by
  induction values with
  | nil =>
      intro state next before first reads phrased
      rcases reads_many_nil.mp reads with ⟨-, -, rfl⟩
      refine ⟨[], rfl, ?_⟩
      rw [List.append_nil]
      exact .single phrased
  | cons value others hypothesis =>
      intro state next before first reads phrased
      rcases reads_many_cons.mp reads
        with ⟨comma, rest, rule, middle, shape, opened, once, again⟩
      unfold afterComma? at opened
      split at opened
      · next separator =>
          cases opened
          rcases sound _ _ _ once with ⟨tokens, taken, itemPhrased⟩
          rcases hypothesis again itemPhrased
            with ⟨further, furtherTaken, furtherPhrased⟩
          refine ⟨comma :: (tokens ++ further), ?_,
            .further phrased separator furtherPhrased⟩
          rw [shape, ← State.rest_advance shape, taken, furtherTaken,
            List.cons_append, List.append_assoc]
      · cases opened

/--
What a rule for lists takes is a list of phrases with commas between them.
-/
theorem Sound.separated
    {item : Rule α}
    {phrase : Phrase α}
    (sound : Sound item phrase) :
    Sound (separated item) (SeparatedPhrase phrase) := by
  intro state values next reads
  rw [Rule.separated] at reads
  rcases reads_bind.mp reads with ⟨first, middle, once, reads⟩
  rcases reads_bind.mp reads with ⟨others, _, again, reads⟩
  rcases reads_pure.mp reads with ⟨-, rfl, rfl⟩
  rcases sound _ _ _ once with ⟨before, taken, phrased⟩
  rcases sound.further others again phrased
    with ⟨tokens, othersTaken, othersPhrased⟩
  refine ⟨before ++ tokens, ?_, othersPhrased⟩
  rw [taken, othersTaken, List.append_assoc]

/-- What is read between two tokens is a list of phrases, which may be empty. -/
theorem Sound.enclosed
    {item : Rule α}
    {phrase : Phrase α}
    (sound : Sound item phrase)
    {closer : TokenKind}
    (isToken : closer ≠ .endOfFile)
    (part : Part) :
    Sound (enclosed item closer part)
      (fun all values =>
        ∃ tokens closing, all = tokens ++ [closing] ∧
          ListPhrase phrase tokens values ∧ closing.kind = closer) := by
  intro state values next reads
  rw [Rule.enclosed] at reads
  rcases reads_bind.mp reads with ⟨_, middle, listed, reads⟩
  rw [reads_expect_bind, reads_pure] at reads
  rcases reads with ⟨closes, -, rfl, rfl⟩
  have closed := State.rest_of_kind closes isToken
  rw [separatedUnless, reads_ask_bind] at listed
  split at listed
  · next atOnce =>
      rcases reads_pure.mp listed with ⟨-, rfl, rfl⟩
      exact ⟨[_], closed, [], _, rfl, .none, closes⟩
  · next =>
      rcases sound.separated _ _ _ listed with ⟨tokens, taken, phrased⟩
      refine ⟨tokens ++ [middle.current], ?_, tokens, _, rfl,
        .some phrased, closes⟩
      rw [taken, closed, List.append_assoc, List.singleton_append]

end Rule

open Rule

/-! ## Primaries -/

section

variable {nested : Rule Expr} {phrase : Phrase Expr}

/--
What is read from an opening parenthesis on is an expression
between parentheses.
-/
theorem sound_parenthesized
    (sound : Sound nested phrase)
    {state next : State}
    {tree : Expr}
    (opens : state.kind = .leftParenthesis)
    (reads : Reads (parenthesized nested) state tree next) :
    ∃ tokens, state.rest = tokens ++ next.rest ∧
      PrimaryPhrase phrase tokens tree := by
  rw [parenthesized, reads_advance_bind] at reads
  rcases reads_bind.mp reads with ⟨inner, middle, read, reads⟩
  rw [reads_expect_bind, spanFrom, reads_ask_bind, reads_pure] at reads
  rcases reads with ⟨closes, -, rfl, rfl⟩
  rcases sound _ _ _ read with ⟨tokens, taken, phrased⟩
  refine ⟨_, ?_, .parenthesized opens phrased closes _⟩
  rw [State.rest_of_kind opens (by decide), taken,
    State.rest_of_kind closes (by decide)]
  simp

/--
What is read from an opening brace on is an array, if no bar
comes after the brace.
-/
theorem sound_arrayLiteral
    (sound : Sound nested phrase)
    {state next : State}
    {tree : Expr}
    (opens : state.kind = .leftBrace)
    (reads : Reads (arrayLiteral nested) state tree next) :
    ∃ tokens, state.rest = tokens ++ next.rest ∧
      PrimaryPhrase phrase tokens tree := by
  rw [arrayLiteral, reads_advance_bind] at reads
  rcases reads_bind.mp reads with ⟨elements, _, read, reads⟩
  rw [spanFrom, reads_ask_bind, reads_pure] at reads
  rcases reads with ⟨-, rfl, rfl⟩
  rcases sound.enclosed (by decide) _ _ _ _ read with
    ⟨_, taken, tokens, closing, rfl, phrased, closes⟩
  refine ⟨_, ?_, .array opens phrased closes _⟩
  rw [State.rest_of_kind opens (by decide), taken]
  simp

/-- What is read from a brace and a bar on is a code block. -/
theorem sound_codeBlock
    (sound : Sound nested phrase)
    {state next : State}
    {tree : Expr}
    (opens : state.kind = .leftBrace)
    (bars : state.secondKind = .bar)
    (reads : Reads (codeBlock nested) state tree next) :
    ∃ tokens, state.rest = tokens ++ next.rest ∧
      PrimaryPhrase phrase tokens tree := by
  rw [codeBlock, reads_advance_bind, reads_advance_bind] at reads
  rcases reads_bind.mp reads with ⟨parameters, middle, named, reads⟩
  rcases reads_bind.mp reads with ⟨body, _, read, reads⟩
  rw [spanFrom, reads_ask_bind, reads_pure] at reads
  rcases reads with ⟨-, rfl, rfl⟩
  rw [← State.kind_advance] at bars
  rcases (Sound.expectName .bar).enclosed (by decide) _ _ _ _ named with
    ⟨_, namesTaken, names, secondBar, rfl, namesPhrased, secondBars⟩
  rcases sound.enclosed (by decide) _ _ _ _ read with
    ⟨_, taken, tokens, closing, rfl, phrased, closes⟩
  refine ⟨_, ?_, .codeBlock opens bars namesPhrased secondBars phrased closes _⟩
  rw [State.rest_of_kind opens (by decide), State.rest_of_kind bars (by decide),
    namesTaken, taken]
  simp

/--
What is read as a primary is one.  The cases are the tokens with
which a primary begins.
-/
theorem sound_primary (sound : Sound nested phrase) :
    Sound (primary nested) (PrimaryPhrase phrase) := by
  intro state tree next reads
  rw [primary, reads_ask_bind] at reads
  split at reads
  · next value isLiteral =>
      rw [reads_advance_bind, reads_pure] at reads
      rcases reads with ⟨-, rfl, rfl⟩
      have isToken : state.current.kind ≠ .endOfFile := by
        intro ended
        rw [literal?, ended] at isLiteral
        cases isLiteral
      exact ⟨[state.current], State.rest_of_kind rfl isToken,
        .literal isLiteral _⟩
  · split at reads
    · next isName =>
        rw [reads_advance_bind, reads_pure] at reads
        rcases reads with ⟨-, rfl, rfl⟩
        exact ⟨[state.current], State.rest_of_kind isName (by decide),
          .name (.name isName _) _⟩
    · next opens => exact sound_parenthesized sound opens reads
    · next opens =>
        rw [reads_ask_bind] at reads
        split at reads
        · next bars => exact sound_codeBlock sound opens bars reads
        · exact sound_arrayLiteral sound opens reads
    · rw [invalidToken, reads_ask_bind] at reads
      rcases reads_bind.mp reads with ⟨_, _, reported, -⟩
      exact absurd reported not_reads_reportHere
    · rw [noExpression, reads_ask_bind] at reads
      rcases reads_bind.mp reads with ⟨_, _, failed, -⟩
      exact absurd failed not_reads_fail

/-! ## Suffixes -/

/--
The invariant of the loop over suffixes.  Where the tokens taken end in a
message, no parenthesis is ahead: it would have opened the arguments.
-/
structure Prolonged
    (phrase : Phrase Expr)
    (before : List Token)
    (target : Expr)
    (state : State) : Prop where
  phrased : SuffixedPhrase phrase before target
  free : EndsInMessage before → state.kind ≠ .leftParenthesis

section

variable
  {before : List Token}
  {target : Expr}
  {token : Token}
  {state next : State}
  {form : SuffixForm}

/--
A phrase that does not end in a message is prolonged by arguments to a call.
-/
theorem prolonged_call
    (sound : Sound nested phrase)
    (phrased : SuffixedPhrase phrase before target)
    (noMessage : ¬ EndsInMessage before)
    (opens : token.kind = .leftParenthesis)
    (reads :
      Reads
        (do pure (SuffixForm.call
          (← enclosed nested .rightParenthesis .arguments))) state form
        next)
    (stop : Nat) :
    ∃ tokens, state.rest = tokens ++ next.rest ∧
      Prolonged phrase (before ++ token :: tokens)
        (Suffix.apply target ⟨form, stop⟩) next := by
  rcases reads_bind.mp reads with ⟨arguments, _, read, ended⟩
  rcases reads_pure.mp ended with ⟨-, rfl, rfl⟩
  rcases sound.enclosed (by decide) _ _ _ _ read with
    ⟨_, taken, tokens, closing, rfl, between, closes⟩
  refine ⟨_, taken, .call phrased noMessage opens between closes _, ?_⟩
  intro ends
  simpa [closes, List.getLast?_cons] using ends.kind_getLast?

/-- A phrase is prolonged by a position between brackets. -/
theorem prolonged_index
    (sound : Sound nested phrase)
    (phrased : SuffixedPhrase phrase before target)
    (opens : token.kind = .leftBracket)
    (reads :
      Reads
        (do
          let position ← nested
          expect .rightBracket .index
          pure (SuffixForm.index position))
        state form next)
    (stop : Nat) :
    ∃ tokens, state.rest = tokens ++ next.rest ∧
      Prolonged phrase (before ++ token :: tokens)
        (Suffix.apply target ⟨form, stop⟩) next := by
  rcases reads_bind.mp reads with ⟨position, middle, read, continued⟩
  rw [reads_expect_bind, reads_pure] at continued
  rcases continued with ⟨closes, -, rfl, rfl⟩
  rcases sound _ _ _ read with ⟨tokens, taken, between⟩
  refine ⟨tokens ++ [middle.current], ?_,
    .index phrased opens between closes _, ?_⟩
  · rw [taken, State.rest_of_kind closes (by decide)]
    simp
  · intro ends
    have bracket : middle.current.kind = .rightBracket := closes
    simpa [bracket, List.getLast?_cons] using ends.kind_getLast?

/-- A message takes the parenthesis after its name, if one is ahead. -/
theorem prolonged_message
    (sound : Sound nested phrase)
    (phrased : SuffixedPhrase phrase before target)
    (colons : token.kind = .colon)
    (reads : Reads (message nested) state form next)
    (stop : Nat) :
    ∃ tokens, state.rest = tokens ++ next.rest ∧
      Prolonged phrase (before ++ token :: tokens)
        (Suffix.apply target ⟨form, stop⟩) next := by
  rw [message, reads_expectName_bind, reads_ask_bind] at reads
  rcases reads with ⟨named, reads⟩
  rw [reads.calm.steady, if_neg Bool.false_ne_true, reads_eat_ite] at reads
  have taken := State.rest_of_kind named (by decide)
  rcases reads with ⟨opens, sends⟩ | ⟨closed, ended⟩
  · rcases reads_bind.mp sends with ⟨arguments, _, read, ended⟩
    rcases reads_pure.mp ended with ⟨-, rfl, rfl⟩
    rcases sound.enclosed (by decide) _ _ _ _ read with
      ⟨_, further, tokens, closing, rfl, between, closes⟩
    refine ⟨[state.current] ++ state.advance.current ::
      (tokens ++ [closing]), ?_,
      .send phrased colons (.name named _) opens between closes _, ?_⟩
    · rw [taken, State.rest_of_kind opens (by decide), further]
      simp
    · intro ends
      simpa [closes, List.getLast?_cons] using ends.kind_getLast?
  · rcases reads_pure.mp ended with ⟨-, rfl, rfl⟩
    exact ⟨[state.current], taken, .property phrased colons (.name named _) _,
      fun _ => closed⟩

/-- A phrase is prolonged by an arrow and the name of a field. -/
theorem prolonged_field
    (phrased : SuffixedPhrase phrase before target)
    (arrows : token.kind = .arrow)
    (reads : Reads (do pure (SuffixForm.field (← expectName .arrow)))
      state form next)
    (stop : Nat) :
    ∃ tokens, state.rest = tokens ++ next.rest ∧
      Prolonged phrase (before ++ token :: tokens)
        (Suffix.apply target ⟨form, stop⟩) next := by
  rw [reads_expectName_bind, reads_pure] at reads
  rcases reads with ⟨named, -, rfl, rfl⟩
  refine ⟨[state.current], State.rest_of_kind named (by decide),
    .field phrased arrows (.name named _) _, ?_⟩
  intro ends
  rw [endsInMessage_append_pair, arrows] at ends
  cases ends.1

/-- One round of the loop keeps the invariant, whatever opens the suffix. -/
theorem prolonged_form
    (sound : Sound nested phrase)
    (phrased : SuffixedPhrase phrase before target)
    (free : EndsInMessage before → token.kind ≠ .leftParenthesis)
    {rule : Rule SuffixForm}
    (opened : suffixForm? nested token.kind = some rule)
    (reads : Reads rule state form next)
    (stop : Nat) :
    ∃ tokens, state.rest = tokens ++ next.rest ∧
      Prolonged phrase (before ++ token :: tokens)
        (Suffix.apply target ⟨form, stop⟩) next := by
  unfold suffixForm? at opened
  split at opened
  · next opens =>
      cases opened
      exact prolonged_call sound phrased (fun ends => free ends opens)
        opens reads stop
  · next opens =>
      cases opened
      exact prolonged_index sound phrased opens reads stop
  · next colons =>
      cases opened
      exact prolonged_message sound phrased colons reads stop
  · next arrows =>
      cases opened
      exact prolonged_field phrased arrows reads stop
  · cases opened

end

/--
A phrase is prolonged by any suffix that is read behind it.  The cases are the
signs that open suffixes.
-/
theorem prolonged_suffix
    (sound : Sound nested phrase)
    {before : List Token}
    {target : Expr}
    {state middle : State}
    {token : Token}
    {rest : List Token}
    {rule : Rule Suffix}
    {suffix : Suffix}
    (prolonged : Prolonged phrase before target state)
    (shape : state.rest = token :: rest)
    (opened : suffix? nested token = some rule)
    (reads : Reads rule state.advance suffix middle) :
    ∃ tokens, state.advance.rest = tokens ++ middle.rest ∧
      Prolonged phrase (before ++ token :: tokens) (Suffix.apply target suffix)
        middle := by
  rw [suffix?, Option.map_eq_some_iff] at opened
  rcases opened with ⟨formRule, opened, rfl⟩
  rcases reads_bind.mp reads with ⟨form, _, read, reads⟩
  rw [reads_ask_bind, reads_pure] at reads
  rcases reads with ⟨-, rfl, rfl⟩
  have free := prolonged.free
  rw [State.kind_of_rest shape] at free
  exact prolonged_form sound prolonged.phrased free opened read _

/--
What is read as a primary with suffixes is one: each round of the loop
prolongs the phrase by a suffix.
-/
theorem sound_suffixed (sound : Sound nested phrase) :
    Sound (suffixed nested) (SuffixedPhrase phrase) := by
  intro state tree next reads
  rw [suffixed] at reads
  rcases reads_bind.mp reads with ⟨target, middle, once, reads⟩
  rcases reads_bind.mp reads with ⟨suffixes, _, again, reads⟩
  rcases reads_pure.mp reads with ⟨-, rfl, rfl⟩
  rcases sound_primary sound _ _ _ once with ⟨before, taken, phrased⟩
  have prolonged : Prolonged phrase before target middle :=
    ⟨.primary phrased, fun ends => absurd ends phrased.not_endsInMessage⟩
  rcases Reads.many_foldl Suffix.apply (Prolonged phrase)
    (prolonged_suffix sound) suffixes
      prolonged again with
    ⟨tokens, furtherTaken, all⟩
  refine ⟨before ++ tokens, ?_, all.phrased⟩
  rw [taken, furtherTaken, List.append_assoc]

end

/-! ## Operators -/

/--
A rule that is tried only outside of a recovery reads what it reads by itself,
as a reading without a report never recovers.
-/
theorem reads_unlessRecovering
    {rule : Rule Expr}
    {state next : State}
    {tree : Expr} :
    Reads (unlessRecovering rule) state tree next ↔
    Reads rule state tree next := by
  rw [unlessRecovering, reads_ask_bind]
  constructor
  · intro reads
    rw [reads.calm.steady, if_neg Bool.false_ne_true] at reads
    exact reads
  · intro reads
    rw [reads.calm.steady, if_neg Bool.false_ne_true]
    exact reads

theorem Rule.Sound.unlessRecovering
    {rule : Rule Expr}
    {phrase : Phrase Expr}
    (sound : Sound rule phrase) :
    Sound (unlessRecovering rule) phrase :=
  fun _ _ _ reads => sound _ _ _ (reads_unlessRecovering.mp reads)

/-- A reading that is cut off reports so. -/
theorem sound_tooDeep : Sound tooDeep .never := by
  intro state tree next reads
  rw [tooDeep] at reads
  rcases reads_bind.mp reads with ⟨_, _, cut, -⟩
  exact absurd cut not_reads_cutOff

section

variable {operand : Rule Expr} {phrase : Phrase Expr}

/-- A chain is prolonged by an operator of its level and an operand. -/
theorem chained_operation
    {level : Nat}
    (sound : Sound operand phrase)
    {before : List Token}
    {left : Expr}
    {state middle : State}
    {sign : Token}
    {rule : Rule (BinaryOperator × Expr)}
    {operation : BinaryOperator × Expr}
    (phrased : ChainPhrase level phrase before left)
    (opened : rightOperand? level operand sign = some rule)
    (reads : Reads rule state.advance operation middle) :
    ∃ tokens, state.advance.rest = tokens ++ middle.rest ∧
      ChainPhrase level phrase (before ++ sign :: tokens)
        (joinRight left operation) := by
  unfold rightOperand? at opened
  split at opened
  · next operator signs =>
      split at opened
      · next binds =>
          cases opened
          rcases reads_bind.mp reads with ⟨right, _, read, reads⟩
          rcases reads_pure.mp reads with ⟨-, rfl, rfl⟩
          rcases sound _ _ _ read with ⟨tokens, taken, rightPhrased⟩
          exact ⟨tokens, taken, .join phrased signs binds rightPhrased _⟩
      · cases opened
  · cases opened

/--
What is read as a chain of one level is one: each round of the loop prolongs
the chain by an operator and an operand of the next level.
-/
theorem sound_chain
    (level : Nat)
    (sound : Sound operand phrase) :
    Sound (chain level operand) (ChainPhrase level phrase) := by
  intro state tree next reads
  rw [chain] at reads
  rcases reads_bind.mp reads with ⟨first, middle, once, reads⟩
  rcases reads_bind.mp reads with ⟨operations, _, again, reads⟩
  rcases reads_pure.mp reads with ⟨-, rfl, rfl⟩
  rcases sound _ _ _ once with ⟨before, taken, phrased⟩
  rcases Reads.many_foldl joinRight
    (fun before left _ => ChainPhrase level phrase before left)
      (fun chained _ => chained_operation sound chained) operations
      (.operand phrased) again with
    ⟨tokens, furtherTaken, all⟩
  refine ⟨before ++ tokens, ?_, all⟩
  rw [taken, furtherTaken, List.append_assoc]

theorem sound_binary (sound : Sound operand phrase) :
    Sound (binary operand) (BinaryPhrase phrase) :=
  sound_chain 1 (sound_chain 2 (sound_chain 3 (sound_chain 4 (sound_chain 5
    (sound_chain 6 sound)))))

/--
What is read behind a prefix operator is an operand, and with the
operator it is one too.
-/
theorem sound_prefixed
    {nested : Phrase Expr}
    (sound : Sound operand phrase)
    {operator : UnaryOperator}
    {state next : State}
    {tree : Expr}
    (signs : UnaryOperator.ofKind? state.kind = some operator)
    (reads : Reads (prefixed operand operator) state tree next) :
    ∃ tokens, state.rest = tokens ++ next.rest ∧
      PrefixedPhrase phrase nested tokens tree := by
  rw [prefixed, reads_advance_bind] at reads
  rcases reads_bind.mp reads with ⟨inner, _, read, reads⟩
  rw [spanFrom, reads_ask_bind, reads_pure] at reads
  rcases reads with ⟨-, rfl, rfl⟩
  rcases sound _ _ _ read with ⟨tokens, taken, phrased⟩
  have isToken : state.kind ≠ .endOfFile := by
    intro ended
    rw [ended] at signs
    cases signs
  refine ⟨state.current :: tokens, ?_, .operator signs phrased _⟩
  rw [State.rest_of_kind rfl isToken, taken]
  simp

end

/--
What is read as an operand is one, with as many levels as were left.  The
induction is on the levels.
-/
theorem sound_operand (levels : Nat) :
    Sound (operand levels) (OperandPhrase levels) := by
  induction levels with
  | zero =>
      intro state tree next reads
      rw [operand, reads_ask_bind] at reads
      split at reads
      · rcases sound_tooDeep _ _ _ reads with ⟨_, _, impossible⟩
        cases impossible
      · rcases sound_suffixed sound_tooDeep.unlessRecovering _ _ _ reads with
          ⟨tokens, taken, phrased⟩
        exact ⟨tokens, taken, .suffixed phrased⟩
  | succ levels hypothesis =>
      intro state tree next reads
      rw [operand, reads_ask_bind] at reads
      split at reads
      · next operator signs => exact sound_prefixed hypothesis signs reads
      · rcases sound_suffixed (sound_binary hypothesis).unlessRecovering _ _
          _ reads with
            ⟨tokens, taken, phrased⟩
        exact ⟨tokens, taken, .suffixed phrased⟩

/-- What is read as an expression without a report spells the expression. -/
theorem sound_expression (levels : Nat) :
    Sound (expression levels) (ExpressionPhrase levels) := by
  cases levels with
  | zero => exact sound_tooDeep.unlessRecovering
  | succ levels => exact (sound_binary (sound_operand levels)).unlessRecovering

end Clipper.Grammar
