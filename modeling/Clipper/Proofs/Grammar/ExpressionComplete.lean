import Mathlib.Data.List.TakeWhile
import Clipper.Proofs.Grammar.Complete

/-!
# Every phrase of an expression is read

The rules for expressions are complete for their phrases, and the value they
read is the tree of the phrase up to spans.  With the other direction, the
reader of expressions accepts exactly its grammar.

There is one lemma for each rule, and the induction on the levels puts them
together.  A phrase that may be prolonged needs care: a name may go on with a
parenthesis, and an operand with an operator of its level.  Therefore every
lemma is told by which tokens its phrase is not prolonged, and a rule of a
lower level hands the condition up.  The loops over suffixes and operators are
complete because what they have read so far is a phrase that is underway.
-/

namespace Clipper.Grammar

open Rule

/-! ## Where an expression stops -/

/-- The tokens that open a suffix. -/
def opensSuffix : TokenKind → Bool
  | .leftParenthesis | .leftBracket | .colon | .arrow => true
  | _ => false

/-- No suffix, and no operator that binds at this level or tighter. -/
structure Stops (level : Nat) (kind : TokenKind) : Prop where
  noSuffix : opensSuffix kind = false
  noOperator : ∀ operator, BinaryOperator.ofKind? kind = some operator →
    operator.level < level

theorem Stops.mono
    {level higher : Nat}
    (le : level ≤ higher)
    {kind : TokenKind}
    (stops : Stops level kind) :
    Stops higher kind :=
  ⟨stops.noSuffix, fun operator signs =>
    Nat.lt_of_lt_of_le (stops.noOperator operator signs) le⟩

/-- Where neither a suffix nor an operator begins, every expression stops. -/
theorem stops_of_delimiter
    {kind : TokenKind}
    (noSuffix : opensSuffix kind = false)
    (noOperator : BinaryOperator.ofKind? kind = none)
    (level : Nat) :
    Stops level kind := by
  refine ⟨noSuffix, ?_⟩
  intro operator signs
  rw [noOperator] at signs
  cases signs

theorem suffix?_eq_none
    (nested : Rule Expr)
    {token : Token}
    (noSuffix : opensSuffix token.kind = false) :
    suffix? nested token = none := by
  have noForm : suffixForm? nested token.kind = none := by
    cases kind : token.kind <;>
      first | rfl | (rw [kind] at noSuffix; cases noSuffix)
  rw [suffix?, noForm, Option.map_none]

/-- An operator is no suffix. -/
theorem noSuffix_of_operator
    {kind : TokenKind}
    {operator : BinaryOperator}
    (signs : BinaryOperator.ofKind? kind = some operator) :
    opensSuffix kind = false := by
  cases kind <;> first | rfl | cases signs

/-! ## Primaries -/

section

variable {nested : Rule Expr} {phrase : Phrase Expr}

/--
A list of values is read up to the token that closes it.  Whether there is a
value at all is told by the next token, since every value begins with a token
that opens expressions and the closing one does not.
-/
theorem complete_arguments
    (complete : Complete nested phrase (Stops 1) Expr.bare)
    (begins : Begins phrase (fun kind => opensExpression kind = true))
    {closer : TokenKind}
    (closes : closer = .rightParenthesis ∨ closer = .rightBrace)
    (part : Part)
    {state : State}
    {tokens after : List Token}
    {closing : Token}
    {values : List Expr}
    (calm : state.Calm)
    (shape : state.rest = tokens ++ closing :: after)
    (phrased : ListPhrase phrase tokens values)
    (closed : closing.kind = closer) :
    ∃ results next, Reads (enclosed nested closer part) state results next ∧
      next.rest = after ∧ results.map Expr.bare = values.map Expr.bare := by
  have atCloser : Stops 1 closer ∧ closer ≠ .comma ∧
      opensExpression closer = false := by
    rcases closes with rfl | rfl
    · exact ⟨stops_of_delimiter rfl rfl 1, by decide, rfl⟩
    · exact ⟨stops_of_delimiter rfl rfl 1, by decide, rfl⟩
  refine complete.enclosed (stops_of_delimiter rfl rfl 1) atCloser.1
    atCloser.2.1 (begins.mono ?_) part calm shape phrased closed
  intro kind opens same
  rw [same, atCloser.2.2] at opens
  cases opens

/-- The parameters of a code block are read up to the second bar. -/
theorem complete_parameters
    {state : State}
    {tokens after : List Token}
    {closing : Token}
    {names : List Identifier}
    (calm : state.Calm)
    (shape : state.rest = tokens ++ closing :: after)
    (phrased : ListPhrase NamePhrase tokens names)
    (closed : closing.kind = .bar) :
    ∃ results next,
      Reads (enclosed (expectName .bar) .bar .codeBlockParameters) state
        results next ∧
        next.rest = after ∧ results.map Identifier.bare =
          names.map Identifier.bare := by
  refine (complete_expectName .bar).enclosed trivial trivial
    (by decide) ?_ _ calm shape phrased closed
  intro tokens name phrased
  cases phrased with
  | name kind =>
      refine ⟨List.cons_ne_nil _ _, ?_⟩
      rw [headKind, kind]
      decide

/--
An expression between parentheses is read, and its value is the
expression with another span.
-/
theorem complete_parenthesized
    (complete : Complete nested phrase (Stops 1) Expr.bare)
    {state : State}
    {opening closing : Token}
    {tokens after : List Token}
    {inner : Expr}
    (calm : state.Calm)
    (shape : state.rest = opening :: (tokens ++ closing :: after))
    (phrased : phrase tokens inner)
    (closes : closing.kind = .rightParenthesis) :
    ∃ result next, Reads (parenthesized nested) state result next ∧
      next.rest = after ∧
      result.bare = inner.bare := by
  have stops : Stops 1 (headKind (closing :: after)) := by
    rw [headKind, closes]
    exact stops_of_delimiter rfl rfl 1
  rcases complete calm.advance (State.rest_advance shape) phrased stops with
    ⟨result, middle, reads, ahead, same⟩
  have closed : middle.kind = .rightParenthesis :=
    (State.kind_of_rest ahead).trans closes
  refine ⟨_, middle.advance,
    reads_advance_bind.mpr (reads_bind.mpr ⟨result, middle, reads,
      reads_expect_bind.mpr ⟨closed, reads_ask_bind.mpr
        (reads_pure.mpr ⟨reads.calm_next.advance, rfl, rfl⟩)⟩⟩),
    State.rest_advance ahead, ?_⟩
  rw [Expr.bare_withSpan, same]

/-- The elements of an array are read up to the closing brace. -/
theorem complete_arrayLiteral
    (complete : Complete nested phrase (Stops 1) Expr.bare)
    (begins : Begins phrase (fun kind => opensExpression kind = true))
    {state : State}
    {opening closing : Token}
    {tokens after : List Token}
    {elements : List Expr}
    (calm : state.Calm)
    (shape : state.rest = opening :: (tokens ++ closing :: after))
    (phrased : ListPhrase phrase tokens elements)
    (closes : closing.kind = .rightBrace)
    (span : Span) :
    ∃ result next, Reads (arrayLiteral nested) state result next ∧
      next.rest = after ∧
      result.bare = (Expr.array elements span).bare := by
  rcases complete_arguments complete begins (Or.inr rfl) .arrayElements
    calm.advance
      (State.rest_advance shape) phrased closes with
    ⟨results, next, reads, ahead, same⟩
  refine ⟨_, next,
    reads_advance_bind.mpr (reads_bind.mpr ⟨results, next, reads,
      reads_ask_bind.mpr (reads_pure.mpr ⟨reads.calm_next, rfl, rfl⟩)⟩),
    ahead, ?_⟩
  simp only [Expr.bare, Expr.bareAll_eq_map, same]

/--
A code block is read: its parameters between bars, and its expressions up
to the closing brace.
-/
theorem complete_codeBlock
    (complete : Complete nested phrase (Stops 1) Expr.bare)
    (begins : Begins phrase (fun kind => opensExpression kind = true))
    {state : State}
    {opening firstBar secondBar closing : Token}
    {names tokens after : List Token}
    {parameters : List Identifier}
    {body : List Expr}
    (calm : state.Calm)
    (shape :
      state.rest = opening :: firstBar ::
        (names ++ secondBar :: (tokens ++ closing :: after)))
    (named : ListPhrase NamePhrase names parameters)
    (bars : secondBar.kind = .bar)
    (phrased : ListPhrase phrase tokens body)
    (closes : closing.kind = .rightBrace)
    (span : Span) :
    ∃ result next, Reads (codeBlock nested) state result next ∧
      next.rest = after ∧
      result.bare = (Expr.codeBlock parameters body span).bare := by
  have opened := State.rest_advance (State.rest_advance shape)
  rcases complete_parameters calm.advance.advance opened named bars with
    ⟨identifiers, middle, namesRead, ahead, sameNames⟩
  rcases complete_arguments complete begins (Or.inr rfl) .codeBlock
    namesRead.calm_next ahead
      phrased closes with
    ⟨results, next, reads, atEnd, same⟩
  refine ⟨_, next,
    reads_advance_bind.mpr
      (reads_advance_bind.mpr (reads_bind.mpr ⟨identifiers, middle, namesRead,
        reads_bind.mpr ⟨results, next, reads,
          reads_ask_bind.mpr (reads_pure.mpr ⟨reads.calm_next, rfl, rfl⟩)⟩⟩)),
    atEnd, ?_⟩
  simp only [Expr.bare, Expr.bareAll_eq_map, same, sameNames]

/--
Every primary is read.  The cases are the forms of the phrase, each of which
is told by the token it begins with.
-/
theorem complete_primary
    (complete : Complete nested phrase (Stops 1) Expr.bare)
    (begins : Begins phrase (fun kind => opensExpression kind = true)) :
    Complete (primary nested) (PrimaryPhrase phrase)
      (fun _ => True) Expr.bare := by
  intro state tokens after tree calm shape phrased _
  cases phrased with
  | @literal token value isLiteral span =>
      have read : Reads (primary nested) state (.literal value token.span)
          state.advance := by
        rw [primary, reads_ask_bind, State.current_of_rest shape, isLiteral]
        exact reads_advance_bind.mpr (reads_pure.mpr ⟨calm.advance, rfl, rfl⟩)
      exact ⟨_, _, read, State.rest_advance shape, rfl⟩
  | name name span =>
      cases name with
      | @name token kind place =>
          have read : Reads (primary nested) state
              (.ofIdentifier ⟨token.lexeme, token.span⟩) state.advance := by
            rw [primary, reads_ask_bind, State.current_of_rest shape,
              literal?, kind]
            exact reads_advance_bind.mpr
              (reads_pure.mpr ⟨calm.advance, rfl, rfl⟩)
          exact ⟨_, _, read, State.rest_advance shape, rfl⟩
  | @parenthesized opening closing tokens inner opens between closes span =>
      have dispatch : ∀ result next,
          Reads (parenthesized nested) state result next →
            Reads (primary nested) state result next := by
        intro result next reads
        rw [primary, reads_ask_bind, State.current_of_rest shape,
          literal?, opens]
        exact reads
      have ahead : state.rest = opening :: (tokens ++ closing :: after) := by
        simp [shape]
      rcases complete_parenthesized complete calm ahead between closes with
        ⟨result, next, reads, atEnd, same⟩
      refine ⟨result, next, dispatch _ _ reads, atEnd, ?_⟩
      rw [same, Expr.bare_withSpan]
  | @array opening closing tokens elements opens between closes span =>
      have ahead : state.rest = opening :: (tokens ++ closing :: after) := by
        simp [shape]
      -- No element and no closing brace is a bar, so this is no code block.
      have noBar : state.secondKind ≠ .bar := by
        rw [← State.kind_advance, State.kind_eq_headKind,
          State.rest_advance ahead]
        cases between with
        | none => simp [headKind, closes]
        | some items =>
            rcases begins.separated _ _ items with ⟨nonempty, opensItem⟩
            rw [headKind_append nonempty]
            intro same
            rw [same] at opensItem
            cases opensItem
      rcases complete_arrayLiteral complete begins calm ahead between
        closes span with
          ⟨result, next, reads, atEnd, same⟩
      refine ⟨result, next, ?_, atEnd, same⟩
      rw [primary, reads_ask_bind, State.current_of_rest shape, literal?, opens]
      refine reads_ask_bind.mpr ?_
      rw [if_neg noBar]
      exact reads
  | @codeBlock opening firstBar secondBar closing names tokens parameters body
      opens firstBars named secondBars after' closes span =>
      have ahead : state.rest =
          opening :: firstBar ::
            (names ++ secondBar :: (tokens ++ closing :: after)) := by
        simp [shape]
      have bar : state.secondKind = .bar := by
        rw [← State.kind_advance, State.kind_of_rest (State.rest_advance ahead),
          firstBars]
      rcases complete_codeBlock complete begins calm ahead named secondBars
        after' closes span with
          ⟨result, next, reads, atEnd, same⟩
      refine ⟨result, next, ?_, atEnd, same⟩
      rw [primary, reads_ask_bind, State.current_of_rest shape, literal?, opens]
      refine reads_ask_bind.mpr ?_
      rw [if_pos bar]
      exact reads

/-! ## Suffixes -/

/--
One more suffix: its token is ahead, and its form is read after the token.
-/
theorem underway_suffix
    {state middle next : State}
    {target : Expr}
    {token : Token}
    {rest : List Token}
    {rule : Rule SuffixForm}
    {form : SuffixForm}
    (underway : Underway (suffixed nested) (suffix? nested) Suffix.apply state
      target middle)
    (ahead : middle.rest = token :: rest)
    (opened : suffixForm? nested token.kind = some rule)
    (reads : Reads rule middle.advance form next) :
    Underway (suffixed nested) (suffix? nested) Suffix.apply state
      (Suffix.apply target ⟨form, next.reached⟩) next := by
  have opens : suffix? nested token =
      some (rule >>= fun form => ask State.reached >>= fun stop =>
        pure ⟨form, stop⟩) := by
    rw [suffix?, opened, Option.map_some]
  exact underway.round ahead opens
    (reads_bind.mpr ⟨form, next, reads,
      reads_ask_bind.mpr (reads_pure.mpr ⟨reads.calm_next, rfl, rfl⟩)⟩)

/-- The arguments of a call are read up to the closing parenthesis. -/
theorem complete_call
    (complete : Complete nested phrase (Stops 1) Expr.bare)
    (begins : Begins phrase (fun kind => opensExpression kind = true))
    {state : State}
    {tokens after : List Token}
    {closing : Token}
    {arguments : List Expr}
    (calm : state.Calm)
    (shape : state.rest = tokens ++ closing :: after)
    (phrased : ListPhrase phrase tokens arguments)
    (closes : closing.kind = .rightParenthesis) :
    ∃ results next,
      Reads
        (do pure (SuffixForm.call
          (← enclosed nested .rightParenthesis .arguments))) state
          (.call results) next ∧
        next.rest = after ∧ results.map Expr.bare =
          arguments.map Expr.bare := by
  rcases complete_arguments complete begins (Or.inl rfl) .arguments calm shape
    phrased closes with
      ⟨results, next, reads, atEnd, same⟩
  refine ⟨results, next, ?_, atEnd, same⟩
  exact reads_bind.mpr
    ⟨results, next, reads, reads_pure.mpr ⟨reads.calm_next, rfl, rfl⟩⟩

/-- The position between brackets is read up to the closing one. -/
theorem complete_index
    (complete : Complete nested phrase (Stops 1) Expr.bare)
    {state : State}
    {tokens after : List Token}
    {closing : Token}
    {position : Expr}
    (calm : state.Calm)
    (shape : state.rest = tokens ++ closing :: after)
    (phrased : phrase tokens position)
    (closes : closing.kind = .rightBracket) :
    ∃ result next,
      Reads
          (do
            let position ← nested
            expect .rightBracket .index
            pure (SuffixForm.index position))
          state (.index result) next ∧
        next.rest = after ∧ result.bare = position.bare := by
  have stops : Stops 1 (headKind (closing :: after)) := by
    rw [headKind, closes]
    exact stops_of_delimiter rfl rfl 1
  rcases complete calm shape phrased stops
    with ⟨result, next, reads, atEnd, same⟩
  have closed : next.kind = .rightBracket :=
    (State.kind_of_rest atEnd).trans closes
  refine ⟨result, next.advance, reads_bind.mpr ⟨result, next, reads, ?_⟩,
    State.rest_advance atEnd, same⟩
  rw [reads_expect_bind, reads_pure]
  exact ⟨closed, reads.calm_next.advance, rfl, rfl⟩

/--
A message without arguments is read, if no parenthesis comes after its name.
-/
theorem complete_property
    (nested : Rule Expr)
    {state : State}
    {token : Token}
    {after : List Token}
    (calm : state.Calm)
    (shape : state.rest = token :: after)
    (kind : token.kind = .identifier)
    (free : headKind after ≠ .leftParenthesis) :
    Reads (message nested) state (.property ⟨token.lexeme, token.span⟩)
      state.advance := by
  have closed : state.advance.kind ≠ .leftParenthesis := by
    rwa [State.kind_eq_headKind, State.rest_advance shape]
  rw [message, reads_expectName_bind, reads_ask_bind, calm.advance.steady,
    if_neg Bool.false_ne_true, State.current_of_rest shape, reads_eat_ite]
  exact ⟨(State.kind_of_rest shape).trans kind,
    Or.inr ⟨closed, reads_pure.mpr ⟨calm.advance, rfl, rfl⟩⟩⟩

/-- A message with arguments is read up to the parenthesis that closes them. -/
theorem complete_send
    (complete : Complete nested phrase (Stops 1) Expr.bare)
    (begins : Begins phrase (fun kind => opensExpression kind = true))
    {state : State}
    {token opening closing : Token}
    {tokens after : List Token}
    {arguments : List Expr}
    (calm : state.Calm)
    (shape : state.rest = token :: opening :: (tokens ++ closing :: after))
    (kind : token.kind = .identifier)
    (opens : opening.kind = .leftParenthesis)
    (phrased : ListPhrase phrase tokens arguments)
    (closes : closing.kind = .rightParenthesis) :
    ∃ results next,
      Reads (message nested) state
        (.send ⟨token.lexeme, token.span⟩ results) next ∧
        next.rest = after ∧ results.map Expr.bare =
          arguments.map Expr.bare := by
  have opened := State.rest_advance shape
  rcases complete_arguments complete begins (Or.inl rfl) .arguments
    calm.advance.advance
      (State.rest_advance opened) phrased closes with
    ⟨results, next, reads, atEnd, same⟩
  refine ⟨results, next, ?_, atEnd, same⟩
  rw [message, reads_expectName_bind, reads_ask_bind, calm.advance.steady,
    if_neg Bool.false_ne_true, State.current_of_rest shape, reads_eat_ite]
  refine ⟨(State.kind_of_rest shape).trans kind,
    Or.inl ⟨(State.kind_of_rest opened).trans opens, ?_⟩⟩
  exact reads_bind.mpr
    ⟨results, next, reads, reads_pure.mpr ⟨reads.calm_next, rfl, rfl⟩⟩

/-- The name of a field is read behind the arrow. -/
theorem complete_field
    {state : State}
    {token : Token}
    {after : List Token}
    (calm : state.Calm)
    (shape : state.rest = token :: after)
    (kind : token.kind = .identifier) :
    Reads (do pure (SuffixForm.field (← expectName .arrow))) state
      (.field ⟨token.lexeme, token.span⟩) state.advance := by
  rw [reads_expectName_bind, reads_pure, State.current_of_rest shape]
  exact ⟨(State.kind_of_rest shape).trans kind, calm.advance, rfl, rfl⟩

/--
The loop over suffixes is underway behind some tokens, whatever comes next.  It
has read a tree, but for its places; if the tokens end in a message without
arguments, no parenthesis may come next.
-/
def SuffixesUnderway
    (nested : Rule Expr)
    (tokens : List Token)
    (tree : Expr) :
    Prop :=
  ∀ {state : State} {after : List Token},
    state.Calm → state.rest = tokens ++ after →
      (EndsInMessage tokens → headKind after ≠ .leftParenthesis) →
        ∃ target middle, middle.rest = after ∧ target.bare = tree.bare ∧
          Underway (suffixed nested) (suffix? nested) Suffix.apply state
            target middle

/--
A further suffix is read behind its sign.  It is put on whatever expression was
read before, as long as this is the expected one but for its places.
-/
theorem SuffixesUnderway.extend
    {before inner : List Token}
    {sign : Token}
    {rule : Rule SuffixForm}
    {target tree : Expr}
    (earlier : SuffixesUnderway nested before target)
    (opened : suffixForm? nested sign.kind = some rule)
    (free : EndsInMessage before → sign.kind ≠ .leftParenthesis)
    (suffix :
      ∀ {state : State} {after : List Token},
        state.Calm → state.rest = inner ++ after →
          (EndsInMessage (before ++ sign :: inner) →
            headKind after ≠ .leftParenthesis) →
            ∃ form next, Reads rule state form next ∧ next.rest = after ∧
              ∀ first stop, first.bare = target.bare →
                (Suffix.apply first ⟨form, stop⟩).bare = tree.bare) :
    SuffixesUnderway nested (before ++ sign :: inner) tree := by
  intro state after calm shape unbound
  rw [List.append_assoc] at shape
  obtain ⟨first, middle, ahead, same, underway⟩ := earlier calm shape free
  obtain ⟨form, next, reads, atEnd, made⟩ :=
    suffix underway.calm.advance (State.rest_advance ahead) unbound
  exact ⟨_, next, atEnd, made first _ same,
    underway_suffix underway ahead opened reads⟩

/-- The loop over suffixes is underway after every phrase with suffixes. -/
theorem underway_suffixed
    (complete : Complete nested phrase (Stops 1) Expr.bare)
    (begins : Begins phrase (fun kind => opensExpression kind = true))
    {tokens : List Token}
    {tree : Expr}
    (phrased : SuffixedPhrase phrase tokens tree) :
    SuffixesUnderway nested tokens tree := by
  induction phrased with
  | primary primary =>
      intro state after calm shape _
      rcases complete_primary complete begins calm shape primary trivial with
        ⟨target, middle, reads, ahead, same⟩
      exact ⟨target, middle, ahead, same, Underway.start reads⟩
  | call _ noMessage opens between closes _ hypothesis =>
      refine hypothesis.extend (by rw [opens]; rfl)
        (fun ends => absurd ends noMessage) ?_
      intro state after calm shape _
      rw [List.append_assoc] at shape
      obtain ⟨results, next, reads, atEnd, sameResults⟩ :=
        complete_call complete begins calm shape between closes
      refine ⟨_, next, reads, atEnd, fun first stop same => ?_⟩
      simp only [Suffix.apply, Expr.bare, Expr.bareAll_eq_map, same,
        sameResults]
  | index _ opens between closes _ hypothesis =>
      refine hypothesis.extend (by rw [opens]; rfl) (by simp [opens]) ?_
      intro state after calm shape _
      rw [List.append_assoc] at shape
      obtain ⟨result, next, reads, atEnd, sameResult⟩ :=
        complete_index complete calm shape between closes
      refine ⟨_, next, reads, atEnd, fun first stop same => ?_⟩
      simp only [Suffix.apply, Expr.bare, same, sameResult]
  | property _ colons names _ hypothesis =>
      obtain @⟨token, kind, place⟩ := names
      refine hypothesis.extend (by rw [colons]; rfl) (by simp [colons]) ?_
      intro state after calm shape unbound
      have reads := complete_property nested calm shape kind
        (unbound (endsInMessage_append_pair.mpr ⟨colons, kind⟩))
      refine ⟨_, _, reads, State.rest_advance shape, fun first stop same => ?_⟩
      simp only [Suffix.apply, Expr.bare, same, Identifier.bare]
  | send _ colons names opens between closes _ hypothesis =>
      obtain @⟨token, kind, place⟩ := names
      refine hypothesis.extend (by rw [colons]; rfl) (by simp [colons]) ?_
      intro state after calm shape _
      rw [List.append_assoc, List.singleton_append, List.cons_append,
        List.append_assoc] at shape
      obtain ⟨results, next, reads, atEnd, sameResults⟩ :=
        complete_send complete begins calm shape kind opens between closes
      refine ⟨_, next, reads, atEnd, fun first stop same => ?_⟩
      simp only [Suffix.apply, Expr.bare, Expr.bareAll_eq_map, same,
        sameResults, Identifier.bare]
  | field _ arrows names _ hypothesis =>
      obtain @⟨token, kind, place⟩ := names
      refine hypothesis.extend (by rw [arrows]; rfl) (by simp [arrows]) ?_
      intro state after calm shape _
      have reads := complete_field calm shape kind
      refine ⟨_, _, reads, State.rest_advance shape, fun first stop same => ?_⟩
      simp only [Suffix.apply, Expr.bare, same, Identifier.bare]

/--
A primary with suffixes is read, if none of the signs for suffixes
comes next.  The loop over suffixes is underway with the part of the
phrase that it has read.
-/
theorem complete_suffixed
    (complete : Complete nested phrase (Stops 1) Expr.bare)
    (begins : Begins phrase (fun kind => opensExpression kind = true)) :
    Complete (suffixed nested) (SuffixedPhrase phrase)
      (fun kind => opensSuffix kind = false) Expr.bare := by
  intro state tokens after tree calm shape phrased noSuffix
  have free : headKind after ≠ .leftParenthesis := by
    intro opens
    rw [opens] at noSuffix
    cases noSuffix
  rcases underway_suffixed complete begins phrased calm shape (fun _ => free)
    with
      ⟨target, middle, ahead, same, underway⟩
  refine ⟨target, middle, underway.finish ?_, ahead, same⟩
  intro token rest shape
  rw [← ahead, shape] at noSuffix
  exact suffix?_eq_none nested noSuffix

end

/-! ## Operators -/

section

variable {operand : Rule Expr} {phrase : Phrase Expr}

/--
The loop over the operators of a level is
underway after every chain of the level.
-/
theorem underway_chain
    {level : Nat}
    (complete : Complete operand phrase (Stops (level + 1)) Expr.bare)
    {tokens : List Token}
    {tree : Expr}
    (phrased : ChainPhrase level phrase tokens tree) :
    ∀ {state : State} {after : List Token},
      state.Calm → state.rest = tokens ++ after →
        Stops (level + 1) (headKind after) →
        ∃ left middle, middle.rest = after ∧ left.bare = tree.bare ∧
          Underway (chain level operand) (rightOperand? level operand)
            joinRight state left middle := by
  induction phrased with
  | operand only =>
      intro state after calm shape stops
      rcases complete calm shape only stops
        with ⟨left, middle, reads, ahead, same⟩
      exact ⟨left, middle, ahead, same, Underway.start reads⟩
  | @join before tokens left right sign operator _ signs binds last span
      hypothesis =>
      intro state after calm shape stops
      rw [List.append_assoc] at shape
      have stopsAtSign :
          Stops (level + 1) (headKind (sign :: tokens ++ after)) := by
        refine ⟨noSuffix_of_operator signs, ?_⟩
        intro other otherSigns
        obtain rfl : operator = other :=
          Option.some.inj (signs.symm.trans otherSigns)
        omega
      rcases hypothesis calm shape stopsAtSign
        with ⟨first, middle, ahead, same, underway⟩
      rcases complete underway.calm.advance (State.rest_advance ahead)
        last stops with
          ⟨result, next, reads, atEnd, sameResult⟩
      have opened : rightOperand? level operand sign =
          some (operand >>= fun tree => pure (operator, tree)) := by
        rw [rightOperand?, signs]
        exact if_pos binds
      refine ⟨_, next, atEnd, ?_, underway.round ahead opened
        (reads_bind.mpr ⟨result, next, reads,
          reads_pure.mpr ⟨reads.calm_next, rfl, rfl⟩⟩)⟩
      simp only [joinRight, Expr.bare, same, sameResult]

/--
A chain of one level is read, if no operator of this level or above comes
next.  The operands are those of the next level, so an operator of this level
ends an operand and lets the loop go on.
-/
theorem complete_chain
    {level : Nat}
    (complete : Complete operand phrase (Stops (level + 1)) Expr.bare) :
    Complete (chain level operand) (ChainPhrase level phrase)
      (Stops level) Expr.bare := by
  intro state tokens after tree calm shape phrased stops
  rcases underway_chain complete phrased calm shape
    (stops.mono (Nat.le_succ level)) with
      ⟨left, middle, ahead, same, underway⟩
  refine ⟨left, middle, underway.finish ?_, ahead, same⟩
  intro sign rest shape
  have noOperator := stops.noOperator
  rw [← ahead, shape, headKind] at noOperator
  rw [rightOperand?]
  cases signs : BinaryOperator.ofKind? sign.kind with
  | none => rfl
  | some operator => exact if_neg (Nat.ne_of_lt (noOperator operator signs))

/--
A phrase of binary operators is read by the ladder of six chains, each
complete by the one above it.  No operator may come next.
-/
theorem complete_binary
    (complete : Complete operand phrase (Stops 7) Expr.bare) :
    Complete (binary operand) (BinaryPhrase phrase) (Stops 1) Expr.bare :=
  complete_chain (complete_chain (complete_chain (complete_chain (complete_chain
    (complete_chain complete)))))

/--
An operand behind a prefix operator is read with the
operator, at one level less.
-/
theorem complete_prefixed
    (complete : Complete operand phrase (Stops 7) Expr.bare)
    {operator : UnaryOperator}
    {state : State}
    {sign : Token}
    {tokens after : List Token}
    {tree : Expr}
    (calm : state.Calm)
    (shape : state.rest = sign :: (tokens ++ after))
    (phrased : phrase tokens tree)
    (stops : Stops 7 (headKind after))
    (span : Span) :
    ∃ result next, Reads (prefixed operand operator) state result next ∧
      next.rest = after ∧
      result.bare = (Expr.unary operator tree span).bare := by
  rcases complete calm.advance (State.rest_advance shape) phrased stops with
    ⟨result, next, reads, atEnd, same⟩
  refine ⟨_, next,
    reads_advance_bind.mpr (reads_bind.mpr ⟨result, next, reads,
      reads_ask_bind.mpr (reads_pure.mpr ⟨reads.calm_next, rfl, rfl⟩)⟩),
    atEnd, ?_⟩
  simp only [Expr.bare, same]

end

/--
A complete rule stays complete if it is not tried in a recovery, since a
phrase is read in a calm state.
-/
theorem Rule.Complete.unlessRecovering
    {rule : Rule Expr}
    {phrase : Phrase Expr}
    {stops : TokenKind → Prop}
    (complete : Complete rule phrase stops Expr.bare) :
    Complete (unlessRecovering rule) phrase stops Expr.bare := by
  intro state tokens after tree calm shape phrased stops
  rcases complete calm shape phrased stops
    with ⟨result, next, reads, ahead, same⟩
  exact ⟨result, next, reads_unlessRecovering.mpr reads, ahead, same⟩

/-- A primary with suffixes has no prefix operator ahead. -/
theorem noOperator_of_suffixed
    {nested : Phrase Expr}
    {state : State}
    {tokens after : List Token}
    {tree : Expr}
    (shape : state.rest = tokens ++ after)
    (phrased : SuffixedPhrase nested tokens tree) :
    UnaryOperator.ofKind? state.kind = none := by
  rcases begins_suffixed nested _ _ phrased with ⟨nonempty, -, noOperator⟩
  rwa [State.kind_eq_headKind, shape, headKind_append nonempty]

/--
An operand is read, with as many levels left as the phrase has.  The induction
is on the levels: parentheses, arguments and prefix operators use one up.
-/
theorem complete_operand (levels : Nat) :
    Complete (operand levels) (OperandPhrase levels) (Stops 7) Expr.bare := by
  induction levels with
  | zero =>
      intro state tokens after tree calm shape phrased stops
      cases phrased with
      | operator _ impossible => exact impossible.elim
      | suffixed suffixed =>
          rcases complete_suffixed (Complete.never _ _ _)
            (fun _ _ impossible => impossible.elim)
              calm shape suffixed stops.noSuffix with
            ⟨result, next, reads, atEnd, same⟩
          refine ⟨result, next, ?_, atEnd, same⟩
          rw [operand, reads_ask_bind, noOperator_of_suffixed shape suffixed]
          exact reads
  | succ levels hypothesis =>
      intro state tokens after tree calm shape phrased stops
      cases phrased with
      | @operator tokens inner sign operator signs further span =>
          rcases complete_prefixed hypothesis calm shape further stops span with
            ⟨result, next, reads, atEnd, same⟩
          refine ⟨result, next, ?_, atEnd, same⟩
          rw [operand, reads_ask_bind, State.kind_of_rest shape, signs]
          exact reads
      | suffixed suffixed =>
          rcases complete_suffixed (complete_binary hypothesis).unlessRecovering
              (begins_binary (begins_operand levels)) calm shape suffixed
                stops.noSuffix with
            ⟨result, next, reads, atEnd, same⟩
          refine ⟨result, next, ?_, atEnd, same⟩
          rw [operand, reads_ask_bind, noOperator_of_suffixed shape suffixed]
          exact reads

/--
Every phrase of an expression is read as
the expression, where nothing prolongs it.
-/
theorem complete_expression (levels : Nat) :
    Complete (expression levels) (ExpressionPhrase levels)
      (Stops 1) Expr.bare := by
  cases levels with
  | zero => exact Complete.never _ _ _
  | succ levels =>
      exact (complete_binary (complete_operand levels)).unlessRecovering

theorem rest_ofTokens
    {tokens : List Token}
    (noEnd : ∀ token ∈ tokens, token.kind ≠ .endOfFile) :
    (State.ofTokens tokens).rest = tokens := by
  change tokens.takeWhile (fun token => token.kind != .endOfFile) = tokens
  rw [List.takeWhile_eq_self_iff]
  intro token member
  exact bne_iff_ne.mpr (noEnd token member)

/--
From tokens before the end of the file, an expression is read to the end and
without a report exactly when the tokens spell one, with at most as many levels
as the limit.  All expressions that the tokens spell are then the same up to
spans, and they are what is read.
-/
theorem expression_exact
    (tokens : List Token)
    (noEnd : ∀ token ∈ tokens, token.kind ≠ .endOfFile) :
    (((expression nestingLimit).run (State.ofTokens tokens)).2.reports = [] ∧
          ((expression nestingLimit).run (State.ofTokens tokens)).2.rest = [] ↔
        ∃ tree, ExpressionPhrase nestingLimit tokens tree) ∧
      ∀ tree, ExpressionPhrase nestingLimit tokens tree →
        ((expression nestingLimit).run (State.ofTokens tokens)).1.bare =
          tree.bare := by
  have calm := State.calm_ofTokens tokens
  have complete : ∀ tree, ExpressionPhrase nestingLimit tokens tree →
      ∃ result next,
        Reads (expression nestingLimit) (State.ofTokens tokens) result next ∧
        next.rest = [] ∧ result.bare = tree.bare := by
    intro tree phrased
    have ahead : (State.ofTokens tokens).rest = tokens ++ [] := by
      rw [List.append_nil, rest_ofTokens noEnd]
    exact complete_expression nestingLimit calm ahead phrased
      (stops_of_delimiter rfl rfl 1)
  constructor
  · constructor
    · rintro ⟨quiet, atEnd⟩
      have reads : Reads (expression nestingLimit) (State.ofTokens tokens)
          ((expression nestingLimit).run (State.ofTokens tokens)).1
          ((expression nestingLimit).run (State.ofTokens tokens)).2 :=
        ⟨calm, rfl, quiet⟩
      rcases sound_expression nestingLimit _ _ _ reads
        with ⟨taken, shape, phrased⟩
      rw [atEnd, List.append_nil, rest_ofTokens noEnd] at shape
      rw [← shape] at phrased
      exact ⟨_, phrased⟩
    · rintro ⟨tree, phrased⟩
      rcases complete tree phrased with ⟨result, next, reads, atEnd, -⟩
      rw [reads.run]
      exact ⟨reads.quiet, atEnd⟩
  · intro tree phrased
    rcases complete tree phrased with ⟨result, next, reads, -, same⟩
    rw [reads.run]
    exact same

/-- `7 - 5 - 1` is read to its end, and it groups to the left. -/
theorem expression_exact_difference :
    let number := fun lexeme => Token.mk .number (Span.empty 0) lexeme
    let minus := Token.mk .minus (Span.empty 0) "-"
    let tokens := [number "7", minus, number "5", minus, number "1"]
    let literal := fun text => Expr.literal ⟨.number, text⟩ (Span.empty 0)
    let outcome := (expression nestingLimit).run (State.ofTokens tokens)
    (∀ token ∈ tokens, token.kind ≠ .endOfFile) ∧
      outcome.2.reports = [] ∧ outcome.2.rest = [] ∧
        outcome.1.bare =
          .binary .subtract
            (.binary .subtract (literal "7") (literal "5") (Span.empty 0))
            (literal "1") (Span.empty 0) := by
  intro number minus tokens literal outcome
  have noEnd : ∀ token ∈ tokens, token.kind ≠ .endOfFile := by decide
  have operand (text : String) :
      ChainPhrase 6 (OperandPhrase 99) [number text] (literal text) :=
    .operand (.suffixed (.primary (.literal rfl _)))
  have first : ChainPhrase 5 (ChainPhrase 6 (OperandPhrase 99))
      ([number "7"] ++ minus :: [number "5"])
      (.binary .subtract (literal "7") (literal "5") (Span.empty 0)) :=
    .join (.operand (operand "7")) (by rfl) (by rfl) (operand "5") _
  have second : ChainPhrase 5 (ChainPhrase 6 (OperandPhrase 99))
      (([number "7"] ++ minus :: [number "5"]) ++ minus :: [number "1"])
      (.binary .subtract
        (.binary .subtract (literal "7") (literal "5") (Span.empty 0))
        (literal "1") (Span.empty 0)) :=
    .join first (by rfl) (by rfl) (operand "1") _
  have phrased : ExpressionPhrase nestingLimit tokens
      (.binary .subtract
        (.binary .subtract (literal "7") (literal "5") (Span.empty 0))
        (literal "1") (Span.empty 0)) :=
    .operand (.operand (.operand (.operand second)))
  have exact' := expression_exact tokens noEnd
  rcases exact'.1.mpr ⟨_, phrased⟩ with ⟨quiet, atEnd⟩
  exact ⟨noEnd, quiet, atEnd, exact'.2 _ phrased⟩

end Clipper.Grammar
