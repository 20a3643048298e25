import Clipper.Proofs.Grammar.Complete

/-!
# Rules that take given tokens

A contract for readings of tokens that are known: the rule takes exactly these
tokens, and its value has a property.  Where `Complete` speaks of all phrases,
this speaks of one list of tokens and of what stands after it, and there is one
lemma for each way in which rules are made.

The contract is total: it says that the rule reads, from every calm state with
these tokens ahead, and not only what it reads if it does.  The list of tokens
is split where the rule goes from one part to the next, and what stands after
a part is the beginning of the next one.  At the end of a rule the rest of the
tokens is the same as before, so contracts can be put one after the other.
-/

namespace Clipper.Grammar.Rule

variable {α β γ : Type} {tokens others after : List Token} {property : β → Prop}

/--
Where the tokens ahead are `tokens` and then `after`, the rule takes the first
ones and nothing else, and reads a value with the property.
-/
def Takes
    (rule : Rule α)
    (tokens after : List Token)
    (property : α → Prop) :
    Prop :=
  ∀ ⦃state : State⦄, state.Calm → state.rest = tokens ++ after →
    ∃ value next, Reads rule state value next ∧ next.rest = after ∧
      property value

theorem Takes.mono
    {rule : Rule α}
    {weaker stronger : α → Prop}
    (takes : Takes rule tokens after stronger)
    (implies : ∀ value, stronger value → weaker value) :
    Takes rule tokens after weaker := by
  intro state calm ahead
  obtain ⟨value, next, reads, rest, holds⟩ := takes calm ahead
  exact ⟨value, next, reads, rest, implies value holds⟩

/-- A complete rule takes each phrase before tokens that stop it. -/
theorem Complete.takes
    {rule : Rule α}
    {phrase : Phrase α}
    {stops : TokenKind → Prop}
    {form : α → γ}
    (complete : Complete rule phrase stops form)
    {value : α}
    (phrased : phrase tokens value)
    (stopsHere : stops (headKind after)) :
    Takes rule tokens after (fun result => form result = form value) :=
  fun _ calm ahead => complete calm ahead phrased stopsHere

/--
A rule that takes every phrase before any tokens that stop it
is complete for the phrase.
-/
theorem complete_of_takes
    {rule : Rule α}
    {phrase : Phrase α}
    {stops : TokenKind → Prop}
    {form : α → γ}
    (takes :
      ∀ ⦃tokens after : List Token⦄ ⦃value : α⦄, phrase tokens value →
        stops (headKind after) →
        Takes rule tokens after (fun result => form result = form value)) :
    Complete rule phrase stops form :=
  fun _ _ _ _ calm ahead phrased stopsHere => takes phrased stopsHere calm ahead

theorem takes_pure
    {value : β}
    (holds : property value) :
    Takes (pure value) [] after property :=
  fun state calm ahead =>
    ⟨value, state, reads_pure.mpr ⟨calm, rfl, rfl⟩, ahead, holds⟩

/-- The second rule takes what stands after the tokens of the first one. -/
theorem Takes.bind
    {rule : Rule α}
    {continuation : α → Rule β}
    {inner : α → Prop}
    (first : Takes rule tokens (others ++ after) inner)
    (second : ∀ value, inner value →
      Takes (continuation value) others after property) :
    Takes (rule >>= continuation) (tokens ++ others) after property := by
  intro state calm ahead
  rw [List.append_assoc] at ahead
  obtain ⟨value, middle, reads, rest, holds⟩ := first calm ahead
  obtain ⟨result, next, further, atEnd, holdsAtEnd⟩ :=
    second value holds reads.calm_next rest
  exact ⟨result, next, reads_bind.mpr ⟨value, middle, reads, further⟩,
    atEnd, holdsAtEnd⟩

/-- The second rule takes nothing. -/
theorem Takes.bind_last
    {rule : Rule α}
    {continuation : α → Rule β}
    {inner : α → Prop}
    (first : Takes rule tokens after inner)
    (second : ∀ value, inner value →
      Takes (continuation value) [] after property) :
    Takes (rule >>= continuation) tokens after property := by
  have both : Takes (rule >>= continuation) (tokens ++ []) after property :=
    first.bind second
  rwa [List.append_nil] at both

/-- The first rule takes nothing. -/
theorem Takes.bind_first
    {rule : Rule α}
    {continuation : α → Rule β}
    {inner : α → Prop}
    (first : Takes rule [] (tokens ++ after) inner)
    (second : ∀ value, inner value →
      Takes (continuation value) tokens after property) :
    Takes (rule >>= continuation) tokens after property :=
  first.bind second

theorem Takes.map
    {rule : Rule α}
    {change : α → β}
    (takes : Takes rule tokens after (fun value => property (change value))) :
    Takes (change <$> rule) tokens after property :=
  takes.bind_last fun _ holds => takes_pure holds

/-! ## First steps -/

/-- A question about the state is answered before these tokens. -/
theorem takes_ask_bind
    {question : State → α}
    {continuation : α → Rule β}
    (second :
      ∀ state : State, state.Calm → state.rest = tokens ++ after →
        Takes (continuation (question state)) tokens after property) :
    Takes (ask question >>= continuation) tokens after property := by
  intro state calm ahead
  obtain ⟨result, next, reads, atEnd, holds⟩ :=
    second state calm ahead calm ahead
  exact ⟨result, next, reads_ask_bind.mpr reads, atEnd, holds⟩

theorem takes_askKind_bind
    {continuation : TokenKind → Rule β}
    (second : Takes (continuation (headKind (tokens ++ after))) tokens
      after property) :
    Takes (ask State.kind >>= continuation) tokens after property := by
  refine takes_ask_bind fun state _ ahead => ?_
  rw [State.kind_eq_headKind, ahead]
  exact second

theorem takes_recovered_bind
    {continuation : Unit → Rule β}
    (second : Takes (continuation ()) tokens after property) :
    Takes (recovered >>= continuation) tokens after property := by
  intro state calm ahead
  obtain ⟨result, next, reads, atEnd, holds⟩ := second calm ahead
  exact ⟨result, next, reads_recovered_bind.mpr reads, atEnd, holds⟩

/--
A rule that takes a token and goes on takes the token and what comes after it.
-/
theorem takes_advance_bind
    {token : Token}
    {continuation : Token → Rule β}
    (second : Takes (continuation token) tokens after property) :
    Takes (advance >>= continuation) (token :: tokens) after property := by
  intro state calm ahead
  obtain ⟨result, next, reads, atEnd, holds⟩ :=
    second calm.advance (State.rest_advance ahead)
  refine ⟨result, next, reads_advance_bind.mpr ?_, atEnd, holds⟩
  rw [State.current_of_rest ahead]
  exact reads

theorem takes_eat
    {token : Token}
    {kind : TokenKind}
    (same : token.kind = kind) :
    Takes (eat kind) [token] after (· = true) := by
  intro state calm ahead
  have isKind : state.kind = kind := (State.kind_of_rest ahead).trans same
  exact ⟨true, _, reads_eat.mpr ⟨calm, .inl ⟨isKind, rfl, rfl⟩⟩,
    State.rest_advance ahead, rfl⟩

theorem takes_eat_of_ne
    {kind : TokenKind}
    (other : headKind after ≠ kind) :
    Takes (eat kind) [] after (· = false) := by
  intro state calm ahead
  rw [List.nil_append] at ahead
  rw [← ahead, ← State.kind_eq_headKind] at other
  exact ⟨false, state, reads_eat.mpr ⟨calm, .inr ⟨other, rfl, rfl⟩⟩, ahead, rfl⟩

/--
A token that may be absent is taken where it is, and the
rule goes on behind it.
-/
theorem takes_eat_bind
    {token : Token}
    {kind : TokenKind}
    {continuation : Bool → Rule β}
    (same : token.kind = kind)
    (second : Takes (continuation true) tokens after property) :
    Takes (eat kind >>= continuation) (token :: tokens) after property := by
  refine (takes_eat same).bind fun eaten isEaten => ?_
  rw [isEaten]
  exact second

theorem takes_eat_bind_of_ne
    {kind : TokenKind}
    {continuation : Bool → Rule β}
    (other : headKind (tokens ++ after) ≠ kind)
    (second : Takes (continuation false) tokens after property) :
    Takes (eat kind >>= continuation) tokens after property := by
  refine (takes_eat_of_ne other).bind_first fun eaten isEaten => ?_
  rw [isEaten]
  exact second

/-- A required token is taken, and the rule goes on behind it. -/
theorem takes_expect_bind
    {token : Token}
    {kind : TokenKind}
    {part : Part}
    {continuation : Unit → Rule β}
    (same : token.kind = kind)
    (second : Takes (continuation ()) tokens after property) :
    Takes (expect kind part >>= continuation) (token :: tokens) after
      property := by
  intro state calm ahead
  obtain ⟨result, next, reads, atEnd, holds⟩ :=
    second calm.advance (State.rest_advance ahead)
  have isKind : state.kind = kind := (State.kind_of_rest ahead).trans same
  exact ⟨result, next, reads_expect_bind.mpr ⟨isKind, reads⟩, atEnd, holds⟩

/-- A required name is taken, and the rule goes on with it. -/
theorem takes_expectName_bind
    {token : Token}
    {place : NamePlace}
    {continuation : Identifier → Rule β}
    (same : token.kind = .identifier)
    (second : Takes (continuation ⟨token.lexeme, token.span⟩) tokens
      after property) :
    Takes (expectName place >>= continuation) (token :: tokens) after
      property := by
  intro state calm ahead
  obtain ⟨result, next, reads, atEnd, holds⟩ :=
    second calm.advance (State.rest_advance ahead)
  have isName : state.kind = .identifier :=
    (State.kind_of_rest ahead).trans same
  refine ⟨result, next, reads_expectName_bind.mpr ⟨isName, ?_⟩, atEnd, holds⟩
  rw [State.current_of_rest ahead]
  exact reads

theorem takes_spanFrom_bind
    {start : Nat}
    {continuation : Span → Rule β}
    (second : ∀ span, Takes (continuation span) tokens after property) :
    Takes (spanFrom start >>= continuation) tokens after property :=
  takes_ask_bind fun _ _ _ => second _

/-! ## Optional parts and loops -/

/--
A part between two tokens is taken up to the closing one, if the rule for
its items is complete.
-/
theorem takes_enclosed
    {item : Rule α}
    {phrase : Phrase α}
    {stops : TokenKind → Prop}
    {form : α → γ}
    (complete : Complete item phrase stops form)
    (atComma : stops .comma)
    {closing : Token}
    (atCloser : stops closing.kind)
    (noComma : closing.kind ≠ .comma)
    (begins : Begins phrase (fun kind => kind ≠ closing.kind))
    (part : Part)
    {values : List α}
    (phrased : ListPhrase phrase tokens values) :
    Takes (enclosed item closing.kind part) (tokens ++ [closing]) after
      (fun results => results.map form = values.map form) := by
  intro state calm ahead
  rw [List.append_assoc] at ahead
  exact complete.enclosed atComma atCloser noComma begins part calm
    ahead phrased rfl

theorem takes_optionalAfter
    {token : Token}
    {kind : TokenKind}
    {rule : Rule α}
    {property : Option α → Prop}
    (same : token.kind = kind)
    (takes : Takes rule tokens after (fun value => property (some value))) :
    Takes (optionalAfter kind rule) (token :: tokens) after property :=
  takes_eat_bind same takes.map

theorem takes_optionalAfter_none
    {kind : TokenKind}
    {rule : Rule α}
    {property : Option α → Prop}
    (other : headKind after ≠ kind)
    (holds : property none) :
    Takes (optionalAfter kind rule) [] after property :=
  takes_eat_bind_of_ne other (takes_pure holds)

/-- Where the token ahead opens no part, the loop takes nothing. -/
theorem takes_many_nil
    {open? : Token → Option (Rule α)}
    {property : List α → Prop}
    (closed : ∀ token rest, after = token :: rest → open? token = none)
    (holds : property []) :
    Takes (many open?) [] after property := by
  intro state calm ahead
  rw [List.nil_append] at ahead
  rw [← ahead] at closed
  exact ⟨[], state, reads_many_nil.mpr ⟨calm, closed, rfl⟩, ahead, holds⟩

/-- A loop takes the tokens of its first round and then those of the others. -/
theorem takes_many_cons
    {open? : Token → Option (Rule α)}
    {rule : Rule α}
    {token : Token}
    {inner : α → Prop}
    {property : List α → Prop}
    (opened : open? token = some rule)
    (first : Takes rule tokens (others ++ after) inner)
    (rest :
      ∀ value, inner value →
        Takes (many open?) others after
          (fun values => property (value :: values))) :
    Takes (many open?) (token :: (tokens ++ others)) after property := by
  intro state calm ahead
  rw [List.cons_append, List.append_assoc] at ahead
  obtain ⟨value, middle, reads, atOthers, holds⟩ :=
    first calm.advance (State.rest_advance ahead)
  obtain ⟨values, next, further, atEnd, holdsAtEnd⟩ :=
    rest value holds reads.calm_next atOthers
  exact ⟨value :: values, next,
    reads_many_cons.mpr ⟨token, _, rule, middle, ahead, opened, reads, further⟩,
    atEnd, holdsAtEnd⟩

section Sequences

variable {closes : State → Bool} {item : Rule (Option α)}

/-- A sequence is over at the end of the file and where it is closed. -/
theorem takes_sequence_nil
    {property : List α → Prop}
    (closed : ∀ state : State, state.rest = after →
      after = [] ∨ closes state = true)
    (holds : property []) :
    Takes (sequence closes item) [] after property := by
  intro state calm ahead
  refine ⟨[], state, ⟨calm, ?_, rfl⟩, ahead, holds⟩
  change runSequence closes item state = _
  unfold runSequence
  obtain ended | isClosed := closed state ahead
  · rw [dif_pos (ahead.trans ended)]
  · split
    · rfl
    · rfl

/--
A sequence that is not closed goes on after a round that took some tokens.
-/
theorem takes_sequence_round
    {inner : Option α → Prop}
    {property : List α → Prop}
    (nonempty : tokens ≠ [])
    (opened : ∀ state : State, state.rest = tokens ++ (others ++ after) →
      closes state = false)
    (first : Takes item tokens (others ++ after) inner)
    (rest :
      ∀ value?, inner value? →
        Takes (sequence closes item) others after
          (fun values => property (value?.toList ++ values))) :
    Takes (sequence closes item) (tokens ++ others) after property := by
  intro state calm ahead
  rw [List.append_assoc] at ahead
  obtain ⟨value?, middle, reads, atOthers, holds⟩ := first calm ahead
  obtain ⟨values, next, further, atEnd, holdsAtEnd⟩ :=
    rest value? holds reads.calm_next atOthers
  refine ⟨value?.toList ++ values, next,
    ⟨calm, ?_, further.quiet.trans reads.quiet⟩, atEnd, holdsAtEnd⟩
  have notEnded : state.rest ≠ [] := by
    rw [ahead]
    exact List.append_ne_nil_of_left_ne_nil nonempty _
  -- The item took a token, so the round drops none.
  have moved : (middle.rest == state.rest) = false := by
    rw [atOthers, ahead, beq_eq_false_iff_ne]
    exact fun same => nonempty (List.self_eq_append_left.mp same)
  change runSequence closes item state = _
  unfold runSequence
  rw [dif_neg notEnded, opened state ahead, if_neg Bool.false_ne_true]
  simp only [reads.run, State.forward, moved]
  have run : runSequence closes item middle = (values, next) := further.run
  simp [run]

/--
A sequence that is not closed goes on after an item that took some tokens.
-/
theorem takes_sequence_cons
    {inner : α → Prop}
    {property : List α → Prop}
    (nonempty : tokens ≠ [])
    (opened : ∀ state : State, state.rest = tokens ++ (others ++ after) →
      closes state = false)
    (first :
      Takes item tokens (others ++ after)
        (fun value? => ∃ value, value? = some value ∧ inner value))
    (rest :
      ∀ value, inner value →
        Takes (sequence closes item) others after
          (fun values => property (value :: values))) :
    Takes (sequence closes item) (tokens ++ others) after property := by
  refine takes_sequence_round nonempty opened first ?_
  rintro _ ⟨value, rfl, holds⟩
  exact rest value holds

end Sequences

end Clipper.Grammar.Rule
