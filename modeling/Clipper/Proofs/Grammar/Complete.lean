import Clipper.Proofs.Grammar.ExpressionSound
import Clipper.Proofs.Syntax.Bare

/-!
# Rules that read every phrase

Where the tokens ahead begin with a phrase, and the token after it does not
prolong the phrase, a complete rule takes the phrase and nothing else.

The grammar groups to the left where the rules loop.  A loop that stands after
the first part of a phrase is `Underway`: whatever the loop reads from there on,
the rule reads from the beginning.

The condition on the next token is the parameter `stops`, since a phrase may
be prolonged by different tokens at different levels.  What is read is
compared with the phrase through a form, usually the bare expression, so that
the spans which a reader sets are left out of the grammar.  Lists and enclosed
parts are complete where their items are, with a comma and a closing token
among the stops.
-/

namespace Clipper.Grammar

theorem State.kind_eq_headKind (state : State) :
    state.kind = headKind state.rest := by
  rw [State.kind, State.current]
  cases state.rest with
  | nil => rfl
  | cons token rest => rfl

namespace Rule

variable {α β γ : Type}

/--
Where the tokens ahead begin with the phrase and the
token after it stops the phrase, the rule takes the
phrase and reads its value, up to what `form` forgets.
-/
def Complete
    (rule : Rule α)
    (phrase : Phrase α)
    (stops : TokenKind → Prop)
    (form : α → γ) :
    Prop :=
  ∀ ⦃state : State⦄ ⦃tokens after : List Token⦄ ⦃value : α⦄,
    state.Calm → state.rest = tokens ++ after → phrase tokens value →
      stops (headKind after) →
      ∃ result next, Reads rule state result next ∧ next.rest = after ∧
        form result = form value

theorem Complete.never
    (rule : Rule α)
    (stops : TokenKind → Prop)
    (form : α → γ) :
    Complete rule .never stops form := by
  intro state tokens after value calm shape impossible
  exact impossible.elim

theorem complete_expectName (place : NamePlace) :
    Complete (expectName place) NamePhrase (fun _ => True) Identifier.bare := by
  intro state tokens after name calm shape phrased _
  cases phrased with
  | name kind span =>
      rw [← State.kind_of_rest shape] at kind
      refine ⟨_, _, reads_expectName.mpr ⟨calm, kind, rfl, rfl⟩,
        State.rest_advance shape, ?_⟩
      rw [State.current_of_rest shape, Identifier.bare, Identifier.bare]

/-! ## Lists -/

/--
A list of items with commas between them is read where the item is complete,
and a comma does not prolong an item.  The induction is on the items.
-/
theorem Complete.separated
    {item : Rule α}
    {phrase : Phrase α}
    {stops : TokenKind → Prop}
    {form : α → γ}
    (complete : Complete item phrase stops form)
    (atComma : stops .comma) :
    Complete (separated item) (SeparatedPhrase phrase)
      (fun kind => stops kind ∧ kind ≠ .comma) (List.map form) := by
  intro state tokens after values calm shape phrased
  induction phrased generalizing state with
  | @single tokens value only =>
      rintro ⟨stopsHere, noComma⟩
      rcases complete calm shape only stopsHere
        with ⟨result, next, reads, rest, same⟩
      have closed : ∀ token others,
          next.rest = token :: others → afterComma? item token = none := by
        intro token others ahead
        rw [← rest, ahead] at noComma
        exact if_neg noComma
      have ended := reads_many_nil.mpr ⟨reads.calm_next, closed, rfl⟩
      refine ⟨[result], next, ?_, rest, ?_⟩
      · exact reads_bind.mpr ⟨_, _, reads,
          reads_bind.mpr ⟨_, _, ended,
            reads_pure.mpr ⟨reads.calm_next, rfl, rfl⟩⟩⟩
      · rw [List.map_singleton, same, List.map_singleton]
  | @further tokens others value values comma first separator rest hypothesis =>
      intro stopsHere
      rw [List.append_assoc, List.cons_append] at shape
      have stopsBefore : stops (headKind (comma :: (others ++ after))) := by
        rw [headKind, separator]
        exact atComma
      rcases complete calm shape first stopsBefore
        with ⟨result, middle, reads, ahead, same⟩
      rcases hypothesis reads.calm_next.advance (State.rest_advance ahead)
        stopsHere with
          ⟨results, next, further, atEnd, sameOthers⟩
      refine ⟨result :: results, next, ?_, atEnd, ?_⟩
      · rw [Rule.separated] at further
        rcases reads_bind.mp further with ⟨second, _, once, loops⟩
        rcases reads_bind.mp loops with ⟨others, _, again, ends⟩
        rcases reads_pure.mp ends with ⟨atEndCalm, rfl, rfl⟩
        have looped : Reads (many (afterComma? item)) middle
            (second :: others) next :=
          reads_many_cons.mpr
            ⟨comma, _, item, _, ahead, if_pos separator, once, again⟩
        exact reads_bind.mpr ⟨_, _, reads,
          reads_bind.mpr ⟨_, _, looped, reads_pure.mpr ⟨atEndCalm, rfl, rfl⟩⟩⟩
      · rw [List.map_cons, same, sameOthers, List.map_cons]

/--
Items between two tokens are read up to the closing one, which does not begin
an item and does not prolong one.
-/
theorem Complete.enclosed
    {item : Rule α}
    {phrase : Phrase α}
    {stops : TokenKind → Prop}
    {form : α → γ}
    (complete : Complete item phrase stops form)
    (atComma : stops .comma)
    {closer : TokenKind}
    (atCloser : stops closer)
    (noComma : closer ≠ .comma)
    (begins : Begins phrase (fun kind => kind ≠ closer))
    (part : Part)
    {state : State}
    {tokens after : List Token}
    {closing : Token}
    {values : List α}
    (calm : state.Calm)
    (shape : state.rest = tokens ++ closing :: after)
    (phrased : ListPhrase phrase tokens values)
    (closes : closing.kind = closer) :
    ∃ results next, Reads (enclosed item closer part) state results next ∧
      next.rest = after ∧ results.map form = values.map form := by
  -- It is enough to stand before the closing token when the items were read.
  suffices listed :
      ∃ results middle,
        Reads (separatedUnless item closer) state results middle ∧
        middle.rest = closing :: after ∧ results.map form = values.map form by
    rcases listed with ⟨results, middle, reads, ahead, same⟩
    refine ⟨results, middle.advance, ?_, State.rest_advance ahead, same⟩
    have closed : middle.kind = closer :=
      (State.kind_of_rest ahead).trans closes
    exact reads_bind.mpr ⟨_, _, reads,
      reads_expect_bind.mpr
        ⟨closed, reads_pure.mpr ⟨reads.calm_next.advance, rfl, rfl⟩⟩⟩
  simp only [separatedUnless, reads_ask_bind]
  cases phrased with
  | none =>
      refine ⟨[], state, ?_, shape, rfl⟩
      rw [if_pos ((State.kind_of_rest shape).trans closes)]
      exact reads_pure.mpr ⟨calm, rfl, rfl⟩
  | some items =>
      have notClosed : state.kind ≠ closer := by
        rw [State.kind_eq_headKind, shape]
        rcases begins.separated _ _ items with ⟨nonempty, other⟩
        rwa [headKind_append nonempty]
      have stopsAfter : stops (headKind (closing :: after)) ∧
          headKind (closing :: after) ≠ .comma := by
        rw [headKind, closes]
        exact ⟨atCloser, noComma⟩
      rcases complete.separated atComma calm shape items stopsAfter with
        ⟨results, middle, reads, ahead, same⟩
      refine ⟨results, middle, ?_, ahead, same⟩
      rw [if_neg notClosed]
      exact reads

/-! ## Loops that are underway -/

/--
The rule, from `state`, has read `made` and stands at
`middle` before a round of its loop: whatever the loop
reads from there on is the rest of what the rule reads.
-/
structure Underway
    (rule : Rule β)
    (open? : Token → Option (Rule α))
    (step : β → α → β)
    (state : State)
    (made : β)
    (middle : State) : Prop where
  calm : middle.Calm
  resume :
    ∀ values next, Reads (many open?) middle values next →
      Reads rule state (values.foldl step made) next

namespace Underway

variable
  {rule : Rule β}
  {open? : Token → Option (Rule α)}
  {step : β → α → β}
  {state middle : State}
  {made : β}

theorem start
    {first : Rule β}
    (reads : Reads first state made middle) :
    Underway (first >>= fun made => List.foldl step made <$> many open?) open?
      step state made middle where
  calm := reads.calm_next
  resume values _ looped :=
    reads_bind.mpr ⟨_, _, reads, reads_map.mpr ⟨values, looped, rfl⟩⟩

/-- One more round. -/
theorem round
    (underway : Underway rule open? step state made middle)
    {token : Token}
    {rest : List Token}
    {inner : Rule α}
    {value : α}
    {next : State}
    (shape : middle.rest = token :: rest)
    (opened : open? token = some inner)
    (reads : Reads inner middle.advance value next) :
    Underway rule open? step state (step made value) next where
  calm := reads.calm_next
  resume values last looped :=
    underway.resume (value :: values) last
      (reads_many_cons.mpr
        ⟨token, rest, inner, next, shape, opened, reads, looped⟩)

/-- The loop ends where nothing opens. -/
theorem finish
    (underway : Underway rule open? step state made middle)
    (closed : ∀ token rest, middle.rest = token :: rest → open? token = none) :
    Reads rule state made middle :=
  underway.resume [] middle (reads_many_nil.mpr ⟨underway.calm, closed, rfl⟩)

end Underway

end Rule

end Clipper.Grammar
