import Clipper.Grammar.Statement

/-!
# What rules yield

A property of values is proved for a rule from any state that has an invariant.
The invariant is proved for the six moves once; therefore a rule always starts
from a state with the invariant, and only the values are left to look at.  Each
combinator of rules has one lemma here.

With the trivial invariant this is a plain statement about all values that a
rule can make; the bounds on nesting are of this sort.  With an invariant
about spans it says that trees are nested.  A loop yields a list whose items
have the property, and the invariant is known again before each round, so no
lemma about loops has to look into a state.
-/

namespace Clipper.Grammar

/-- A property of states that every move keeps. -/
structure State.Invariant where
  holds : State → Prop
  kept : ∀ before after, State.Move before after → holds before → holds after

theorem State.Invariant.after
    (invariant : State.Invariant)
    {α : Type}
    (rule : Rule α)
    {state : State}
    (holds : invariant.holds state) :
    invariant.holds (rule.run state).2 :=
  (rule.reaches state).keeps invariant.kept holds

namespace Rule

variable {α β : Type} {invariant : State.Invariant}

/--
From every state with the invariant, the rule yields a value with the property.
-/
def Yields
    (invariant : State.Invariant)
    (rule : Rule α)
    (property : α → Prop) :
    Prop :=
  ∀ state, invariant.holds state → property (rule.run state).1

namespace Yields

theorem pure
    {property : α → Prop}
    {value : α}
    (holds : property value) :
    Yields invariant (Pure.pure value) property :=
  fun _ _ => holds

/--
A rule yields a property if its second part does, from each value that
the first part yields.
-/
theorem bind
    {rule : Rule α}
    {next : α → Rule β}
    {middle : α → Prop}
    {property : β → Prop}
    (first : Yields invariant rule middle)
    (second : ∀ value, middle value → Yields invariant (next value) property) :
    Yields invariant (rule >>= next) property := by
  intro state holds
  have value := first state holds
  exact second _ value _ (invariant.after rule holds)

/-- A rule whose value does not matter. -/
theorem any (rule : Rule α) : Yields invariant rule (fun _ => True) :=
  fun _ _ => trivial

theorem mono
    {rule : Rule α}
    {stronger weaker : α → Prop}
    (yields : Yields invariant rule stronger)
    (implies : ∀ value, stronger value → weaker value) :
    Yields invariant rule weaker :=
  fun state holds => implies _ (yields state holds)

theorem map
    {rule : Rule α}
    {change : α → β}
    {property : β → Prop}
    (yields : Yields invariant rule (fun value => property (change value))) :
    Yields invariant (change <$> rule) property :=
  yields

theorem ask
    {question : State → α}
    {property : α → Prop}
    (answers : ∀ state, invariant.holds state → property (question state)) :
    Yields invariant (Rule.ask question) property :=
  answers

/-- A choice yields what its branches yield, each under its own condition. -/
theorem ite
    {condition : Prop}
    [Decidable condition]
    {first second : Rule α}
    {property : α → Prop}
    (yes : condition → Yields invariant first property)
    (no : ¬ condition → Yields invariant second property) :
    Yields invariant (if condition then first else second) property := by
  split
  · next holds => exact yes holds
  · next fails => exact no fails

/-- A loop yields a property of its values if its rounds do. -/
theorem many
    {open? : Token → Option (Rule α)}
    {property : α → Prop}
    (opened :
      ∀ state token rest rule,
        invariant.holds state → state.rest = token :: rest →
          open? token = some rule →
          Yields invariant rule property) :
    Yields invariant (Rule.many open?)
      (fun values => ∀ value ∈ values, property value) := by
  intro state
  change invariant.holds state → ∀ value ∈ (runMany open? state).1,
    property value
  fun_induction runMany open? state with
  | case1 | case2 | case3 =>
      intro _ value member
      cases member
  | case4 state token rest ahead calm rule isOpened first shorter others
      hypothesis =>
      intro holds
      have advanced : invariant.holds state.advance :=
        invariant.kept _ _ (.advance state) holds
      have yielded : property first.1 :=
        opened state token rest rule holds ahead isOpened _ advanced
      exact List.forall_mem_cons.mpr
        ⟨yielded, hypothesis (invariant.after rule advanced)⟩

/--
A loop over statements yields a property of its values if an attempt does.
-/
theorem sequence
    {closes : State → Bool}
    {item : Rule (Option α)}
    {property : α → Prop}
    (yields : Yields invariant item
      (fun value? => ∀ value ∈ value?, property value)) :
    Yields invariant (Rule.sequence closes item)
      (fun values => ∀ value ∈ values, property value) := by
  intro state
  change invariant.holds state → ∀ value ∈ (runSequence closes item state).1,
    property value
  fun_induction runSequence closes item state with
  | case1 | case2 =>
      intro _ value member
      cases member
  | case3 state ended opened first shorter others hypothesis =>
      intro holds value member
      have yielded := yields state holds
      have moved : invariant.holds (state.forward first.2) :=
        (State.forward_reaches state first.2).keeps invariant.kept
          (invariant.after item holds)
      rcases List.mem_append.mp member with head | later
      · exact yielded value (Option.mem_toList.mp head)
      · exact hypothesis moved value later

/-- A list yields a property of its items if the rule for items does. -/
theorem separated
    {item : Rule α}
    {property : α → Prop}
    (yields : Yields invariant item property) :
    Yields invariant (Rule.separated item)
      (fun values => ∀ value ∈ values, property value) := by
  have othersYield :
      Yields invariant (Rule.many (afterComma? item))
        (fun values => ∀ value ∈ values, property value) := by
    apply many
    intro state token rest rule _ _ opened
    unfold afterComma? at opened
    split at opened
    · cases opened
      exact yields
    · cases opened
  refine bind yields fun first firstHolds => ?_
  refine bind othersYield fun others othersHold => ?_
  exact pure (List.forall_mem_cons.mpr ⟨firstHolds, othersHold⟩)

/--
A part between two tokens yields a property of its items if the
rule for items does.
-/
theorem enclosed
    {item : Rule α}
    {property : α → Prop}
    (yields : Yields invariant item property)
    (closer : TokenKind)
    (part : Part) :
    Yields invariant (Rule.enclosed item closer part)
      (fun values => ∀ value ∈ values, property value) := by
  have itemsYield :
      Yields invariant (separatedUnless item closer)
        (fun values => ∀ value ∈ values, property value) := by
    refine bind (any _) fun kind _ => ?_
    refine ite (fun _ => ?_) (fun _ => separated yields)
    exact pure (fun value member => by cases member)
  refine bind itemsYield fun values hold => ?_
  exact bind (any _) fun _ _ => pure hold

/--
An optional part behind a word yields what its rule yields, if it is there.
-/
theorem optionalAfter
    {rule : Rule α}
    {property : α → Prop}
    (yields : Yields invariant rule property)
    (kind : TokenKind) :
    Yields invariant (Rule.optionalAfter kind rule)
      (fun value? => ∀ value ∈ value?, property value) := by
  refine bind (any _) fun eaten _ => ?_
  refine ite (fun _ => ?_) (fun _ => ?_)
  · refine map (mono yields fun first holds value member => ?_)
    cases member
    exact holds
  · exact pure (fun value member => by cases member)

end Yields

/-- A sequence ends where the state closes it or the file ends. -/
theorem runSequence_ended
    {α : Type}
    (closes : State → Bool)
    (item : Rule (Option α))
    (state : State) :
    (runSequence closes item state).2.rest = [] ∨
      closes (runSequence closes item state).2 = true := by
  fun_induction runSequence closes item state with
  | case1 state ended => exact Or.inl ended
  | case2 state _ closed => exact Or.inr closed
  | case3 state _ _ first _ others hypothesis => exact hypothesis

/-- A sequence that nothing closes goes on to the end of the file. -/
theorem runSequence_open_ended
    {α : Type}
    (item : Rule (Option α))
    (state : State) :
    (runSequence (fun _ => false) item state).2.rest = [] := by
  obtain ended | closed := runSequence_ended (fun _ => false) item state
  · exact ended
  · cases closed

end Rule

end Clipper.Grammar
