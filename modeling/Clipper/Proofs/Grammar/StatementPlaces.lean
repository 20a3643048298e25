import Clipper.Proofs.Grammar.ExpressionPlaces
import Clipper.Proofs.Grammar.StatementAlone

/-!
# The tokens under a statement

Read from a state in order without a report, a statement lies on the tokens that
its rule takes: its span is their hull, and everything in it is held by them.  A
block that takes no tokens lies before the next one; what is around it takes
that token, because it is a closing word.  A routine needs no closing word, so
it may reach to the token after an empty body.

Lying on tokens is weaker than standing on them: it says where a statement is,
and not that these tokens alone are read as it.  The stronger fact is proved
elsewhere from the weaker one and from the laws about fewer tokens ahead.
Children are held by some of the tokens of their statement, which is what the
induction over blocks hands up.
-/

namespace Clipper.Grammar

open Rule

/--
The span of the statement is the hull of the tokens, which hold all its parts.
-/
structure Lies
    (made : Stmt)
    (tokens : List Token) :
    Prop where
  span : made.span = hull tokens
  held : ∀ child ∈ Node.children (.statement made), Held tokens child

/--
From a state in order, the statement lies on the tokens that the rule takes.
-/
def LiesOnTaken
    (made : Stmt)
    (state next : State) :
    Prop :=
  ∃ tokens, state.rest = tokens ++ next.rest ∧ Lies made tokens

/-- The tokens that are taken from a state in order are in order. -/
theorem State.InOrder.taken
    {state : State}
    {tokens rest : List Token}
    (order : state.InOrder)
    (shape : state.rest = tokens ++ rest) :
    Ordered tokens := by
  have ordered := order.ahead
  rw [shape] at ordered
  exact ordered.of_infix (List.prefix_append _ _).isInfix

/--
A statement whose span is made of what was
read from the first to the last token.
-/
theorem lies_of_extent
    {α : Type}
    {rule : Rule α}
    {value : α}
    {state next : State}
    {made : Stmt}
    {tokens : List Token}
    (order : state.InOrder)
    (reads : Reads rule state value next)
    (shape : state.rest = tokens ++ next.rest)
    (nonempty : tokens ≠ [])
    (held : ∀ child ∈ Node.children (.statement made), Held tokens child)
    (span :
      made.span =
        Span.mergeAll ⟨state.start, max next.reached state.start⟩
          ((Node.children (.statement made)).map Node.span)) :
    Lies made tokens := by
  refine ⟨?_, held⟩
  rw [span, reads.extent shape nonempty (order.taken shape)]
  exact mergeAll_held held

/-! ## Simple statements -/

section

variable
  {expression : Rule Expr}
  {phrase : Phrase Expr}
  (sound : Sound expression (Exactly phrase))
  (embeds : phrase.Implies (ExpressionPhrase nestingLimit))
  {state next : State}
  (order : state.InOrder)

/-- A binding is held by all tokens among which its own are. -/
def BindingOn
    (tokens : List Token)
    (bound : Binding) :
    Prop :=
  tokens ≠ [] ∧ ∀ ⦃all⦄, Ordered all → tokens <:+: all →
  Held all (.binding bound)

include sound embeds

/--
A declared name stands on the tokens taken for it, and its first
value on some of them.
-/
theorem bindingOn_binding (place : NamePlace) :
    Sound (binding expression place) BindingOn := by
  intro state bound next reads
  rw [binding, reads_expectName_bind, reads_eat_ite] at reads
  obtain ⟨named, ⟨signs, continued⟩ | ⟨-, ended⟩⟩ := reads
  · obtain ⟨value, _, read, ended⟩ := reads_bind.mp continued
    obtain ⟨-, rfl, rfl⟩ := reads_pure.mp ended
    obtain ⟨tokens, taken, exact⟩ := sound _ _ _ read
    refine ⟨[state.current] ++ ([state.advance.current] ++ tokens),
      ?_, by simp, ?_⟩
    · rw [State.rest_of_kind named (by decide),
        State.rest_of_kind signs (by decide), taken]
      simp
    · intro all ordered inside
      have first : [state.current] <:+: all :=
        (List.prefix_append _ _).isInfix.trans inside
      have last : tokens <:+: all := by
        refine List.IsInfix.trans
          ⟨[state.current, state.advance.current], [], ?_⟩ inside
        simp
      have heldValue := held_of_exactly embeds exact ordered last
      have span := (exact.2 (ordered.of_infix last)).1
      constructor
      · refine Node.Everywhere.of_children ?_ ?_
        · trivial
        · refine List.forall_mem_cons.mpr
            ⟨?_, List.forall_mem_cons.mpr ⟨heldValue.placed, ?_⟩⟩
          · exact (held_name ordered first (List.cons_ne_nil _ _) rfl).placed
          · exact List.forall_mem_nil _
      · change (hull all).contains (state.current.span.merge value.span) = true
        have nonempty := (begins_expression _ _ _ (embeds exact.1)).1
        have whole :=
          (ordered.of_infix inside).merge_hull (List.cons_ne_nil _ _) nonempty
        rw [hull_singleton] at whole
        rw [span, whole]
        exact ordered.contains_hull inside (List.cons_ne_nil _ _)
  · obtain ⟨-, rfl, rfl⟩ := reads_pure.mp ended
    refine ⟨[state.current], State.rest_of_kind named (by decide),
      List.cons_ne_nil _ _, ?_⟩
    intro all ordered inside
    have held : Held all
        (.identifier ⟨state.current.lexeme, state.current.span⟩) :=
      held_name ordered inside (List.cons_ne_nil _ _) rfl
    constructor
    · refine Node.Everywhere.of_children ?_ ?_
      · trivial
      · exact List.forall_mem_cons.mpr ⟨held.placed, List.forall_mem_nil _⟩
    · exact held.contained

include order

/-- A declaration lies on the tokens from its word to its last declared name. -/
theorem lies_declaration
    {made : Stmt}
    (words : state.kind = .localWord ∨ state.kind = .static)
    (reads : Reads (declaration expression) state made next) :
    LiesOnTaken made state next := by
  have whole := reads
  rw [declaration, reads_advance_bind] at reads
  obtain ⟨bindings, _, read, reads⟩ := reads_bind.mp reads
  rw [spanFrom, reads_ask_bind, reads_pure] at reads
  obtain ⟨-, rfl, rfl⟩ := reads
  obtain ⟨tokens, taken, phrased⟩ :=
    (bindingOn_binding sound embeds _).separated _ _ _ read
  have shape : state.rest = (state.current :: tokens) ++ next.rest := by
    rw [State.rest_of_either words (by decide) (by decide), taken,
      List.cons_append]
  refine ⟨_, shape, lies_of_extent order whole shape
    (List.cons_ne_nil _ _) ?_ ?_⟩
  · intro child member
    obtain ⟨bound, isBound, rfl⟩ := List.mem_map.mp member
    obtain ⟨part, inside, -, held⟩ := phrased.exists_part isBound
    exact held (order.taken shape) (inside.trans (List.suffix_cons _ _).isInfix)
  · change _ = Span.mergeAll _ ((bindings.map Node.binding).map Node.span)
    rw [List.map_map]
    rfl

/--
A statement that returns lies on its word, or on the tokens from its word to
the end of its value.
-/
theorem lies_resultStatement
    {made : Stmt}
    (words : state.kind = .returnWord)
    (reads : Reads (resultStatement expression) state made next) :
    LiesOnTaken made state next := by
  have whole := reads
  have word := State.rest_of_kind words (by decide)
  rw [resultStatement, reads_advance_bind, reads_ask_bind] at reads
  split at reads
  · obtain ⟨value, _, read, reads⟩ := reads_bind.mp reads
    rw [spanFrom, reads_ask_bind, reads_pure] at reads
    obtain ⟨-, rfl, rfl⟩ := reads
    obtain ⟨tokens, taken, exact⟩ := sound _ _ _ read
    have shape : state.rest = (state.current :: tokens) ++ next.rest := by
      rw [word, taken, List.cons_append]
    refine ⟨_, shape, lies_of_extent order whole shape
      (List.cons_ne_nil _ _) ?_ rfl⟩
    refine List.forall_mem_cons.mpr ⟨?_, List.forall_mem_nil _⟩
    exact held_of_exactly embeds exact (order.taken shape)
      (List.suffix_cons _ _).isInfix
  · rw [spanFrom, reads_ask_bind, reads_pure] at reads
    obtain ⟨-, rfl, rfl⟩ := reads
    refine ⟨[state.current], word,
      lies_of_extent order whole word (List.cons_ne_nil _ _) ?_ rfl⟩
    exact List.forall_mem_nil _

omit sound embeds order in
/-- A statement of one word lies on this word. -/
theorem lies_loopControl
    {made : Stmt}
    (words : state.kind = .exit ∨ state.kind = .loop)
    (reads : Reads loopControl state made next) :
    LiesOnTaken made state next := by
  rw [loopControl, reads_advance_bind, reads_pure] at reads
  obtain ⟨-, rfl, rfl⟩ := reads
  refine ⟨[state.current], State.rest_of_either words (by decide) (by decide),
    ?_⟩
  split
  · exact ⟨rfl, List.forall_mem_nil _⟩
  · exact ⟨rfl, List.forall_mem_nil _⟩

/--
A statement that prints lies on the tokens from its sign to its last
value, if it has any.
-/
theorem lies_printStatement
    {made : Stmt}
    (words : state.kind = .question ∨ state.kind = .doubleQuestion)
    (reads : Reads (printStatement expression) state made next) :
    LiesOnTaken made state next := by
  have whole := reads
  rw [printStatement, reads_advance_bind] at reads
  obtain ⟨values, _, read, reads⟩ := reads_bind.mp reads
  rw [spanFrom, reads_ask_bind, reads_pure] at reads
  obtain ⟨-, rfl, rfl⟩ := reads
  obtain ⟨tokens, taken, phrased⟩ := sound_printedValues sound _ _ _ read
  have shape : state.rest = (state.current :: tokens) ++ next.rest := by
    rw [State.rest_of_either words (by decide) (by decide), taken,
      List.cons_append]
  refine ⟨_, shape, lies_of_extent order whole shape
    (List.cons_ne_nil _ _) ?_ ?_⟩
  · exact held_values embeds (order.taken shape)
      (List.suffix_cons _ _).isInfix phrased
  · change _ = Span.mergeAll _ ((values.map Node.expression).map Node.span)
    rw [List.map_map]
    rfl

/--
A statement that begins as an expression lies on the tokens of the expression,
or of the whole assignment.
-/
theorem lies_expressionStatement
    {made : Stmt}
    (reads : Reads (expressionStatement expression) state made next) :
    LiesOnTaken made state next := by
  have whole := reads
  rw [expressionStatement, reads_ask_bind] at reads
  obtain ⟨target, middle, read, continued⟩ := reads_bind.mp reads
  obtain ⟨tokens, taken, exact⟩ := sound _ _ _ read
  have nonempty := (begins_expression _ _ _ (embeds exact.1)).1
  rw [reads_ask_bind, read.calm_next.steady, if_neg Bool.false_ne_true,
    reads_ask_bind] at continued
  split at continued
  · rw [standalone, spanFrom, reads_ask_bind, reads_pure] at continued
    obtain ⟨-, rfl, rfl⟩ := continued
    refine ⟨tokens, taken, lies_of_extent order whole taken nonempty ?_ rfl⟩
    refine List.forall_mem_cons.mpr ⟨?_, List.forall_mem_nil _⟩
    exact held_of_exactly embeds exact (order.taken taken) (List.infix_refl _)
  · next form signs =>
      have isToken : middle.kind ≠ .endOfFile := by
        intro ended
        rw [ended] at signs
        cases signs
      rw [assignment] at continued
      obtain ⟨_, signed, checked, assigned⟩ := reads_bind.mp continued
      rw [checkTarget] at checked
      split at checked
      · obtain ⟨-, -, rfl⟩ := reads_pure.mp checked
        rw [reads_advance_bind] at assigned
        obtain ⟨value, _, readValue, ended⟩ := reads_bind.mp assigned
        rw [spanFrom, reads_ask_bind, reads_pure] at ended
        obtain ⟨-, rfl, rfl⟩ := ended
        obtain ⟨after, takenAfter, exactAfter⟩ := sound _ _ _ readValue
        have shape : state.rest = (tokens ++ ([signed.current] ++ after)) ++
            next.rest := by
          rw [taken, State.rest_of_kind rfl isToken, takenAfter]
          simp
        have ordered := order.taken shape
        have heldTarget :=
          held_of_exactly embeds exact ordered (List.prefix_append _ _).isInfix
        have heldValue :=
          held_of_exactly embeds exactAfter ordered
            ((List.suffix_append [_] after).trans
              (List.suffix_append tokens _)).isInfix
        have held := List.forall_mem_cons.mpr
          ⟨heldTarget, List.forall_mem_cons.mpr
            ⟨heldValue, List.forall_mem_nil _⟩⟩
        refine ⟨_, shape, lies_of_extent order whole shape
          (List.append_ne_nil_of_left_ne_nil nonempty _) ?_ ?_⟩
        · cases form <;> exact held
        · cases form <;> rfl
      · exact absurd checked not_reads_report

end

/-! ## Blocks in compound statements -/

/--
A block lies on the tokens taken; on none, it lies where the next token begins.
-/
structure BlockLies
    (body : Block)
    (state : State)
    (tokens : List Token)
    (next : State) :
    Prop where
  taken : state.rest = tokens ++ next.rest
  placed : ∀ ⦃all⦄, Ordered all → tokens <:+: all → Placed all (.block body)
  span : body.span = ⟨state.start, max next.reached state.start⟩
  empty : tokens = [] → body.statements = []

/-- Where one of the tokens is ahead of a block, they hold the block. -/
theorem BlockLies.held
    {body : Block}
    {state next : State}
    {tokens after rest all : List Token}
    (lies : BlockLies body state tokens next)
    (order : state.InOrder)
    (orderAfter : next.InOrder)
    (ahead : next.rest = after ++ rest)
    (nonempty : after ≠ [])
    (ordered : Ordered all)
    (inside : tokens ++ after <:+: all) :
    Held all (.block body) := by
  refine ⟨lies.placed ordered ((List.prefix_append _ _).isInfix.trans inside),
    ?_⟩
  have whole : state.rest = (tokens ++ after) ++ rest := by
    rw [lies.taken, ahead, List.append_assoc]
  have nonemptyWhole : tokens ++ after ≠ [] :=
    List.append_ne_nil_of_right_ne_nil _ nonempty
  have orderedPart := order.taken whole
  refine Span.contains_trans (ordered.contains_hull inside nonemptyWhole) ?_
  change (hull (tokens ++ after)).contains body.span = true
  have start : state.start = (hull (tokens ++ after)).start := by
    obtain ⟨token, others, same⟩ := List.exists_cons_of_ne_nil nonemptyWhole
    rw [same] at whole ⊢
    rw [State.start, State.current_of_rest whole]
    rfl
  have reached : next.reached ≤ (hull (tokens ++ after)).stop := by
    obtain ⟨token, others, rfl⟩ := List.exists_cons_of_ne_nil nonempty
    have behind := orderAfter.behind token
        (by rw [ahead]; exact List.mem_cons_self)
    have member : token ∈ tokens ++ token :: others :=
      List.mem_append_right tokens List.mem_cons_self
    exact Nat.le_trans behind
      (Nat.le_trans (orderedPart.proper token member)
        (orderedPart.le_stop member))
  rw [lies.span, Span.contains_iff, start]
  exact ⟨Nat.le_refl _, Nat.max_le.mpr ⟨reached, orderedPart.proper_hull⟩⟩

section

variable
  {expression : Rule Expr}
  {phrase : Phrase Expr}
  (sound : Sound expression (Exactly phrase))
  (embeds : phrase.Implies (ExpressionPhrase nestingLimit))
  {block : List TokenKind → Rule Block}
  (soundBlock :
    ∀ {closers state body next}, Reads (block closers) state body next →
      state.InOrder →
      ∃ tokens, BlockLies body state tokens next)
  {state next : State}
  (order : state.InOrder)

include sound embeds soundBlock

/-! ## Conditionals -/

include order in
/--
What is in an arm is held by the tokens taken for the arm and the
closing word behind it.
-/
theorem held_arm
    {start : Nat}
    {made : Arm}
    (reads : Reads (arm expression block start) state made next) :
    ∃ tokens, state.rest = tokens ++ next.rest ∧ made.start = start ∧
      ∀ ⦃all after rest⦄, next.rest = after ++ rest → after ≠ [] → Ordered all →
        tokens ++ after <:+: all →
          Held all (.expression made.condition) ∧
          Held all (.block made.block) := by
  rw [arm] at reads
  obtain ⟨condition, _, read, afterCondition⟩ := reads_bind.mp reads
  obtain ⟨hasThen, _, ate, afterThen⟩ := reads_bind.mp afterCondition
  obtain ⟨positive, _, blockRead, ended⟩ := reads_bind.mp afterThen
  obtain ⟨-, rfl, rfl⟩ := reads_pure.mp ended
  have orderThen := ate.inOrder (read.inOrder order)
  obtain ⟨tokens, taken, exact⟩ := sound _ _ _ read
  obtain ⟨thenTokens, thenTaken, -⟩ := sound_eat (by decide) _ _ _ ate
  obtain ⟨inner, lies⟩ := soundBlock blockRead orderThen
  refine ⟨tokens ++ (thenTokens ++ inner), ?_, rfl, ?_⟩
  · rw [taken, thenTaken, lies.taken]
    simp
  · intro all after rest ahead nonempty ordered inside
    constructor
    · refine held_of_exactly embeds exact ordered
        (List.IsInfix.trans ⟨[], ?_, ?_⟩ inside)
      · exact thenTokens ++ (inner ++ after)
      · simp
    · refine lies.held orderThen (blockRead.inOrder orderThen) ahead
        nonempty ordered ?_
      refine List.IsInfix.trans ⟨tokens ++ thenTokens, [], ?_⟩ inside
      simp

omit sound embeds soundBlock in
/-- The span of the conditional that an arm makes. -/
theorem span_conditional
    (reached : Nat)
    (made : Arm)
    (negative? : Option Block) :
    (made.conditional reached negative?).span =
      Span.mergeAll ⟨made.start, max reached made.start⟩
        ((Node.children (.statement (made.conditional reached negative?))).map
          Node.span) := by
  cases negative? <;> rfl

omit sound embeds soundBlock in
/--
The parts of an arm and the block after it hold the conditional that they make.
-/
theorem contained_conditional
    {reached : Nat}
    {made : Arm}
    {negative? : Option Block}
    {all : List Token}
    (start : made.start = (hull all).start)
    (reachedInside : reached ≤ (hull all).stop)
    (ordered : Ordered all)
    (held :
      ∀ child ∈ Node.children (.statement (made.conditional reached negative?)),
        Held all child) :
    (hull all).contains (made.conditional reached negative?).span = true := by
  rw [span_conditional]
  apply Span.contains_mergeAll
  · rw [Span.contains_iff, start]
    exact ⟨Nat.le_refl _, Nat.max_le.mpr ⟨reachedInside, ordered.proper_hull⟩⟩
  · intro span member
    obtain ⟨child, isChild, rfl⟩ := List.mem_map.mp member
    exact (held child isChild).contained

omit sound embeds soundBlock in
/--
The parts of a conditional that an arm makes
are held when its block and its parts are.
-/
theorem held_children_conditional
    {reached : Nat}
    {made : Arm}
    {negative? : Option Block}
    {all : List Token}
    (condition : Held all (.expression made.condition))
    (positive : Held all (.block made.block))
    (negative : ∀ block ∈ negative?, Held all (.block block)) :
    ∀ child ∈ Node.children (.statement (made.conditional reached negative?)),
      Held all child := by
  refine List.forall_mem_cons.mpr
    ⟨condition, List.forall_mem_cons.mpr ⟨positive, ?_⟩⟩
  intro child member
  obtain ⟨block, isBlock, rfl⟩ := List.mem_map.mp member
  exact negative block (Option.mem_toList.mp isBlock)

omit sound embeds soundBlock in
/-- An `ELSEIF` with its parts holds the block that it makes. -/
theorem held_nest
    {reached : Nat}
    {made : Arm}
    {negative? : Option Block}
    {word : Token}
    {tokens : List Token}
    (words : word.kind = .elseIf)
    (start : made.start = word.span.start)
    (reachedInside : reached ≤ (hull (word :: tokens)).stop)
    (ordered : Ordered (word :: tokens))
    (held :
      ∀ child ∈ Node.children (.statement (made.conditional reached negative?)),
        Held (word :: tokens) child) :
    ∀ block ∈ made.nest reached negative?,
      Held (word :: tokens) (.block block) := by
  rintro _ ⟨⟩
  have contained := contained_conditional start reachedInside ordered held
  have startNested : word.span.start =
      (made.conditional reached negative?).span.start := by
    apply Nat.le_antisymm ((Span.contains_iff _ _).mp contained).1
    change _ ≤ word.span.start
    rw [span_conditional, ← start]
    exact ((Span.contains_iff _ _).mp (Span.contains_mergeAll_self _ _)).1
  refine ⟨?_, contained⟩
  refine Node.Everywhere.of_children trivial
    (List.forall_mem_cons.mpr ⟨?_, List.forall_mem_nil _⟩)
  apply Node.Everywhere.of_children
  · exact .inl ⟨rfl, word, List.mem_cons_self, words, startNested⟩
  · exact fun child member => (held child member).placed

omit sound embeds soundBlock in
/--
A further arm with what comes after it, up to the closing word, holds the block
that it makes.  The parts of the arm are held by all these tokens, and what is
nested in its conditional by those after the arm.
-/
theorem held_further
    {reached : Nat}
    {made : Arm}
    {negative? : Option Block}
    {word closing : Token}
    {tokens further : List Token}
    (words : word.kind = .elseIf)
    (start : made.start = word.span.start)
    (bound : reached ≤ closing.span.start)
    (ordered : Ordered (word :: (tokens ++ (further ++ [closing]))))
    (condition :
      Held (word :: (tokens ++ (further ++ [closing])))
        (.expression made.condition))
    (positive :
      Held (word :: (tokens ++ (further ++ [closing]))) (.block made.block))
    (negative :
      ∀ block ∈ negative?, Held (further ++ [closing]) (.block block)) :
    ∀ block ∈ made.nest reached negative?,
      Held (word :: (tokens ++ (further ++ [closing]))) (.block block) := by
  have member : closing ∈ word :: (tokens ++ (further ++ [closing])) := by simp
  have reachedInside :
      reached ≤ (hull (word :: (tokens ++ (further ++ [closing])))).stop :=
    Nat.le_trans bound
      (Nat.le_trans (ordered.proper closing member) (ordered.le_stop member))
  have inside :
      further ++ [closing] <:+: word :: (tokens ++ (further ++ [closing])) :=
    ((List.suffix_append tokens _).trans (List.suffix_cons word _)).isInfix
  apply held_nest words start reachedInside ordered
  apply held_children_conditional condition positive
  intro block isNegative
  exact (negative block isNegative).mono ordered inside
    (List.append_ne_nil_of_right_ne_nil _ (List.cons_ne_nil _ _))

/--
The tokens of the further arms and of the closing word hold the alternative.
-/
theorem held_alternative
    {closing : Token}
    {rest : List Token}
    {last? : Option Block}
    (closes : next.rest = closing :: rest)
    (arms : List Arm) :
    ∀ {state middle : State},
      Reads (many (furtherArm? expression block)) state arms middle →
        Reads (optionalAfter .elseWord (block [.endIf])) middle last? next →
          state.InOrder →
          ∃ tokens, state.rest = tokens ++ next.rest ∧
            ∀ reached, reached ≤ closing.span.start →
              ∀ negative ∈ arms.foldr (Arm.nest reached) last?,
                Held (tokens ++ [closing]) (.block negative) := by
  induction arms with
  | nil =>
      intro state middle looped lastRead order
      obtain ⟨-, -, rfl⟩ := reads_many_nil.mp looped
      rw [optionalAfter, reads_eat_ite] at lastRead
      rcases lastRead with ⟨word, continued⟩ | ⟨-, ended⟩
      · obtain ⟨negative, read, rfl⟩ := reads_map.mp continued
        obtain ⟨tokens, lies⟩ := soundBlock read order.advance
        have shape : middle.rest = (middle.current :: tokens) ++ next.rest := by
          rw [State.rest_of_kind word (by decide), lies.taken, List.cons_append]
        refine ⟨_, shape, ?_⟩
        rintro reached - _ ⟨⟩
        have whole : middle.rest = ((middle.current :: tokens) ++ [closing]) ++
            rest := by
          rw [shape, closes]
          simp
        have ahead : next.rest = [closing] ++ rest := closes
        exact lies.held order.advance (read.inOrder order.advance) ahead
          (List.cons_ne_nil _ _)
          (order.taken whole) (List.suffix_cons _ _).isInfix
      · obtain ⟨-, rfl, rfl⟩ := reads_pure.mp ended
        refine ⟨[], rfl, ?_⟩
        rintro reached - _ ⟨⟩
  | cons made arms hypothesis =>
      intro state middle looped lastRead order
      obtain ⟨word, others, rule, between, shape, opened, once, again⟩ :=
        reads_many_cons.mp looped
      rw [furtherArm?] at opened
      split at opened
      · next words =>
          cases opened
          obtain ⟨tokens, taken, start, heldArm⟩ :=
            held_arm sound embeds soundBlock order.advance once
          have orderBetween := once.inOrder order.advance
          obtain ⟨further, furtherTaken, heldFurther⟩ :=
            hypothesis again lastRead orderBetween
          have shapeAll : state.rest = (word :: (tokens ++ further)) ++
              next.rest := by
            rw [shape, ← State.rest_advance shape, taken, furtherTaken]
            simp
          refine ⟨_, shapeAll, fun reached bound => ?_⟩
          have whole : state.rest =
              (word :: (tokens ++ (further ++ [closing]))) ++ rest := by
            rw [shapeAll, closes]
            simp
          have ordered := order.taken whole
          have ahead : between.rest = (further ++ [closing]) ++ rest := by
            rw [furtherTaken, closes, List.append_assoc, List.singleton_append]
          obtain ⟨condition, positive⟩ :=
            heldArm ahead (List.append_ne_nil_of_right_ne_nil _
              (List.cons_ne_nil _ _)) ordered
              (List.suffix_cons word _).isInfix
          rw [List.cons_append, List.append_assoc]
          exact held_further words start bound ordered condition positive
            (heldFurther reached bound)
      · cases opened

include order in
/--
A conditional lies on the tokens from its word to its closing word.  The
conditionals of its further arms begin at their words and end with it.
-/
theorem lies_conditional
    {made : Stmt}
    (words : state.kind = .ifWord)
    (reads : Reads (conditional expression block) state made next) :
    LiesOnTaken made state next := by
  have whole := reads
  rw [conditional, reads_advance_bind] at reads
  obtain ⟨first, afterFirst, firstRead, continued⟩ := reads_bind.mp reads
  obtain ⟨arms, _, looped, continued⟩ := reads_bind.mp continued
  obtain ⟨last?, last, lastRead, continued⟩ := reads_bind.mp continued
  rw [reads_ask_bind] at continued
  obtain ⟨closes, ended⟩ := reads_close_bind continued
  rw [spanFrom, reads_ask_bind, reads_pure] at ended
  obtain ⟨-, rfl, rfl⟩ := ended
  have orderFirst := firstRead.inOrder order.advance
  have orderLast := lastRead.inOrder (looped.inOrder orderFirst)
  have closing := State.rest_of_kind closes (by decide)
  obtain ⟨tokens, taken, start, heldFirst⟩ :=
    held_arm sound embeds soundBlock order.advance firstRead
  obtain ⟨others, othersTaken, heldOthers⟩ :=
    held_alternative sound embeds soundBlock closing arms looped
      lastRead orderFirst
  have shape :
      state.rest =
        (state.current :: (tokens ++ (others ++ [last.current]))) ++
          last.advance.rest := by
    rw [State.rest_of_kind words (by decide), taken, othersTaken, closing]
    simp
  refine ⟨_, shape, ?_⟩
  have ordered := order.taken shape
  have ahead : afterFirst.rest = (others ++ [last.current]) ++
      last.advance.rest := by
    rw [othersTaken, closing, List.append_assoc, List.singleton_append]
  obtain ⟨condition, positive⟩ :=
    heldFirst ahead
      (List.append_ne_nil_of_right_ne_nil _ (List.cons_ne_nil _ _)) ordered
      (List.suffix_cons state.current _).isInfix
  have reached : last.reached ≤ last.current.span.start :=
    orderLast.behind _ (by rw [closing]; exact List.mem_cons_self)
  have negative :
      ∀ negative ∈ arms.foldr (Arm.nest last.reached) last?,
        Held (state.current :: (tokens ++ (others ++ [last.current])))
          (.block negative) := by
    intro negative isNegative
    exact (heldOthers last.reached reached negative isNegative).mono ordered
      ((List.suffix_append tokens _).trans (List.suffix_cons _ _)).isInfix
      (List.append_ne_nil_of_right_ne_nil _ (List.cons_ne_nil _ _))
  have held :
      ∀ child ∈ Node.children
          (.statement (first.conditional last.reached
            (arms.foldr (Arm.nest last.reached) last?))),
        Held _ child :=
    held_children_conditional condition positive negative
  have member : last.current ∈
      state.current :: (tokens ++ (others ++ [last.current])) := by simp
  have reachedInside :=
    Nat.le_trans reached
      (Nat.le_trans (ordered.proper _ member) (ordered.le_stop member))
  have contained := contained_conditional start reachedInside ordered held
  refine ⟨?_, held⟩
  have extent := whole.extent shape (List.cons_ne_nil _ _) ordered
  change Span.merge ⟨state.start, max last.advance.reached state.start⟩ _ = _
  rw [extent]
  exact Span.merge_of_contains contained

/-! ## Loops -/

include order

/--
A loop with a condition lies on the tokens from its first word
to its closing word.
-/
theorem lies_whileLoop
    {made : Stmt}
    (words : state.kind = .whileWord ∨ state.kind = .doWord ∧
      state.secondKind = .whileWord)
    (reads : Reads (whileLoop expression block) state made next) :
    LiesOnTaken made state next := by
  have whole := reads
  rw [whileLoop, reads_ask_bind] at reads
  obtain ⟨hasDo, opened, ate, afterDo⟩ := reads_bind.mp reads
  have word := kind_of_eatDo words ate
  rw [reads_advance_bind] at afterDo
  obtain ⟨condition, _, read, afterCondition⟩ := reads_bind.mp afterDo
  obtain ⟨_, inside, trailing, afterTrailing⟩ := reads_bind.mp afterCondition
  obtain ⟨body, last, blockRead, afterBody⟩ := reads_bind.mp afterTrailing
  obtain ⟨closes, ended⟩ := reads_close_bind afterBody
  rw [spanFrom, reads_ask_bind, reads_pure] at ended
  obtain ⟨-, rfl, rfl⟩ := ended
  have orderInside :=
    trailing.inOrder (read.inOrder (ate.inOrder order).advance)
  have closing := State.rest_of_kind closes (by decide)
  obtain ⟨before, beforeTaken, -⟩ := sound_eat (by decide) _ _ _ ate
  obtain ⟨tokens, taken, exact⟩ := sound _ _ _ read
  obtain ⟨after, afterTaken, -⟩ := sound_trailingDo _ _ _ trailing
  obtain ⟨inner, lies⟩ := soundBlock blockRead orderInside
  have shape :
      state.rest =
        ((before ++ [opened.current]) ++
          (tokens ++ (after ++ (inner ++ [last.current])))) ++
          last.advance.rest := by
    rw [beforeTaken, State.rest_of_kind word (by decide), taken, afterTaken,
      lies.taken, closing]
    simp
  have nonempty :
      (before ++ [opened.current]) ++
        (tokens ++ (after ++ (inner ++ [last.current]))) ≠ [] := by
    simp
  have ordered := order.taken shape
  have heldCondition :=
    held_of_exactly embeds exact ordered
      (List.infix_append' (before ++ [opened.current]) tokens _)
  have ahead : last.rest = [last.current] ++ last.advance.rest := closing
  have heldBody :=
    lies.held orderInside (blockRead.inOrder orderInside) ahead
      (List.cons_ne_nil _ _) ordered
      ⟨(before ++ [opened.current]) ++ (tokens ++ after), [], by simp⟩
  refine ⟨_, shape, ?_, List.forall_mem_cons.mpr
    ⟨heldCondition, List.forall_mem_cons.mpr ⟨heldBody, List.forall_mem_nil _⟩⟩⟩
  change Span.merge
    (Span.merge ⟨state.start, max last.advance.reached state.start⟩ body.span)
    condition.span = _
  have keepsBody := Span.merge_of_contains heldBody.contained
  have keepsCondition := Span.merge_of_contains heldCondition.contained
  rw [whole.extent shape nonempty ordered]
  exact (congrArg (fun span => Span.merge span condition.span) keepsBody).trans
    keepsCondition

/--
A counting loop lies on the tokens from its word to its closing word, or to
the counter behind it.
-/
theorem lies_forLoop
    {made : Stmt}
    (words : state.kind = .forWord)
    (reads : Reads (forLoop expression block) state made next) :
    LiesOnTaken made state next := by
  have whole := reads
  rw [forLoop, reads_advance_bind, reads_expectName_bind] at reads
  obtain ⟨named, afterName⟩ := reads
  obtain ⟨signs, afterSign⟩ := reads_counterSign_bind afterName
  obtain ⟨first, middle, firstRead, afterFirst⟩ := reads_bind.mp afterSign
  rw [reads_expect_bind] at afterFirst
  obtain ⟨tos, afterTo⟩ := afterFirst
  obtain ⟨last, _, lastRead, afterLast⟩ := reads_bind.mp afterTo
  obtain ⟨step?, inside, stepRead, afterStep⟩ := reads_bind.mp afterLast
  obtain ⟨body, ending, blockRead, afterBody⟩ := reads_bind.mp afterStep
  obtain ⟨_, _, closed, ended⟩ := reads_bind.mp afterBody
  rw [spanFrom, reads_ask_bind, reads_pure] at ended
  obtain ⟨-, rfl, rfl⟩ := ended
  have orderFirst := firstRead.inOrder order.advance.advance.advance
  have orderInside := stepRead.inOrder (lastRead.inOrder orderFirst.advance)
  obtain ⟨firsts, firstTaken, exactFirst⟩ := sound _ _ _ firstRead
  obtain ⟨lasts, lastTaken, exactLast⟩ := sound _ _ _ lastRead
  obtain ⟨steps, stepTaken, stepped⟩ :=
    sound.optionalAfter (by decide) _ _ _ stepRead
  obtain ⟨inner, lies⟩ := soundBlock blockRead orderInside
  obtain ⟨again, closes, againTaken, -⟩ := sound_closeFor closed
  have closing := State.rest_of_kind closes (by decide)
  have shape :
      state.rest =
        ([state.current, state.advance.current,
          state.advance.advance.current] ++
          (firsts ++ ([middle.current] ++ (lasts ++ (steps ++ (inner ++
            ([ending.current] ++ again))))))) ++ next.rest := by
    rw [State.rest_of_kind words (by decide),
      State.rest_of_kind named (by decide),
      State.rest_of_either signs (by decide) (by decide), firstTaken,
      State.rest_of_kind tos (by decide), lastTaken, stepTaken, lies.taken,
      closing, againTaken]
    simp
  have ordered := order.taken shape
  have ahead : ending.rest = [ending.current] ++ (again ++ next.rest) := by
    rw [closing, againTaken]
    rfl
  have heldCounter :
      Held _ (.identifier
        ⟨state.advance.current.lexeme, state.advance.current.span⟩) :=
    held_name ordered
      (List.infix_append' [state.current] [state.advance.current] _)
      (List.cons_ne_nil _ _) rfl
  have heldFirst := held_of_exactly embeds exactFirst ordered
      (List.infix_append' _ firsts _)
  have heldLast :=
    held_of_exactly embeds exactLast ordered
      (infix_behind _ (infix_behind firsts (List.infix_append' _ lasts _)))
  have heldBody :=
    lies.held orderInside (blockRead.inOrder orderInside) ahead
      (List.cons_ne_nil _ _) ordered
      (infix_behind _ (infix_behind firsts (infix_behind _ (infix_behind lasts
        (infix_behind steps ⟨[], again, by simp⟩)))))
  refine ⟨_, shape, lies_of_extent order whole shape
    (List.cons_ne_nil _ _) ?_ ?_⟩
  · refine List.forall_mem_cons.mpr
      ⟨heldCounter, List.forall_mem_cons.mpr ⟨heldFirst, ?_⟩⟩
    refine List.forall_mem_cons.mpr
      ⟨heldLast, List.forall_mem_append.mpr ⟨?_, ?_⟩⟩
    · intro node member
      obtain ⟨step, isStep, rfl⟩ := List.mem_map.mp member
      cases stepped with
      | absent => cases isStep
      | @present word part value kind after =>
          rw [List.mem_singleton.mp isStep]
          exact held_of_exactly embeds after ordered
            (infix_behind _
              (infix_behind firsts (infix_behind _ (infix_behind lasts
                (List.infix_append' [word] part _)))))
    · exact List.forall_mem_cons.mpr ⟨heldBody, List.forall_mem_nil _⟩
  · cases step? <;> rfl

end

/-! ## Routines -/

/--
The parameters of a routine are held by all tokens among which theirs are.
-/
def HeldNames
    (tokens : List Token)
    (names : List Identifier) :
    Prop :=
  ∀ ⦃all⦄, Ordered all → tokens <:+: all →
    ∀ node ∈ names.map Node.identifier, Held all node

/-- The names of the parameters are held by the tokens of the list. -/
theorem held_parameters : Sound parameters HeldNames := by
  intro state names next reads
  rw [parameters, reads_eat_ite] at reads
  obtain ⟨opens, continued⟩ | ⟨-, ended⟩ := reads
  · obtain ⟨_, taken, tokens, closing, rfl, between, closes⟩ :=
      (nameOn_expectName .openingParenthesis).enclosed
        (by decide) _ _ _ _ continued
    refine ⟨state.current :: (tokens ++ [closing]), ?_,
      fun all ordered inside => ?_⟩
    · rw [State.rest_of_kind opens (by decide), taken, List.cons_append]
    · exact held_names ordered ((List.infix_append' [_] tokens _).trans inside)
        between
  · obtain ⟨-, rfl, rfl⟩ := reads_pure.mp ended
    exact ⟨[], rfl, fun _ _ _ => List.forall_mem_nil _⟩

/-- The head of a routine lies on the tokens that open the routine. -/
structure HeadLies
    (start : Nat)
    (head : RoutineHead)
    (state : State)
    (tokens : List Token)
    (next : State) :
    Prop where
  taken : state.rest = tokens ++ next.rest
  nonempty : tokens ≠ []
  start : start = state.start
  held :
    ∀ ⦃all⦄, Ordered all → tokens <:+: all →
      ∀ node ∈ .identifier head.name :: head.parameters.map Node.identifier,
        Held all node

/--
The head of a routine lies on the tokens from its first
word to its parameters.
-/
theorem headLies_routineOpening
    {state next : State}
    {opened : Nat × RoutineHead}
    (opens : opensRoutine state.rest = true)
    (reads : Reads routineOpening state opened next) :
    ∃ tokens, HeadLies opened.1 opened.2 state tokens next := by
  rw [routineOpening, reads_ask_bind] at reads
  obtain ⟨isStatic, word, ate, headRead⟩ := reads_bind.mp reads
  have isWord := isRoutineWord_of_eatStatic opens ate
  rw [routineHead, reads_advance_bind, reads_expectName_bind] at headRead
  obtain ⟨named, afterName⟩ := headRead
  obtain ⟨names, _, namesRead, ended⟩ := reads_bind.mp afterName
  obtain ⟨-, rfl, rfl⟩ := reads_pure.mp ended
  obtain ⟨before, beforeTaken, -⟩ := sound_eat (by decide) _ _ _ ate
  obtain ⟨tokens, taken, heldNames⟩ := held_parameters _ _ _ namesRead
  refine ⟨(before ++ [word.current]) ++ ([word.advance.current] ++ tokens),
    ?_, by simp, rfl, ?_⟩
  · rw [beforeTaken, rest_of_isRoutineWord isWord,
      State.rest_of_kind named (by decide), taken]
    simp
  · intro all ordered inside
    refine List.forall_mem_cons.mpr ⟨?_, heldNames ordered ?_⟩
    · exact held_name ordered
        ((List.infix_append' _ [word.advance.current] tokens).trans inside)
        (List.cons_ne_nil _ _)
        rfl
    · exact (infix_behind _ (infix_behind _ (List.infix_refl tokens))).trans
        inside

/--
Where a routine lies: on its tokens, or, with an empty body and no closing word,
from the first of them to the next token.
-/
inductive RoutineLies
    (made : Stmt)
    (state : State)
    (tokens : List Token)
    (next : State) :
    Prop where
  | closed (span : made.span = hull tokens)
  | unclosed
      {start : Nat}
      {head : RoutineHead}
      {span bodySpan : Span}
      {middle : State}
      (same : made = .routine head (.of [] bodySpan) span)
      (opening : Reads routineOpening state (start, head) middle)
      (taken : state.rest = tokens ++ middle.rest)
      (extent : made.span = ⟨(hull tokens).start, next.start⟩)

/--
The span of a routine reaches from its start over its name,
its parameters and its block.
-/
theorem span_routineOf
    {start : Nat}
    {head : RoutineHead}
    {body : Block}
    {state next : State}
    {made : Stmt}
    (reads : Reads (routineOf start head body) state made next) :
    next = state ∧ ∃ span, made = .routine head body span ∧
      span = (Span.mergeAll ⟨start, max state.reached start⟩
        ((Node.identifier head.name :: head.parameters.map Node.identifier).map
          Node.span)).merge
          body.span := by
  rw [routineOf, spanFrom, reads_ask_bind, reads_pure] at reads
  obtain ⟨-, rfl, rfl⟩ := reads
  refine ⟨rfl, _, rfl, ?_⟩
  rw [List.map_cons, List.map_map]
  rfl

/--
A routine lies on the tokens from its first word to its closing word.  Without
that word it ends with its body, if this is not empty.
-/
theorem lies_routine
    {block : List TokenKind → Rule Block}
    (soundBlock :
      ∀ {closers state body next}, Reads (block closers) state body next →
        state.InOrder →
        ∃ tokens, BlockLies body state tokens next)
    {state next : State}
    {made : Stmt}
    (order : state.InOrder)
    (opens : opensRoutine state.rest = true)
    (reads : Reads (routine block) state made next) :
    ∃ tokens, state.rest = tokens ++ next.rest ∧
      (∀ child ∈ Node.children (.statement made), Placed tokens child) ∧
        RoutineLies made state tokens next := by
  have whole := reads
  rw [routine_eq] at reads
  obtain ⟨opened, inside, opening, continued⟩ := reads_bind.mp reads
  obtain ⟨body, last, blockRead, continued⟩ := reads_bind.mp continued
  obtain ⟨_, closed, closing, ended⟩ := reads_bind.mp continued
  obtain ⟨rfl, span, rfl, isSpan⟩ := span_routineOf ended
  have orderInside := opening.inOrder order
  have orderLast := blockRead.inOrder orderInside
  obtain ⟨before, head⟩ := headLies_routineOpening opens opening
  obtain ⟨inner, lies⟩ := soundBlock blockRead orderInside
  obtain ⟨ending, endingTaken, _, ends⟩ := sound_closeRoutine _ _ _ closing
  have shape : state.rest = (before ++ (inner ++ ending)) ++ next.rest := by
    rw [head.taken, lies.taken, endingTaken]
    simp
  have nonempty := List.append_ne_nil_of_left_ne_nil head.nonempty
      (inner ++ ending)
  have ordered := order.taken shape
  have held := head.held ordered (List.prefix_append before _).isInfix
  refine ⟨_, shape, ?_, ?_⟩
  · refine List.forall_mem_cons.mpr ⟨(held _ List.mem_cons_self).placed, ?_⟩
    refine List.forall_mem_append.mpr ⟨?_, ?_⟩
    · exact fun node member =>
        (held node (List.mem_cons_of_mem _ member)).placed
    · refine List.forall_mem_cons.mpr ⟨?_, List.forall_mem_nil _⟩
      exact lies.placed ordered (List.infix_append' before inner ending)
  · rw [head.start, whole.extent shape nonempty ordered, mergeAll_held held]
      at isSpan
    have closedBy (contained : (hull (before ++ (inner ++ ending))).contains
        body.span = true) :
        RoutineLies (.routine opened.2 body span) state
          (before ++ (inner ++ ending)) next :=
      .closed (isSpan.trans (Span.merge_of_contains contained))
    cases ends with
    | @present word kind =>
        apply closedBy
        exact (lies.held orderInside orderLast endingTaken
          (List.cons_ne_nil _ _) ordered
          (infix_behind before (List.infix_refl _))).contained
    | absent =>
        rcases Decidable.em (inner = []) with rfl | nonemptyInner
        · have startLast := State.start_of_takesOnly_nil
              (blockRead.takesOnly lies.taken)
          have startNext := State.start_of_takesOnly_nil
              (closing.takesOnly endingTaken)
          have reachedLast := orderLast.reached_le_start
          have reached := (whole.takesOnly shape).reached_eq_hull nonempty
          have reachedNext := (whole.inOrder order).reached_le_start
          have bodySpan : body.span = ⟨next.start, next.start⟩ := by
            rw [lies.span, startNext, startLast,
              Nat.max_eq_right (startLast ▸ reachedLast)]
          have same : body = .of [] body.span := by
            rw [← lies.empty rfl]
            cases body
            rfl
          have taken : state.rest = (before ++ ([] ++ [])) ++ inside.rest := by
            rw [head.taken, List.append_nil, List.append_nil]
          refine .unclosed
            (congrArg (fun body => Stmt.routine opened.2 body span) same)
              opening
            taken ?_
          change span = _
          have startBefore : (hull (before ++ ([] ++ []))).start ≤ next.start :=
            Nat.le_trans ordered.proper_hull (reached ▸ reachedNext)
          rw [isSpan, bodySpan, Span.merge, ← reached,
            Nat.max_eq_right reachedNext, Nat.min_eq_left startBefore]
        · apply closedBy
          rw [lies.span, blockRead.extent lies.taken nonemptyInner
            (orderInside.taken lies.taken)]
          exact ordered.contains_hull (List.infix_append' before inner [])
            nonemptyInner

/-! ## Statements and blocks -/

section

variable
  {levels : Nat}
  (le : levels ≤ nestingLimit)
  (soundBlock :
    ∀ {closers state body next}, Reads (blocks levels closers) state body next →
      state.InOrder →
      ∃ tokens, BlockLies body state tokens next)
  {state next : State}
  (order : state.InOrder)

include le soundBlock order

/--
A statement of any form but a routine lies on the tokens taken for it.  The
cases are the forms.
-/
theorem lies_proper
    {form : StatementForm}
    {rule : Rule Stmt}
    {made : Stmt}
    (there : form.Ahead state)
    (noRoutine : form ≠ .routine)
    (isRule : form.proper? (expression levels) (blocks levels) = some rule)
    (reads : Reads rule state made next) :
    LiesOnTaken made state next := by
  have sound := exactly_expression le
  have embeds : Phrase.Implies (ExpressionPhrase levels)
      (ExpressionPhrase nestingLimit) :=
    ExpressionPhrase.mono le
  cases form with
  | empty | strayCloser => cases isRule
  | routine => exact absurd rfl noRoutine
  | conditional =>
      cases isRule
      exact lies_conditional sound embeds soundBlock order there reads
  | whileLoop =>
      cases isRule
      exact lies_whileLoop sound embeds soundBlock order there reads
  | forLoop =>
      cases isRule
      exact lies_forLoop sound embeds soundBlock order there reads
  | declaration =>
      cases isRule
      exact lies_declaration sound embeds order there reads
  | result =>
      cases isRule
      exact lies_resultStatement sound embeds order there reads
  | control =>
      cases isRule
      exact lies_loopControl there reads
  | print =>
      cases isRule
      exact lies_printStatement sound embeds order there reads
  | expression =>
      cases isRule
      exact lies_expressionStatement sound embeds order reads

/-- A statement that is no routine is held by its own tokens. -/
theorem held_statement
    {made : Stmt}
    (noRoutine : opensRoutine state.rest = false)
    (reads : Reads (statement levels) state (some made) next) :
    ∃ part ending, state.rest = part ++ (ending ++ next.rest) ∧ part ≠ [] ∧
      Held part (.statement made) := by
  rw [statement_eq, statementOf, reads_recovered_bind, reads_ask_bind] at reads
  obtain ⟨rule, middle, isRule, read, ending, endingTaken⟩ := reads_proper reads
  have there := StatementForm.ahead_of state
  have noRoutineForm : StatementForm.of state ≠ .routine := by
    intro isRoutine
    rw [isRoutine] at there
    rw [show opensRoutine state.rest = true from there] at noRoutine
    cases noRoutine
  obtain ⟨part, taken, lies⟩ :=
    lies_proper le soundBlock order there noRoutineForm isRule read
  have alone := alone_of_proper le isRule read taken
  refine ⟨part, ending, ?_, ?_, ?_, ?_⟩
  · rw [taken, endingTaken]
  · obtain ⟨left, last, rfl, -, readAlone, -⟩ := alone
    intro ended
    have takes := Curtailment.takes_statement readAlone
    rw [ended] at takes
    exact Nat.not_lt_zero _ takes
  · apply Node.Everywhere.of_children
    · exact .inr ⟨part, List.infix_refl part, lies.span, alone⟩
    · exact fun child member => (lies.held child member).placed
  · change (hull part).contains made.span = true
    rw [lies.span]
    exact Span.contains_refl _

end

/--
What every round of the loop over statements makes lies
among the tokens of the loop. Where it lies may depend on
the tokens behind its own, and on the end of the file.
-/
theorem exists_part_sequence
    {closes : State → Bool}
    {item : Rule (Option Stmt)}
    {lies : List Token → Stmt → List Token → Prop}
    (takes :
      ∀ {state made? next}, Reads item state made? next →
        next.rest.length < state.rest.length)
    {state next : State}
    (round :
      ∀ {before made after}, closes before = false →
        Reads item before (some made) after →
        before.InOrder → before.stop = state.stop →
          ∃ part ending, before.rest = part ++ (ending ++ after.rest) ∧
            lies part made (ending ++ after.rest))
    {values : List Stmt}
    (reads : Reads (sequence closes item) state values next)
    (order : state.InOrder) :
    ∃ tokens, state.rest = tokens ++ next.rest ∧ (tokens = [] → values = []) ∧
      ∀ made ∈ values, ∃ before part after, tokens = before ++ (part ++ after) ∧
        lies part made (after ++ next.rest) := by
  induction bound : state.rest.length using Nat.strongRecOn
    generalizing state values with
  | ind length hypothesis =>
      rcases reads.of_sequence with
        ⟨-, rfl, rfl⟩ | ⟨first, middle, others, opened, once, again, rfl⟩
      · exact ⟨[], rfl, fun _ => rfl, List.forall_mem_nil _⟩
      · have taken := takes once
        rw [State.forward_of_taken taken] at again
        obtain ⟨front, frontTaken⟩ := item.suffix state
        rw [once.run] at frontTaken
        have stop := (once.takesOnly frontTaken.symm).stop
        obtain ⟨tokens, shape, -, lieOthers⟩ :=
          hypothesis middle.rest.length (bound ▸ taken)
            (stop.symm ▸ round) again (once.inOrder order) rfl
        have whole : state.rest = (front ++ tokens) ++ next.rest := by
          rw [← frontTaken, shape, List.append_assoc]
        have lieLater :
            ∀ made ∈ others, ∃ before part after,
              front ++ tokens = before ++ (part ++ after) ∧
              lies part made (after ++ next.rest) := by
          intro made member
          obtain ⟨before, part, after, rfl, lie⟩ := lieOthers made member
          exact ⟨front ++ before, part, after,
            (List.append_assoc _ _ _).symm, lie⟩
        refine ⟨front ++ tokens, whole, ?_, ?_⟩
        · intro ended
          rw [← frontTaken, (List.append_eq_nil_iff.mp ended).1] at taken
          exact absurd taken (Nat.lt_irrefl _)
        · cases first with
          | none => exact lieLater
          | some made =>
              obtain ⟨part, ending, partTaken, lie⟩ :=
                round opened once order rfl
              refine List.forall_mem_cons.mpr
                ⟨⟨[], part, ending ++ tokens, ?_, ?_⟩, lieLater⟩
              · rw [partTaken, shape, ← List.append_assoc, ← List.append_assoc]
                  at whole
                rw [← List.append_cancel_right whole, List.append_assoc]
                rfl
              · rwa [List.append_assoc, ← shape]

/--
A statement is held by tokens of its own, whatever tokens stand behind these.
-/
def HeldOn
    (part : List Token)
    (made : Stmt)
    (_ : List Token) :
    Prop :=
  part ≠ [] ∧ Held part (.statement made)

/--
A block lies on the tokens taken for its statements, or before the next
token if there are none.
-/
theorem blockLies_blocks
    {levels : Nat}
    (le : levels ≤ nestingLimit) :
    ∀ {closers state body next}, Reads (blocks levels closers) state body next →
      state.InOrder →
      ∃ tokens, BlockLies body state tokens next := by
  induction levels with
  | zero =>
      intro closers state body next reads order
      obtain ⟨_, -, impossible⟩ := sound_blockTooDeep _ _ _ reads
      exact impossible.elim
  | succ levels hypothesis =>
      have leBelow := Nat.le_of_succ_le le
      intro closers state body next reads order
      have whole := reads
      rw [blocks, blockOf, reads_ask_bind] at reads
      obtain ⟨statements, _, looped, continued⟩ := reads_bind.mp reads
      rw [reads_recovered_bind, spanFrom, reads_ask_bind, reads_pure]
        at continued
      obtain ⟨-, rfl, rfl⟩ := continued
      have round
          {before : State}
          {made : Stmt}
          {after : State}
          (opened : endsBlock closers before = false)
          (read : Reads (statement levels) before (some made) after)
          (orderHere : before.InOrder)
          (_ : before.stop = state.stop) :
          ∃ part ending, before.rest = part ++ (ending ++ after.rest) ∧
            HeldOn part made (ending ++ after.rest) := by
        rw [endsBlock, Bool.or_eq_false_iff] at opened
        exact held_statement leBelow (hypothesis leBelow) orderHere
          opened.2 read
      obtain ⟨tokens, taken, empty, lie⟩ :=
        exists_part_sequence Curtailment.takes_statement round looped order
      have ordered := order.taken taken
      refine ⟨tokens, taken, ?_, ?_, empty⟩
      · intro all orderedAll inside
        refine Node.Everywhere.of_children trivial ?_
        intro child member
        obtain ⟨made, isMade, rfl⟩ := List.mem_map.mp member
        obtain ⟨before, part, after, rfl, -, held⟩ := lie made isMade
        exact held.placed.mono
          ((List.infix_append' before part after).trans inside)
      · rcases Decidable.em (tokens = []) with ended | nonempty
        · rw [empty ended]
          rfl
        · have extent := whole.extent taken nonempty ordered
          change Span.mergeAll ⟨state.start, max _ state.start⟩
            (statements.map Stmt.span) = _
          rw [extent]
          apply Span.mergeAll_of_contains
          intro span member
          obtain ⟨made, isMade, rfl⟩ := List.mem_map.mp member
          obtain ⟨before, part, after, rfl, nonemptyPart, held⟩ :=
            lie made isMade
          exact (held.mono ordered (List.infix_append' before part after)
            nonemptyPart).contained

end Clipper.Grammar
