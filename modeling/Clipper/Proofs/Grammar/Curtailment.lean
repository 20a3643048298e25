import Clipper.Proofs.Grammar.Complete
import Clipper.Proofs.Grammar.Passes

/-!
# Fewer tokens ahead

What a rule reads without a report does not depend on the tokens behind it: it
reads the same where these tokens are missing, or where others stand instead.  A
rule looks at the token behind what it takes, and at two places one further; so
nothing may stand behind that prolongs what was read, and the tokens may not end
in a word of which the one further token tells what it opens.  Where a token
before the seam is left in the end, no rule looks at what stands behind, and it
may be anything.

The judgement is about one state and relates two rules, so that the second one
may have more levels left.
-/

namespace Clipper.Grammar

open Rule

/--
The tokens do not end in a word that is understood only by the token after it.
-/
def EndsClear (tokens : List Token) : Prop :=
  ∀ token ∈ tokens.getLast?, token.kind ≠ .static ∧ token.kind ≠ .doWord

theorem EndsClear.of_suffix
    {tokens later : List Token}
    (clear : EndsClear tokens)
    (suffix : later <:+ tokens) :
    EndsClear later := by
  obtain ⟨earlier, rfl⟩ := suffix
  intro token member
  exact clear token (List.mem_getLast?_append_of_mem_getLast? member)

/-- The kinds that prolong nothing but a block, and the end of the file. -/
def isQuiet (kind : TokenKind) : Bool :=
  kind == .endOfFile || kind == .semicolon || kind.isCloser

/--
Tokens that one reading has ahead in the
end, and those that another one has instead.
-/
structure Curtailment where
  dropped : List Token
  behind : List Token
  /-- Whether a token before the seam is left in the end. -/
  short : Bool
  /--
  If the tokens are read up to the seam,
  none that prolongs anything stands behind.
  -/
  quiet : short = false → isQuiet (headKind behind) = true

namespace Curtailment

variable (cut : Curtailment) {α β : Type}

/-- The state with other tokens ahead, and without the reports so far. -/
def state
    (before : State)
    (front : List Token) :
    State :=
  { before with
    rest := front ++ cut.behind
    stop := spanAhead before.stop cut.dropped
    reports := [] }

/--
In the end, the tokens behind the seam are
left, and those before it that have to be.
-/
structure Reached (rest : List Token) : Prop where
  suffix : cut.dropped <:+ rest
  longer : cut.short = true → cut.dropped.length < rest.length

/--
What one rule reads from a state, the other one reads from the curtailed state.
-/
def Keeps
    (rule other : Rule α)
    (left : State) :
    Prop :=
  ∀ ⦃value next front⦄,
    Reads rule left value next → left.rest = front ++ cut.dropped →
      cut.Reached next.rest → EndsClear front →
        ∃ later,
          next.rest = later ++ cut.dropped ∧
            Reads other (cut.state left front) value (cut.state next later)

/-- The same seam, of which a token before it is left in the end. -/
def within : Curtailment :=
  { cut with
    short := true
    quiet := fun full => Bool.noConfusion full }

variable {cut} {left : State}

theorem Reached.of_suffix
    {rest earlier : List Token}
    (reached : cut.Reached rest)
    (suffix : rest <:+ earlier) :
    cut.Reached earlier :=
  ⟨reached.suffix.trans suffix, fun short =>
    Nat.lt_of_lt_of_le (reached.longer short) suffix.length_le⟩

/-- Where no token before the seam has to be left, the seam may be reached. -/
theorem Reached.of_full
    {rest : List Token}
    (full : cut.short = false)
    (suffix : cut.dropped <:+ rest) :
    cut.Reached rest :=
  ⟨suffix, fun short => absurd (full.symm.trans short) Bool.false_ne_true⟩

/-- At the seam, no token before it is left. -/
theorem Reached.full
    {rest : List Token}
    (reached : cut.Reached rest)
    (shape : left.rest = [] ++ cut.dropped)
    (suffix : rest <:+ left.rest) :
    cut.short = false := by
  rw [← Bool.not_eq_true]
  intro short
  have length := suffix.length_le
  rw [shape, List.nil_append] at length
  exact Nat.lt_irrefl _ (Nat.lt_of_lt_of_le (reached.longer short) length)

theorem calm_state
    (calm : left.Calm)
    (front : List Token) :
    (cut.state left front).Calm :=
  ⟨calm.steady, calm.whole⟩

theorem suffix_of_append
    {front later dropped : List Token}
    (suffix : later ++ dropped <:+ front ++ dropped) :
    later <:+ front := by
  obtain ⟨earlier, same⟩ := suffix
  rw [← List.append_assoc] at same
  exact ⟨earlier, List.append_cancel_right same⟩

/--
Where a reading takes a token, the curtailed state has the token ahead too.
-/
theorem exists_cons_of_taken
    {front rest : List Token}
    (shape : left.rest = front ++ cut.dropped)
    (reached : cut.Reached rest)
    (shorter : rest.length < left.rest.length) :
    ∃ token later, front = token :: later := by
  cases front with
  | nil =>
      have length := reached.suffix.length_le
      rw [shape, List.nil_append] at shorter
      omega
  | cons token later => exact ⟨token, later, rfl⟩

theorem keeps_pure (value : α) : cut.Keeps (pure value) (pure value) left := by
  intro result next front reads shape reached clear
  obtain ⟨calm, rfl, rfl⟩ := reads_pure.mp reads
  exact ⟨front, shape, reads_pure.mpr ⟨calm_state calm front, rfl, rfl⟩⟩

theorem suffix_of_reads
    {rule : Rule α}
    {value : α}
    {next : State}
    (reads : Reads rule left value next) :
    next.rest <:+ left.rest := by
  have within := rule.suffix left
  rwa [reads.run] at within

/--
What the first rule reads is kept if it is kept where the second one goes on.
-/
theorem keeps_bind_of
    {rule other : Rule α}
    {next further : α → Rule β}
    (first :
      ∀ ⦃value middle result last front⦄,
        Reads rule left value middle → Reads (next value) middle result last →
          left.rest = front ++ cut.dropped → cut.Reached last.rest →
            EndsClear front →
            ∃ later,
              middle.rest = later ++ cut.dropped ∧
                Reads other (cut.state left front) value
                  (cut.state middle later))
    (second :
      ∀ value middle, Reads rule left value middle →
        cut.Keeps (next value) (further value) middle) :
    cut.Keeps (rule >>= next) (other >>= further) left := by
  intro result last front reads shape reached clear
  obtain ⟨value, middle, firstReads, secondReads⟩ := reads_bind.mp reads
  have middleSuffix := suffix_of_reads firstReads
  obtain ⟨later, shapeMiddle, firstKept⟩ :=
    first firstReads secondReads shape reached clear
  rw [shape, shapeMiddle] at middleSuffix
  obtain ⟨end_, shapeLast, secondKept⟩ :=
    second value middle firstReads secondReads shapeMiddle reached
      (clear.of_suffix (suffix_of_append middleSuffix))
  exact ⟨end_, shapeLast, reads_bind.mpr ⟨_, _, firstKept, secondKept⟩⟩

/--
A rule keeps its reading if its first part does, and if its second part does
behind everything that the first one may have read.
-/
theorem Keeps.bind
    {rule other : Rule α}
    {next further : α → Rule β}
    (first : cut.Keeps rule other left)
    (second :
      ∀ value middle, Reads rule left value middle →
        cut.Keeps (next value) (further value) middle) :
    cut.Keeps (rule >>= next) (other >>= further) left :=
  keeps_bind_of
    (fun _ _ _ _ _ reads continued shape reached clear =>
      first reads shape (reached.of_suffix (suffix_of_reads continued)) clear)
    second

theorem Keeps.within
    {rule other : Rule α}
    (keeps : cut.Keeps rule other left) :
    cut.within.Keeps rule other left :=
  fun _ _ _ reads shape reached clear =>
    keeps reads shape ⟨reached.suffix, fun _ => reached.longer rfl⟩ clear

/--
Before a rule that takes a token, it does
not matter what stands behind the seam.
-/
theorem Keeps.bind_within
    {rule other : Rule α}
    {next further : α → Rule β}
    (first : cut.within.Keeps rule other left)
    (takes :
      ∀ ⦃value middle result last⦄, Reads (next value) middle result last →
        last.rest.length < middle.rest.length)
    (second :
      ∀ value middle, Reads rule left value middle →
        cut.Keeps (next value) (further value) middle) :
    cut.Keeps (rule >>= next) (other >>= further) left :=
  keeps_bind_of
    (fun _ _ _ _ _ reads continued shape reached clear =>
      first reads shape
        ⟨reached.suffix.trans (suffix_of_reads continued), fun _ =>
          Nat.lt_of_le_of_lt reached.suffix.length_le (takes continued)⟩
        clear)
    second

theorem Keeps.map
    {rule other : Rule α}
    (keeps : cut.Keeps rule other left)
    (change : α → β) :
    cut.Keeps (change <$> rule) (change <$> other) left :=
  keeps.bind fun _ _ _ => keeps_pure _

/-- A rule that reads nothing without a report keeps everything. -/
theorem keeps_of_never
    {rule : Rule α}
    (never : ∀ value next, ¬ Reads rule left value next)
    (other : Rule α) :
    cut.Keeps rule other left :=
  fun _ _ _ reads => absurd reads (never _ _)

/-! ## Questions -/

/-- What the curtailed state answers like the state can be asked. -/
theorem keeps_ask_bind
    {question : State → α}
    {next further : α → Rule β}
    (same :
      ∀ front, left.rest = front ++ cut.dropped →
        question (cut.state left front) = question left)
    (later : cut.Keeps (next (question left)) (further (question left)) left) :
    cut.Keeps (ask question >>= next) (ask question >>= further) left := by
  intro result last front reads shape reached clear
  obtain ⟨end_, shapeLast, kept⟩ :=
    later (reads_ask_bind.mp reads) shape reached clear
  refine ⟨end_, shapeLast, reads_ask_bind.mpr ?_⟩
  rwa [same front shape]

/-- At the seam, the tokens are read up to it. -/
theorem keeps_askAtSeam_bind
    {question : State → α}
    {next further : α → Rule β}
    (same :
      ∀ front, left.rest = front ++ cut.dropped →
        (front = [] → cut.short = false) →
        question (cut.state left front) = question left)
    (later : cut.Keeps (next (question left)) (further (question left)) left) :
    cut.Keeps (ask question >>= next) (ask question >>= further) left := by
  intro result last front reads shape reached clear
  have continued := reads_ask_bind.mp reads
  obtain ⟨end_, shapeLast, kept⟩ := later continued shape reached clear
  refine ⟨end_, shapeLast, reads_ask_bind.mpr ?_⟩
  rwa [same front shape fun ended =>
    reached.full (by rw [shape, ended]) (suffix_of_reads continued)]

/-- Where the rule takes a token, the token ahead can be asked for. -/
theorem keeps_peek_bind
    {question : State → α}
    {next further : α → Rule β}
    (same :
      ∀ token front, left.rest = token :: (front ++ cut.dropped) →
        EndsClear (token :: front) →
        question (cut.state left (token :: front)) = question left)
    (takes :
      ∀ value last, Reads (next (question left)) left value last →
        last.rest.length < left.rest.length)
    (later : cut.Keeps (next (question left)) (further (question left)) left) :
    cut.Keeps (ask question >>= next) (ask question >>= further) left := by
  intro result last front reads shape reached clear
  have continued := reads_ask_bind.mp reads
  obtain ⟨token, front, rfl⟩ :=
    exists_cons_of_taken shape reached (takes _ _ continued)
  obtain ⟨end_, shapeLast, kept⟩ := later continued shape reached clear
  refine ⟨end_, shapeLast, reads_ask_bind.mpr ?_⟩
  rwa [same token front shape clear]

/--
A choice keeps its reading if the rule that is chosen does; the other rule
makes the same choice.
-/
theorem keeps_ite
    {condition : Prop}
    [Decidable condition]
    {rule other alternative otherwise : Rule α}
    (yes : condition → cut.Keeps rule other left)
    (no : ¬ condition → cut.Keeps alternative otherwise left) :
    cut.Keeps (if condition then rule else alternative)
      (if condition then other else otherwise) left := by
  split
  · next holds => exact yes holds
  · next fails => exact no fails

theorem current_state
    {token : Token}
    {front : List Token}
    (shape : left.rest = token :: (front ++ cut.dropped)) :
    (cut.state left (token :: front)).current = left.current := by
  rw [State.current_of_rest shape]
  rfl

theorem kind_state
    {token : Token}
    {front : List Token}
    (shape : left.rest = token :: (front ++ cut.dropped)) :
    (cut.state left (token :: front)).kind = left.kind :=
  congrArg Token.kind (current_state shape)

/-! ## Tokens -/

/-- To take a token before the seam takes it in both states. -/
theorem advance_state
    {token : Token}
    {front : List Token}
    (shape : left.rest = token :: (front ++ cut.dropped)) :
    (cut.state left (token :: front)).advance = cut.state
      left.advance front := by
  have advanced : left.advance =
      { left with rest := front ++ cut.dropped, reached :=
        token.span.stop } := by
    unfold State.advance
    split
    · next none =>
        rw [shape] at none
        cases none
    · next first rest same =>
        rw [shape] at same
        cases same
        rfl
  rw [advanced]
  rfl

theorem length_advance
    {token : Token}
    {rest : List Token}
    (shape : left.rest = token :: rest) :
    left.advance.rest.length < left.rest.length := by
  rw [State.rest_advance shape, shape]
  exact Nat.lt_succ_self _

theorem length_le
    {rule : Rule α}
    {value : α}
    {next : State}
    (reads : Reads rule left value next) :
    next.rest.length ≤ left.rest.length :=
  (suffix_of_reads reads).length_le

/-- A reading that begins by taking a token leaves fewer tokens ahead. -/
theorem length_lt_of_advance
    {next : Token → Rule β}
    {value : β}
    {last : State}
    (ahead : left.rest ≠ [])
    (reads : Reads (advance >>= next) left value last) :
    last.rest.length < left.rest.length := by
  obtain ⟨token, rest, whole⟩ := List.exists_cons_of_ne_nil ahead
  exact Nat.lt_of_le_of_lt (length_le (reads_advance_bind.mp reads))
    (length_advance whole)

/-- A token ahead that the reading takes is ahead of the curtailed state too. -/
theorem keeps_advance_bind
    {next further : Token → Rule β}
    (ahead : left.rest ≠ [])
    (later : cut.Keeps (next left.current) (further left.current)
      left.advance) :
    cut.Keeps (advance >>= next) (advance >>= further) left := by
  intro result last front reads shape reached clear
  obtain ⟨token, front, rfl⟩ :=
    exists_cons_of_taken shape reached (length_lt_of_advance ahead reads)
  obtain ⟨end_, shapeLast, kept⟩ :=
    later (reads_advance_bind.mp reads) (State.rest_advance shape) reached
      (clear.of_suffix (List.suffix_cons _ _))
  refine ⟨end_, shapeLast, reads_advance_bind.mpr ?_⟩
  rwa [current_state shape, advance_state shape]

theorem kind_state_nil : (cut.state left []).kind = headKind cut.behind :=
  State.kind_eq_headKind _

/-- No token that prolongs anything stands behind. -/
theorem behind_ne
    {kind : TokenKind}
    (loud : isQuiet kind = false)
    (full : cut.short = false) :
    headKind cut.behind ≠ kind := by
  rintro rfl
  rw [cut.quiet full] at loud
  cases loud

/--
A token that may be absent is taken on both sides or on neither.  What stands
behind the seam must not be this token, where the tokens before it end.
-/
theorem keeps_eat_bind
    {kind : TokenKind}
    {next further : Bool → Rule β}
    (isToken : kind ≠ .endOfFile)
    (other : cut.short = false → headKind cut.behind ≠ kind)
    (present : left.kind = kind →
      cut.Keeps (next true) (further true) left.advance)
    (absent : left.kind ≠ kind → cut.Keeps (next false) (further false) left) :
    cut.Keeps (eat kind >>= next) (eat kind >>= further) left := by
  intro result last front reads shape reached clear
  obtain ⟨eaten, middle, ate, continued⟩ := reads_bind.mp reads
  obtain ⟨calm, ⟨here, rfl, rfl⟩ | ⟨elsewhere, rfl, rfl⟩⟩ := reads_eat.mp ate
  · have whole := State.rest_of_kind here isToken
    have shorter := Nat.lt_of_le_of_lt (length_le continued)
        (length_advance whole)
    obtain ⟨token, front, rfl⟩ := exists_cons_of_taken shape reached shorter
    obtain ⟨end_, shapeLast, kept⟩ :=
      present here continued (State.rest_advance shape) reached
        (clear.of_suffix (List.suffix_cons _ _))
    refine ⟨end_, shapeLast,
      reads_bind.mpr
        ⟨true, _, reads_eat.mpr ⟨calm_state calm _, .inl ?_⟩, kept⟩⟩
    exact ⟨(kind_state shape).trans here, rfl, (advance_state shape).symm⟩
  · obtain ⟨end_, shapeLast, kept⟩ :=
      absent elsewhere continued shape reached clear
    refine ⟨end_, shapeLast,
      reads_bind.mpr
        ⟨false, _, reads_eat.mpr ⟨calm_state calm _, .inr ?_⟩, kept⟩⟩
    refine ⟨?_, rfl, rfl⟩
    cases front with
    | nil =>
        rw [kind_state_nil]
        exact other (reached.full shape (suffix_of_reads continued))
    | cons token front =>
        rw [kind_state shape]
        exact elsewhere

/-- A token that prolongs something does not stand behind. -/
theorem keeps_eatWord_bind
    {kind : TokenKind}
    {next further : Bool → Rule β}
    (isToken : kind ≠ .endOfFile)
    (loud : isQuiet kind = false)
    (present : left.kind = kind →
      cut.Keeps (next true) (further true) left.advance)
    (absent : left.kind ≠ kind → cut.Keeps (next false) (further false) left) :
    cut.Keeps (eat kind >>= next) (eat kind >>= further) left :=
  keeps_eat_bind isToken (behind_ne loud) present absent

/-- Where a token must be ahead, it does not matter what stands behind. -/
theorem keeps_mustEat_bind
    {kind : TokenKind}
    {next further : Bool → Rule β}
    (isToken : kind ≠ .endOfFile)
    (never : ∀ value last, ¬ Reads (next false) left value last)
    (present : left.kind = kind →
      cut.Keeps (next true) (further true) left.advance) :
    cut.Keeps (eat kind >>= next) (eat kind >>= further) left := by
  intro result last front reads shape reached clear
  obtain ⟨eaten, middle, ate, continued⟩ := reads_bind.mp reads
  obtain ⟨calm, ⟨here, rfl, rfl⟩ | ⟨-, rfl, rfl⟩⟩ := reads_eat.mp ate
  · have whole := State.rest_of_kind here isToken
    have shorter := Nat.lt_of_le_of_lt (length_le continued)
        (length_advance whole)
    obtain ⟨token, front, rfl⟩ := exists_cons_of_taken shape reached shorter
    obtain ⟨end_, shapeLast, kept⟩ :=
      present here continued (State.rest_advance shape) reached
        (clear.of_suffix (List.suffix_cons _ _))
    refine ⟨end_, shapeLast,
      reads_bind.mpr
        ⟨true, _, reads_eat.mpr ⟨calm_state calm _, .inl ?_⟩, kept⟩⟩
    exact ⟨(kind_state shape).trans here, rfl, (advance_state shape).symm⟩
  · exact absurd continued (never _ _)

/--
A required token stands before the seam, since a reading without a
report has taken it.
-/
theorem keeps_expect_bind
    {kind : TokenKind}
    {part : Part}
    {next further : Unit → Rule β}
    (isToken : kind ≠ .endOfFile)
    (later : cut.Keeps (next ()) (further ()) left.advance) :
    cut.Keeps (expect kind part >>= next)
      (expect kind part >>= further) left := by
  intro result last front reads shape reached clear
  obtain ⟨here, continued⟩ := reads_expect_bind.mp reads
  have whole := State.rest_of_kind here isToken
  have shorter := Nat.lt_of_le_of_lt (length_le continued)
      (length_advance whole)
  obtain ⟨token, front, rfl⟩ := exists_cons_of_taken shape reached shorter
  obtain ⟨end_, shapeLast, kept⟩ :=
    later continued (State.rest_advance shape) reached
      (clear.of_suffix (List.suffix_cons _ _))
  refine ⟨end_, shapeLast, reads_expect_bind.mpr
    ⟨(kind_state shape).trans here, ?_⟩⟩
  rwa [advance_state shape]

/--
A required name stands before the seam, since a reading without a
report has taken it.
-/
theorem keeps_expectName (place : NamePlace) :
    cut.Keeps (expectName place) (expectName place) left := by
  intro name next front reads shape reached clear
  obtain ⟨calm, here, rfl, rfl⟩ := reads_expectName.mp reads
  have whole := State.rest_of_kind here (by decide)
  obtain ⟨token, front, rfl⟩ :=
    exists_cons_of_taken shape reached (length_advance whole)
  refine ⟨front, State.rest_advance shape,
    reads_expectName.mpr ⟨calm_state calm _, ?_⟩⟩
  refine ⟨(kind_state shape).trans here, ?_, (advance_state shape).symm⟩
  rw [current_state shape]

/-! ## Loops and lists -/

/--
A part that a token announces is kept: present on both sides or on neither.
-/
theorem Keeps.optionalAfter
    {rule other : Rule α}
    {kind : TokenKind}
    (isToken : kind ≠ .endOfFile)
    (elsewhere : cut.short = false → headKind cut.behind ≠ kind)
    (keeps : left.kind = kind → cut.Keeps rule other left.advance) :
    cut.Keeps (optionalAfter kind rule) (optionalAfter kind other) left := by
  refine keeps_eat_bind isToken elsewhere (fun here => ?_) fun _ => ?_
  · exact (keeps here).map some
  · exact keeps_pure none

/--
A loop is kept, if its rounds are, and if what stands behind the seam opens no
further round.  The induction follows the rounds.
-/
theorem keeps_many
    {open? openOther? : Token → Option (Rule α)}
    (opened :
      ∀ token rule, open? token = some rule →
        ∃ other, openOther? token = some other ∧
          ∀ state, cut.Keeps rule other state)
    (closed : ∀ token, open? token = none → openOther? token = none)
    (quiet :
      cut.short = false → ∀ token, isQuiet token.kind = true →
      openOther? token = none) :
    cut.Keeps (many open?) (many openOther?) left := by
  intro values next front reads shape reached clear
  induction values generalizing left front with
  | nil =>
      obtain ⟨calm, noneOpens, rfl⟩ := reads_many_nil.mp reads
      refine ⟨front, shape, reads_many_nil.mpr ⟨calm_state calm _, ?_, rfl⟩⟩
      intro token rest ahead
      cases front with
      | nil =>
          have behind : cut.behind = token :: rest := ahead
          have full := reached.full shape (List.suffix_refl _)
          have isQuiet := cut.quiet full
          rw [behind] at isQuiet
          exact quiet full token isQuiet
      | cons first front =>
          have same : first :: (front ++ cut.behind) = token :: rest := ahead
          cases same
          exact closed token (noneOpens token _ shape)
  | cons value values hypothesis =>
      obtain ⟨token, rest, rule, middle, whole, isOpened, once, again⟩ :=
        reads_many_cons.mp reads
      obtain ⟨other, otherOpened, keeps⟩ := opened token rule isOpened
      have laterSuffix : next.rest <:+ middle.rest := suffix_of_reads again
      have middleSuffix : middle.rest <:+ left.advance.rest :=
        suffix_of_reads once
      have shorter : next.rest.length < left.rest.length :=
        Nat.lt_of_le_of_lt (laterSuffix.trans middleSuffix).length_le
          (length_advance whole)
      obtain ⟨first, front, rfl⟩ := exists_cons_of_taken shape reached shorter
      have clearLater := clear.of_suffix (List.suffix_cons first front)
      obtain ⟨later, shapeMiddle, kept⟩ :=
        keeps _ once (State.rest_advance shape)
          (reached.of_suffix laterSuffix) clearLater
      rw [State.rest_advance shape, shapeMiddle] at middleSuffix
      obtain ⟨end_, shapeLast, keptLater⟩ :=
        hypothesis again shapeMiddle
          (clearLater.of_suffix (suffix_of_append middleSuffix))
      rw [← advance_state shape] at kept
      have sameToken : first = token := by
        rw [shape] at whole
        exact (List.cons.inj whole).1
      refine ⟨end_, shapeLast,
        reads_many_cons.mpr
          ⟨token, front ++ cut.behind, other, _, ?_, otherOpened,
            kept, keptLater⟩⟩
      rw [← sameToken]
      rfl

section

variable {item other : Rule α} (keeps : ∀ state, cut.Keeps item other state)

include keeps

/-- A list is kept, if its items are, and if no comma stands behind the seam. -/
theorem Keeps.separated :
    cut.Keeps (separated item) (separated other) left := by
  have others (state : State) :
      cut.Keeps (many (afterComma? item)) (many (afterComma? other)) state := by
    refine keeps_many ?_ ?_ ?_
    · intro token rule opened
      rw [afterComma?] at opened
      split at opened
      · next comma =>
          cases opened
          exact ⟨other, if_pos comma, keeps⟩
      · cases opened
    · intro token closed
      rw [afterComma?] at closed ⊢
      split at closed
      · cases closed
      · next noComma => exact if_neg noComma
    · intro _ token isQuiet
      refine if_neg fun comma => ?_
      rw [comma] at isQuiet
      cases isQuiet
  exact (keeps left).bind fun _ middle _ => (others middle).bind fun _ _ _ =>
    keeps_pure _

/--
The closing token is ahead somewhere, so a token is ahead from the beginning.
-/
theorem Keeps.enclosed
    {closer : TokenKind}
    (isToken : closer ≠ .endOfFile)
    (part : Part) :
    cut.Keeps (enclosed item closer part)
      (enclosed other closer part) left := by
  have closes (items : List α) (state : State) :
      cut.Keeps (expect closer part >>= fun _ => pure items)
        (expect closer part >>= fun _ => pure items) state :=
    keeps_expect_bind isToken (keeps_pure items)
  change
    cut.Keeps
      (ask State.kind >>= fun kind =>
        (if kind = closer then pure [] else Rule.separated item) >>=
          fun items =>
            expect closer part >>= fun _ => pure items)
      (ask State.kind >>= fun kind =>
        (if kind = closer then pure [] else Rule.separated other) >>=
          fun items =>
            expect closer part >>= fun _ => pure items) left
  refine keeps_peek_bind (fun _ _ shape _ => kind_state shape) ?_ ?_
  · intro values last reads
    obtain ⟨items, middle, listed, continued⟩ := reads_bind.mp reads
    obtain ⟨here, ended⟩ := reads_expect_bind.mp continued
    exact Nat.lt_of_le_of_lt (length_le ended)
      (Nat.lt_of_lt_of_le (length_advance (State.rest_of_kind here isToken))
        (length_le listed))
  · refine (keeps_ite (fun _ => keeps_pure []) fun _ =>
      Keeps.separated keeps).bind ?_
    exact fun items middle _ => closes items middle

end

end Curtailment

end Clipper.Grammar
