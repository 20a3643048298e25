import Clipper.Proofs.Grammar.Complete
import Clipper.Proofs.Grammar.Sparing
import Clipper.Proofs.Syntax.Relabelling
import Mathlib.Data.List.Forall2

/-!
# Readings side by side

Of two readings side by side, the second has ahead of it what the first has,
relabelled, and after a seam some further tokens.  They do the same for as long
as the first does not look beyond its end, and where it does, the tokens after
the seam do not tempt the second to go on: either there are none, or they begin
the head of a routine, or the first is recovering from an error and the tokens
begin with nothing that is taken in this case.

A seam is given by the relabelling, by the tokens behind it and by the reason
for which they do not tempt the second reading.  `Beside` is the relation of
the two states before the seam, and `Passed` the one behind it.  The lemmas
here say what each move of the first reading is for the second one; rules come
in the next modules.
-/

namespace Clipper.Grammar

open Relabelled (relabel)

variable {change : Relabelling}

instance : Relabelled Cause where
  relabel change
    | .invalidToken lexeme => .invalidToken (change.lexeme .error lexeme)
    | cause => cause

instance : Relabelled Report where
  relabel change report :=
    ⟨relabel change report.cause, relabel change report.span⟩

@[simp]
theorem relabel_report
    (cause : Cause)
    (span : Span) :
    relabel change (Report.mk cause span) =
      ⟨relabel change cause, relabel change span⟩ :=
  rfl

/-! ## Seams -/

/-- The kinds that begin the head of a routine. -/
def isHeadKind (kind : TokenKind) : Bool :=
  isRoutineWord kind || kind == .static

/-- The kinds that a statement takes even while the reading recovers. -/
def prolongs : TokenKind → Bool
  | .assign | .rightParenthesis | .rightBracket | .rightBrace | .bar => true
  | _ => false

/-- What comes after a seam. -/
inductive SeamKind where
  /-- Nothing. -/
  | ending
  /-- The head of a routine. -/
  | routine
  /-- Anything that does not prolong the statement before a semicolon. -/
  | semicolon
deriving DecidableEq

/-- Whether tokens may come after a seam. -/
def SeamKind.Fits (tokens : List Token) : SeamKind → Prop
  | ending => tokens = []
  | routine => opensRoutine tokens = true
  | semicolon => prolongs (headKind tokens) = false

/-- Whether a token of a kind may stand right before a seam. -/
def SeamKind.Admits (last : TokenKind) : SeamKind → Prop
  | ending => True
  | routine => last ≠ .static
  | semicolon => last = .semicolon

/--
How a second reading differs from a first one: by a relabelling, by the tokens
after the seam, and by reports that it had made before.
-/
structure Seam where
  change : Relabelling
  kind : SeamKind
  tail : List Token
  past : List Report
  fits : kind.Fits tail

namespace Seam

variable (seam : Seam)

/-- What a report of the first reading is in the second one. -/
def SameReport (left right : Report) : Prop :=
  seam.kind = .routine ∨ right = relabel seam.change left

/--
Unless a head comes after the seam, the reports of both readings are the same.
-/
theorem sameReports_iff
    {first second : List Report}
    (noHead : seam.kind ≠ .routine) :
    List.Forall₂ seam.SameReport first second ↔
    second = relabel seam.change first := by
  have same : seam.SameReport = fun left right =>
      relabel seam.change left = right := by
        funext left right
        exact propext ((or_iff_right noHead).trans eq_comm)
  rw [same, ← List.forall₂_map_left_iff, List.forall₂_eq_eq_eq]
  exact eq_comm

/-- Two states side by side. -/
structure Beside (left right : State) : Prop where
  rest : right.rest = relabel seam.change left.rest ++ seam.tail
  stop : right.stop = relabel seam.change left.stop
  final : right.final = relabel seam.change left.final
  reached : right.reached = relabel seam.change left.reached
  reports :
    ∃ reports, right.reports = reports ++ seam.past ∧
      List.Forall₂ seam.SameReport left.reports reports
  recovering : right.recovering = left.recovering
  cutShort : right.cutShort = left.cutShort
  /--
  The first token after the seam stands
  where the tokens of the first reading end.
  -/
  place : ∀ token ∈ seam.tail.head?, token.span = relabel seam.change left.stop
  last : ∀ token ∈ left.rest.getLast?, seam.kind.Admits token.kind
  /-- At a seam after a semicolon, the reading recovers. -/
  resting : seam.kind = .semicolon → left.rest = [] → left.recovering = true

/-- The seam is not after a semicolon, or errors are reported. -/
def Ready (state : State) : Prop :=
  seam.kind = .semicolon → state.recovering = false

end Seam

/-- The head of a routine begins with one of its words or with `STATIC`. -/
theorem isHeadKind_of_opensRoutine
    {tokens : List Token}
    (opens : opensRoutine tokens = true) :
    isHeadKind (headKind tokens) = true := by
  rw [isHeadKind, headKind.eq_def]
  match tokens with
  | [] => cases opens
  | [token] =>
      rw [opensRoutine] at opens
      rw [opens, Bool.true_or]
  | token :: next :: _ =>
      rw [opensRoutine, Bool.or_eq_true, Bool.and_eq_true] at opens
      rw [Bool.or_eq_true]
      exact opens.imp_right And.left

/--
The kinds that are neither the end of the file nor begin the head of a routine.
-/
def isPlain (kind : TokenKind) : Bool :=
  !(isHeadKind kind) && kind != .endOfFile

theorem getLast?_of_suffix
    {tokens others : List Token}
    {token : Token}
    (suffix : tokens <:+ others)
    (member : token ∈ tokens.getLast?) :
    token ∈ others.getLast? := by
  obtain ⟨before, rfl⟩ := suffix
  rw [List.getLast?_append, Option.mem_def.mp member]
  rfl

namespace Seam

/-- Whatever stands last before a seam, the first token of a head is none. -/
theorem opensRoutine_append
    (seam : Seam)
    {tokens : List Token}
    (last : ∀ token ∈ tokens.getLast?, seam.kind.Admits token.kind)
    (ahead : tokens ≠ []) :
    opensRoutine (relabel seam.change tokens ++ seam.tail) =
      opensRoutine tokens := by
  match tokens with
  | [] => exact absurd rfl ahead
  | [token] =>
      have admits := last token rfl
      have fits := seam.fits
      cases tail : seam.tail with
      | nil => rfl
      | cons next rest =>
          have notStatic : token.kind ≠ .static := by
            intro isStatic
            cases kind : seam.kind with
            | ending =>
                rw [kind, tail] at fits
                cases fits
            | routine =>
                rw [kind] at admits
                exact admits isStatic
            | semicolon =>
                rw [kind] at admits
                rw [show token.kind = .semicolon from admits] at isStatic
                cases isStatic
          simp [opensRoutine, notStatic]
  | token :: next :: rest => rfl

/-- Going on to a boundary, neither reading goes beyond the seam. -/
theorem skipToBoundary_append
    (seam : Seam)
    (reached : Nat)
    {tokens : List Token}
    (last : ∀ token ∈ tokens.getLast?, seam.kind.Admits token.kind)
    (ahead : seam.kind = .semicolon → tokens ≠ []) :
    skipToBoundary (relabel seam.change reached)
      (relabel seam.change tokens ++ seam.tail) =
        (relabel seam.change (skipToBoundary reached tokens).1,
          relabel seam.change (skipToBoundary reached tokens).2 ++ seam.tail) ∧
      (seam.kind = .semicolon → (skipToBoundary reached tokens).2 ≠ []) := by
  induction tokens generalizing reached with
  | nil =>
      refine ⟨?_, ahead⟩
      have fits := seam.fits
      change skipToBoundary _ seam.tail = (_, seam.tail)
      cases kind : seam.kind with
      | ending =>
          rw [kind] at fits
          rw [show seam.tail = [] from fits]
          rfl
      | routine =>
          rw [kind] at fits
          cases shape : seam.tail with
          | nil => rfl
          | cons token rest =>
              rw [shape] at fits
              have stops :
                  (isBoundary token.kind || opensRoutine (token :: rest)) =
                    true := by
                rw [show opensRoutine (token :: rest) = true from fits,
                  Bool.or_true]
              exact if_pos stops
      | semicolon => exact absurd rfl (ahead kind)
  | cons token rest hypothesis =>
      have opens := seam.opensRoutine_append last (List.cons_ne_nil token rest)
      rw [relabel_list, List.map_cons, List.cons_append] at opens ⊢
      rw [skipToBoundary, skipToBoundary, opens, kind_relabel]
      split
      · exact ⟨rfl, fun _ => List.cons_ne_nil token rest⟩
      · next inside =>
          refine hypothesis token.span.stop
            (fun next member =>
              last next (getLast?_of_suffix
                (List.suffix_cons token rest) member))
            fun isSemicolon ended => inside ?_
          subst ended
          have admits := last token rfl
          rw [isSemicolon] at admits
          rw [show token.kind = .semicolon from admits]
          rfl

end Seam

namespace Seam.Beside

variable {seam : Seam} {left right : State} (beside : seam.Beside left right)

include beside

/-! ## The tokens ahead -/

theorem current (ahead : left.rest ≠ []) :
    right.current = relabel seam.change left.current := by
  obtain ⟨token, rest, shape⟩ := List.exists_cons_of_ne_nil ahead
  have same := beside.rest
  rw [shape, relabel_list, List.map_cons, List.cons_append] at same
  rw [State.current_of_rest shape, State.current_of_rest same]

theorem kind_of_ahead (ahead : left.rest ≠ []) : right.kind = left.kind := by
  rw [State.kind, beside.current ahead, kind_relabel, State.kind]

theorem ahead (ahead : left.rest ≠ []) : right.rest ≠ [] := by
  rw [beside.rest]
  exact List.append_ne_nil_of_left_ne_nil (mt List.map_eq_nil_iff.mp ahead) _

theorem rest_of_ended (ended : left.rest = []) : right.rest = seam.tail := by
  rw [beside.rest, ended]
  rfl

theorem kind_of_ended (ended : left.rest = []) :
    right.kind = headKind seam.tail := by
  rw [State.kind_eq_headKind, beside.rest_of_ended ended]

/--
Beyond the end of the first reading, the second one finds a head, or nothing.
-/
theorem kind_beyond
    (ready : seam.Ready left)
    (ended : left.rest = []) :
    right.kind = .endOfFile ∨ isHeadKind right.kind = true := by
  rw [beside.kind_of_ended ended]
  have fits := seam.fits
  cases kind : seam.kind with
  | ending =>
      rw [kind] at fits
      rw [show seam.tail = [] from fits]
      exact Or.inl rfl
  | routine =>
      rw [kind] at fits
      exact Or.inr (isHeadKind_of_opensRoutine fits)
  | semicolon =>
      have calm := ready kind
      rw [beside.resting kind ended] at calm
      cases calm

/--
What makes no difference between a head
and the end of the file is answered alike.
-/
theorem answer
    {α : Type}
    {question : TokenKind → α}
    (steady : ∀ kind, isHeadKind kind = true →
      question kind = question .endOfFile)
    (ready : seam.Ready left) :
    question right.kind = question left.kind := by
  rcases Decidable.em (left.rest = []) with ended | ahead
  · have isEnd : left.kind = .endOfFile := by
      rw [State.kind_eq_headKind, ended, headKind]
    rw [isEnd]
    obtain none | head := beside.kind_beyond ready ended
    · rw [none]
    · exact steady _ head
  · rw [beside.kind_of_ahead ahead]

/-- Both readings or none of them have a token of a kind ahead. -/
theorem same_kind
    {kind : TokenKind}
    (plain : isPlain kind = true)
    (guarded : seam.kind = .semicolon → left.recovering = false ∨
      prolongs kind = true) :
    right.kind = kind ↔ left.kind = kind := by
  rcases Decidable.em (left.rest = []) with ended | ahead
  · have isEnd : left.kind = .endOfFile := by
      rw [State.kind_eq_headKind, ended, headKind]
    have notEnd : kind ≠ .endOfFile := by
      rintro rfl
      cases plain
    rw [isEnd]
    refine iff_of_false (fun same => ?_) notEnd.symm
    rw [← same] at plain guarded notEnd
    have unready : ¬ seam.Ready left := by
      intro ready
      obtain none | head := beside.kind_beyond ready ended
      · exact notEnd none
      · rw [isPlain, head] at plain
        cases plain
    have isSemicolon : seam.kind = .semicolon := by
      by_contra other
      exact unready fun same => absurd same other
    have fits := seam.fits
    rw [isSemicolon] at fits
    obtain calm | prolonging := guarded isSemicolon
    · exact unready fun _ => calm
    · rw [beside.kind_of_ended ended,
        show prolongs (headKind seam.tail) = false from fits]
        at prolonging
      cases prolonging
  · rw [beside.kind_of_ahead ahead]

/-- Unless a head comes after the seam, the kinds ahead are equal. -/
theorem kind_eq
    (ready : seam.Ready left)
    (noHead : seam.kind ≠ .routine) :
    right.kind = left.kind := by
  rcases Decidable.em (left.rest = []) with ended | ahead
  · rw [beside.kind_of_ended ended, State.kind_eq_headKind, ended]
    have fits := seam.fits
    cases kind : seam.kind with
    | ending =>
        rw [kind] at fits
        rw [show seam.tail = [] from fits]
    | routine => exact absurd kind noHead
    | semicolon =>
        have calm := ready kind
        rw [beside.resting kind ended] at calm
        cases calm
  · exact beside.kind_of_ahead ahead

theorem span_current : right.current.span =
    relabel seam.change left.current.span := by
  rcases Decidable.em (left.rest = []) with ended | ahead
  · have same := beside.rest_of_ended ended
    rw [State.current, State.current, same, ended]
    cases shape : seam.tail with
    | nil => exact beside.stop
    | cons token rest => exact beside.place token (by rw [shape]; rfl)
  · rw [beside.current ahead, span_relabel_token]

theorem start : right.start = relabel seam.change left.start := by
  rw [State.start, beside.span_current, start_relabel, State.start]

theorem opensRoutine_rest (ahead : left.rest ≠ []) :
    opensRoutine right.rest = opensRoutine left.rest := by
  rw [beside.rest]
  exact seam.opensRoutine_append beside.last ahead

/-- The second token ahead is of a certain kind in both readings or in none. -/
theorem same_secondKind
    {kind : TokenKind}
    (plain : isPlain kind = true)
    (ahead : left.rest ≠ [])
    (noSemicolon : left.kind ≠ .semicolon) :
    right.secondKind = kind ↔ left.secondKind = kind := by
  rw [State.secondKind, State.secondKind, beside.rest]
  rcases shape : left.rest with _ | ⟨token, _ | ⟨next, rest⟩⟩
  · exact absurd shape ahead
  · have admits := beside.last token (by rw [shape]; rfl)
    have fits := seam.fits
    have notEnd : kind ≠ .endOfFile := by
      rintro rfl
      cases plain
    cases tail : seam.tail with
    | nil => exact Iff.rfl
    | cons next rest =>
        refine iff_of_false (fun same => ?_) notEnd.symm
        rw [tail] at fits
        cases seamKind : seam.kind with
        | ending =>
            rw [seamKind] at fits
            cases fits
        | routine =>
            rw [seamKind] at fits
            have head : isHeadKind next.kind = true :=
              isHeadKind_of_opensRoutine fits
            rw [← show next.kind = kind from same, isPlain, head] at plain
            cases plain
        | semicolon =>
            rw [seamKind] at admits
            exact noSemicolon ((State.kind_of_rest shape).trans admits)
  · exact Iff.rfl

/-! ## Moves -/

/--
Reports that are the same up to relabelling keep the
readings beside each other.
-/
theorem add
    {first second : Report}
    (same : seam.SameReport first second) :
    seam.Beside (left.add first) (right.add second) where
  rest := beside.rest
  stop := beside.stop
  final := beside.final
  reached := beside.reached
  reports := by
    obtain ⟨reports, shape, each⟩ := beside.reports
    exact ⟨second :: reports, congrArg (second :: ·) shape, each.cons same⟩
  recovering := beside.recovering
  cutShort := beside.cutShort
  place := beside.place
  last := beside.last
  resting := beside.resting

theorem addHere
    {first second : Cause}
    (same : seam.kind = .routine ∨ second = relabel seam.change first) :
    seam.Beside (left.addHere first) (right.addHere second) := by
  refine beside.add (same.imp_right fun sameCause => ?_)
  rw [sameCause, beside.span_current, relabel_report]

/--
To take a token keeps the readings beside each other.  At a semicolon before
the seam, the first reading must be recovering or go on.
-/
theorem advance
    (ahead : left.rest ≠ [])
    (resting : seam.kind = .semicolon → left.kind ≠ .semicolon ∨
      left.recovering = true) :
    seam.Beside left.advance right.advance := by
  obtain ⟨token, rest, shape⟩ := List.exists_cons_of_ne_nil ahead
  have same := beside.rest
  rw [shape, relabel_list, List.map_cons, List.cons_append] at same
  have leftEq : left.advance =
      { left with rest := rest, reached := token.span.stop } := by
    rw [State.advance, shape]
  have rightEq : right.advance =
      { right with
        rest := rest.map (relabel seam.change) ++ seam.tail
        reached := (relabel seam.change token.span).stop } := by
    rw [State.advance, same]
    rfl
  rw [leftEq, rightEq]
  exact
    { rest := rfl
      stop := beside.stop
      final := beside.final
      reached := rfl
      reports := beside.reports
      recovering := beside.recovering
      cutShort := beside.cutShort
      place := beside.place
      last := fun lastToken member => by
        refine beside.last lastToken (getLast?_of_suffix ?_ member)
        rw [shape]
        exact List.suffix_cons token rest
      resting := fun isSemicolon ended => by
        have admits := beside.last token
            (by rw [shape, show rest = [] from ended]; rfl)
        rw [isSemicolon] at admits
        obtain other | recovering := resting isSemicolon
        · exact absurd ((State.kind_of_rest shape).trans admits) other
        · exact recovering }

/-- Errors are reported again, unless a semicolon was the last token. -/
theorem recovered (ahead : seam.kind = .semicolon → left.rest ≠ []) :
    seam.Beside { left with recovering := false }
      { right with recovering := false } where
  rest := beside.rest
  stop := beside.stop
  final := beside.final
  reached := beside.reached
  reports := beside.reports
  recovering := rfl
  cutShort := beside.cutShort
  place := beside.place
  last := beside.last
  resting isSemicolon ended := absurd ended (ahead isSemicolon)

/--
To skip tokens keeps the readings beside each other: both stop at the same
boundary, or at the seam.
-/
theorem skipped (ahead : seam.kind = .semicolon → left.rest ≠ []) :
    seam.Beside left.skipped right.skipped := by
  obtain ⟨same, still⟩ :=
    seam.skipToBoundary_append left.reached beside.last ahead
  rw [← beside.reached, ← beside.rest] at same
  exact
    { rest := congrArg Prod.snd same
      stop := beside.stop
      final := beside.final
      reached := congrArg Prod.fst same
      reports := beside.reports
      recovering := rfl
      cutShort := beside.cutShort
      place := beside.place
      last := fun token member =>
        beside.last token
          (getLast?_of_suffix (State.skipToBoundary_suffix _ _) member)
      resting := fun isSemicolon ended => absurd ended (still isSemicolon) }

/-- A recovery keeps the readings beside each other. -/
theorem recover (ahead : seam.kind = .semicolon → left.rest ≠ []) :
    seam.Beside left.recover right.recover := by
  have skipped := beside.skipped ahead
  obtain ⟨-, still⟩ := seam.skipToBoundary_append left.reached beside.last ahead
  have same : right.skipped.kind = .semicolon ↔
      left.skipped.kind = .semicolon := by
    rcases Decidable.em (left.skipped.rest = []) with ended | inside
    · refine skipped.same_kind rfl fun isSemicolon =>
        absurd ended (still isSemicolon)
    · rw [skipped.kind_of_ahead inside]
  rw [State.recover_eq, State.recover_eq]
  split
  · next isSemicolon =>
      rw [if_pos (same.mpr isSemicolon)]
      exact skipped.advance (State.ahead_of_kind isSemicolon (by decide))
        fun _ => Or.inr rfl
  · next other =>
      rw [if_neg (mt same.mp other)]
      exact skipped

/-- Where an error is reported, the causes may differ only before a head. -/
theorem fail
    {first second : Cause}
    (same : seam.kind = .routine ∨ second = relabel seam.change first) :
    seam.Beside (left.fail first) (right.fail second) := by
  cases calm : left.recovering with
  | true =>
      have calmRight := beside.recovering.trans calm
      rw [State.fail_of_recovering calm, State.fail_of_recovering calmRight]
      exact beside
  | false =>
      have calmRight := beside.recovering.trans calm
      rw [State.fail_of_calm calm, State.fail_of_calm calmRight]
      refine (beside.addHere same).recover fun isSemicolon ended => ?_
      rw [beside.resting isSemicolon ended] at calm
      cases calm

/-- Only where nothing comes after the seam, the readings may be cut off. -/
theorem cutOff (ending : seam.kind = .ending) :
    seam.Beside left.cutOff right.cutOff := by
  have fits := seam.fits
  rw [ending] at fits
  have noTail : seam.tail = [] := fits
  have reported :
      seam.Beside
        (if left.cutShort then left
          else left.addHere (.tooDeep nestingLimit))
        (if right.cutShort then right
          else right.addHere (.tooDeep nestingLimit)) := by
    rw [beside.cutShort]
    split
    · exact beside
    · exact beside.addHere (Or.inr rfl)
  exact
    { rest := noTail.symm
      stop := reported.final
      final := reported.final
      reached := reported.reached
      reports := reported.reports
      recovering := rfl
      cutShort := rfl
      place := fun token member => by
        rw [noTail] at member
        cases member
      last := nofun
      resting := fun _ _ => rfl }

end Seam.Beside

end Clipper.Grammar
