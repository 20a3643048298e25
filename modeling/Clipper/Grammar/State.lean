import Clipper.Grammar.Report
import Clipper.Token.Basic
/-!
# The state of a reading

A reading goes along a list of tokens up to the first end-of-file token.  Its
state holds the tokens ahead, the reports so far, and whether the reading is
recovering from an error: then further errors are consequences of the first and
are not reported.

A reading that nests too deeply is cut short.  It reports so once, drops all
tokens ahead and stands at the last end-of-file token of the list.
-/

namespace Clipper.Grammar

/-- How many levels expressions and blocks may be nested. -/
def nestingLimit : Nat :=
  100

/-- The state of a reading. -/
structure State where
  /-- The tokens ahead, up to the end-of-file token. -/
  rest : List Token
  /-- The span of the end-of-file token ahead. -/
  stop : Span
  /-- The span of the last end-of-file token of the whole list. -/
  final : Span
  /-- The offset at which the last token taken ends. -/
  reached : Nat
  /-- The reports so far, the latest first. -/
  reports : List Report
  /-- Whether an error in the current statement was reported. -/
  recovering : Bool
  /-- Whether the reading was cut short. -/
  cutShort : Bool
deriving DecidableEq

namespace State

/--
The state before a list of tokens; the list may lack an end-of-file token.
-/
def ofTokens (tokens : List Token) : State :=
  let final :=
    match tokens.getLast? with
    | none => Span.empty 0
    | some token =>
        if token.kind = .endOfFile then token.span
        else Span.empty token.span.stop
  let stop :=
    match tokens.find? (·.kind == .endOfFile) with
    | some token => token.span
    | none => final
  ⟨tokens.takeWhile (·.kind != .endOfFile), stop, final, 0, [], false, false⟩

/-- The token ahead. -/
def current (state : State) : Token :=
  match state.rest with
  | [] => ⟨.endOfFile, state.stop, ""⟩
  | token :: _ => token

/-- The kind of the token ahead. -/
def kind (state : State) : TokenKind :=
  state.current.kind

/-- The kind of the token after the one ahead. -/
def secondKind (state : State) : TokenKind :=
  match state.rest with
  | _ :: token :: _ => token.kind
  | _ => .endOfFile

/-- The offset at which the token ahead begins. -/
def start (state : State) : Nat :=
  state.current.span.start

/-- Takes the token ahead; the end of the file stays ahead. -/
def advance (state : State) : State :=
  match state.rest with
  | [] => state
  | token :: rest => { state with rest := rest, reached := token.span.stop }

/-- Adds a report. -/
def add
    (state : State)
    (report : Report) :
    State :=
  { state with reports := report :: state.reports }

/-- Adds a report at the token ahead. -/
def addHere
    (state : State)
    (cause : Cause) :
    State :=
  state.add ⟨cause, state.current.span⟩

end State

/-- The kinds of the two words that open a routine. -/
def isRoutineWord (kind : TokenKind) : Bool :=
  kind == .function || kind == .procedure

/-- Whether a list of tokens begins with a routine's head. -/
def opensRoutine : List Token → Bool
  | [] => false
  | [token] => isRoutineWord token.kind
  | token :: next :: _ =>
      isRoutineWord token.kind ||
        (token.kind == .static && isRoutineWord next.kind)

/-- The kinds at which a reading that recovers from an error may go on. -/
def isBoundary : TokenKind → Bool
  | .semicolon | .endIf | .elseWord | .elseIf | .endDo | .next | .endFunction
  | .endProcedure | .function | .procedure | .endOfFile => true
  | _ => false

/--
Skips tokens up to a boundary, and tells where the last skipped token ends.
-/
def skipToBoundary (reached : Nat) : List Token → Nat × List Token
  | [] => (reached, [])
  | token :: rest =>
      if isBoundary token.kind || opensRoutine (token :: rest) then
        (reached, token :: rest)
      else skipToBoundary token.span.stop rest

namespace State

/-- Goes on to the next boundary and takes it when it is a semicolon. -/
def recover (state : State) : State :=
  let (reached, rest) := skipToBoundary state.reached state.rest
  let state :=
    { state with rest := rest, reached := reached, recovering := true }
  if state.kind = .semicolon then state.advance else state

/--
Reports an error at the token ahead and
recovers, unless the reading is recovering.
-/
def fail
    (state : State)
    (cause : Cause) :
    State :=
  if state.recovering then state else (state.addHere cause).recover

/-- Drops the tokens ahead because the program is nested too deeply. -/
def cutOff (state : State) : State :=
  let state :=
    if state.cutShort then state
    else state.addHere (.tooDeep nestingLimit)
  { state with
    rest := [], stop := state.final, recovering := true, cutShort := true }

end State

end Clipper.Grammar
