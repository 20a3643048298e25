import Clipper.Check
import Clipper.CommandLine
import Clipper.Syntax.Record
/-!
# Sessions

One run of the program: from its arguments and the files they lead to, to an
exit code, an output and lines for the user.  Settings are read first; a run
that cannot read its settings or its sources fails.

The files are given by a function from paths to what stands there, so a
session is a function of its arguments and of this one.  Settings come from
the path that the options name, or from the standard place if there is a file.
A check of files fails if they have errors; to print tokens or a program does
not, whatever the errors are.
-/

namespace Clipper.Session

open CommandLine

/-- The file with settings that is read when no other is named. -/
def standardPath : String :=
  "./xbase.toml"

/-- The name and version of the program. -/
def versionLine : String :=
  "xbase 0.3.0"

/-- How to call the program. -/
def usage : List String :=
  ["Usage: xbase [OPTIONS] <COMMAND>",
    "",
    "Commands:",
    "  tokens <FILE>          Print the tokens of a source file",
    "  parse <FILE> [--json]  Print the program of a source file",
    "  check <PATHS>...       Report the errors in files and directories",
    "",
    "Options:",
    "  --config <CONFIG>  File with the settings (./xbase.toml where it exists)",
    "  --no-preprocess    Keep preprocessor directives",
    "  -v, --verbose      Tell more",
    "  -h, --help         Print this help",
    "  -V, --version      Print the version"]

/-- Why a run fails. -/
inductive Failure where
  | settings (path? : Option String)
  | check (failure : Check.Failure)
deriving DecidableEq

/-- The wording of a failure. -/
def Failure.message : Failure → String
  | settings (some path) => "Failed to load config '" ++ path ++ "'"
  | settings none => "Failed to load " ++ standardPath
  | check failure => failure.message

/-- How a run ends. -/
inductive Outcome where
  /-- The arguments are refused. -/
  | refused
  /-- The run fails, after it has told the user some lines. -/
  | failed (lines : List String) (failure : Failure)
  /-- The run comes to its end. -/
  | finished (success : Bool) (output : List Char) (lines : List String)

/-- The code with which the program exits. -/
def Outcome.code : Outcome → Nat
  | refused => 2
  | failed _ _ => 1
  | finished success _ _ => if success then 0 else 1

/-- The output of a run. -/
def Outcome.output : Outcome → List Char
  | finished _ output _ => output
  | _ => []

/-- The lines for the user. -/
def Outcome.lines : Outcome → List String
  | refused => usage
  | failed lines failure => lines ++ ["Error: " ++ failure.message]
  | finished _ _ lines => lines

/-! ## Settings -/

/-- The settings in what a path leads to. -/
def settingsIn? (found : Option FileTree) : Option Settings := do
  let text ← (← found).text?
  (Settings.ofText text).toOption

/-- The settings of a run. -/
def loadSettings
    (lookup : Lookup)
    (options : Options) :
    Except Failure Settings := do
  let settings ←
    match options.settings? with
    | some path =>
        match settingsIn? (lookup path) with
        | some settings => .ok settings
        | none => .error (.settings (some path))
    | none =>
        match lookup standardPath with
        | some (.file text?) =>
            match settingsIn? (some (.file text?)) with
            | some settings => .ok settings
            | none => .error (.settings none)
        | _ => .ok .standard
  .ok { settings with
    stripDirectives := settings.stripDirectives && !options.keepDirectives }

/-! ## Commands -/

/-- The line for a token. -/
def tokenLine (token : Token) : List Char :=
  token.span.text.toList ++ ' ' ::
    (token.kind.name.toList ++ ' ' ::
      (Text.quoted token.lexeme.toList ++ ['\n']))

/-- The text of the one file of a command. -/
def readSource
    (lookup : Lookup)
    (path : String) :
    Except Failure (List Char) :=
  match (lookup path).bind FileTree.text? with
  | some text => .ok text
  | none => .error (.check (.unreadable path))

/-- The lines for the diagnostics of an analysis. -/
def diagnosticLines
    (settings : Settings)
    (path : String)
    (text : List Char)
    (analysis : Analysis) :
    List String :=
  Check.diagnosticLines path text analysis.diagnostics settings.reportLimit

/-- Prints the tokens of a file. -/
def runTokens
    (settings : Settings)
    (path : String)
    (text : List Char) :
    Outcome :=
  let analysis := Analysis.ofText settings.stripDirectives text
  .finished true (analysis.tokens.flatMap tokenLine)
    (diagnosticLines settings path text analysis)

/--
Prints the program of a file, as an outline or as a record with its reports.
-/
def runParse
    (settings : Settings)
    (path : String)
    (json : Bool)
    (text : List Char) :
    Outcome :=
  let analysis := Analysis.ofText settings.stripDirectives text
  if json then .finished true (analysis.reading.record.text ++ ['\n']) []
  else
    .finished true analysis.reading.value.outline
      (diagnosticLines settings path text analysis)

/-- Checks all sources that the arguments name. -/
def runCheck
    (lookup : Lookup)
    (settings : Settings)
    (paths : List String) :
    Outcome :=
  match Check.collect lookup settings paths with
  | .error failure => .failed [] (.check failure)
  | .ok sources =>
      match Check.checkAll settings .none sources with
      | (summary, some failure) => .failed summary.lines (.check failure)
      | (summary, none) =>
          .finished (summary.errors == 0) [] (summary.lines ++ [summary.text])

/-- Runs a command with its settings. -/
def runCommand
    (lookup : Lookup)
    (settings : Settings) :
    Command → Outcome
  | .tokens path =>
      match readSource lookup path with
      | .error failure => .failed [] failure
      | .ok text => runTokens settings path text
  | .parse path json =>
      match readSource lookup path with
      | .error failure => .failed [] failure
      | .ok text => runParse settings path json text
  | .check paths => runCheck lookup settings paths

/-- Runs what a command line asks for. -/
def runRequest
    (lookup : Lookup) :
    Request → Outcome
  | .help => .finished true ((usage.map (· ++ "\n")).flatMap String.toList) []
  | .version => .finished true (versionLine.toList ++ ['\n']) []
  | .run options command =>
      match loadSettings lookup options with
      | .error failure => .failed [] failure
      | .ok settings => runCommand lookup settings command

/-- Runs the program with its arguments. -/
def run
    (lookup : Lookup)
    (arguments : List String) :
    Outcome :=
  match read? arguments with
  | none => .refused
  | some request => runRequest lookup request

/-- The paths that a run may look up. -/
def pathsOf : Request → List String
  | .help | .version => []
  | .run options command =>
      options.settings?.getD standardPath ::
        (match command with
          | .tokens path => [path]
          | .parse path _ => [path]
          | .check paths => paths)

end Clipper.Session
