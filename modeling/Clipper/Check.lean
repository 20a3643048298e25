import Clipper.Analysis
import Clipper.FileTree
import Clipper.Source.Location
/-!
# Checking sources

The lines that tell a user about the errors of source files: one for each
diagnostic up to a limit, one for those beyond it, and a summary of all files.
The limit is of no account for the number of errors.

What is collected is settled before any text is looked at: an argument that
leads to nothing ends the check with a failure.  A file whose text cannot be
read ends the check where it stands, after the lines of the files before it.
-/

namespace Clipper.Check

/-- The line for a diagnostic of a file. -/
def diagnosticLine
    (path : String)
    (table : LineTable)
    (diagnostic : Diagnostic) :
    String :=
  path ++ ":" ++ (table.location diagnostic.span.start).text ++ ": " ++
    diagnostic.message

/-- How many of so many diagnostics are shown; zero stands for no limit. -/
def shownCount (limit count : Nat) : Nat :=
  if limit = 0 then count else min limit count

/-- The lines for the diagnostics of a file. -/
def diagnosticLines
    (path : String)
    (text : List Char)
    (diagnostics : List Diagnostic)
    (limit : Nat) :
    List String :=
  let table := LineTable.ofText text
  let shown := shownCount limit diagnostics.length
  let hidden := diagnostics.length - shown
  (diagnostics.take shown).map (diagnosticLine path table) ++
    (if hidden = 0 then []
      else [path ++ ": " ++ toString hidden ++ " more diagnostic(s) not shown"])

/-- Why a check ends early. -/
inductive Failure where
  /-- An argument that leads neither to a file nor to a directory. -/
  | missing (path : String)
  /-- A file that cannot be read as text. -/
  | unreadable (path : String)
deriving DecidableEq

/-- The wording of a failure. -/
def Failure.message : Failure → String
  | missing path => "No such file or directory: '" ++ path ++ "'"
  | unreadable path => "Failed to read '" ++ path ++ "'"

/-- The sources that arguments name, in the order of the arguments. -/
def collect
    (lookup : Lookup)
    (settings : Settings) :
    List String → Except Failure (List FileTree.Source)
  | [] => .ok []
  | path :: rest =>
      match (lookup path).bind (FileTree.named? settings path) with
      | none => .error (.missing path)
      | some sources => do
          let others ← collect lookup settings rest
          .ok (sources ++ others)

/-- What a check has found so far. -/
structure Summary where
  lines : List String
  files : Nat
  errors : Nat

/-- The summary of no files. -/
def Summary.none : Summary :=
  ⟨[], 0, 0⟩

/-- A summary with one more file. -/
def Summary.add
    (settings : Settings)
    (summary : Summary)
    (path : String)
    (text : List Char) :
    Summary :=
  let diagnostics := (Analysis.ofText settings.stripDirectives text).diagnostics
  ⟨summary.lines ++ diagnosticLines path text diagnostics settings.reportLimit,
    summary.files + 1,
    summary.errors + diagnostics.length⟩

/-- The last line of a check. -/
def Summary.text (summary : Summary) : String :=
  "checked " ++ toString summary.files ++ " file(s): " ++
    toString summary.errors ++ " error(s)"

/--
Checks files in order; an unreadable one ends
the check, and the lines so far are kept.
-/
def checkAll
    (settings : Settings)
    (summary : Summary) :
    List FileTree.Source → Summary × Option Failure
  | [] => (summary, Option.none)
  | source :: rest =>
      match source.text? with
      | Option.none => (summary, some (.unreadable source.path))
      | some text =>
          checkAll settings (summary.add settings source.path text) rest

end Clipper.Check
