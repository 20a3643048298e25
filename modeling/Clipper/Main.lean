import Clipper.Session
/-!
# The program

Reads the files that the arguments lead to, runs a session on them and prints
what it gives.

This is the only module with input and output, and it decides nothing: which
words are paths, what is read from them and what is printed is told by the
other modules.  A path that cannot be read gives nothing.
-/

namespace Clipper.Main

/-- Reads what stands at a path; what cannot be read has no text. -/
partial def readTree (place : String) : IO (Option FileTree) := do
  let base := (← IO.currentDir) / place
  if ← base.isDir then
    let entries ← base.readDir
    let mut trees : List (String × FileTree) := []
    for entry in entries do
      if let some tree ← readTree (FileTree.entryPath place entry.fileName) then
        trees := (entry.fileName, tree) :: trees
    return some (.directory trees)
  else if ← base.pathExists then
    let text? ←
      try
        pure (FileTree.ofBytes (← IO.FS.readBinFile base)).text?
      catch _ =>
        pure none
    match (← base.metadata).type with
    | .file => return some (.file text?)
    | _ => return some (.special text?)
  else return none

/-- Reads what stands at a path, or nothing if it cannot be read. -/
def readPath (path : String) : IO (String × Option FileTree) := do
  try
    return (path, ← readTree path)
  catch _ =>
    return (path, none)

end Clipper.Main

/-- Runs the program. -/
def main (arguments : List String) : IO UInt32 := do
  let paths :=
    ((Clipper.CommandLine.read? arguments).map Clipper.Session.pathsOf).getD []
  let found ← paths.mapM Clipper.Main.readPath
  let outcome := Clipper.Session.run
      (fun path => (found.lookup path).join) arguments
  IO.print (String.ofList outcome.output)
  for line in outcome.lines do
    IO.eprintln line
  return outcome.code.toUInt32
