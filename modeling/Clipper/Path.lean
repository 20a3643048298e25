import Clipper.Settings
/-!
# Paths

The parts of a path that decide whether it names a source file.  A path is a
text with slashes between its components; slashes at the end and components `.`
after the first are of no account.

The name of a file is the last component of its path, if this is not a way
upwards.  Its extension stands behind the last dot of the name, and a name
that only begins with a dot has none.  Extensions are compared without regard
to the case of ASCII letters.
-/

namespace Clipper.Path

/-- The components of a path, empty ones among them. -/
def pieces : List Char → List (List Char)
  | [] => [[]]
  | character :: rest =>
      if character = '/' then [] :: pieces rest
      else
        match pieces rest with
        | [] => [[character]]
        | piece :: later => (character :: piece) :: later

/--
Components that count: not the empty ones,
and no single dot except as the first.
-/
def components (path : List Char) : List (List Char) :=
  match pieces path with
  | [] => []
  | first :: rest =>
      (if first.isEmpty then [] else [first]) ++
        rest.filter (fun piece => !piece.isEmpty && piece != ['.'])

/--
The name of the file that a path leads to,
unless its last component leads elsewhere.
-/
def fileName? (path : List Char) : Option (List Char) :=
  match (components path).getLast? with
  | some ['.'] => none
  | some ['.', '.'] => none
  | name? => name?

/--
The text after the last dot of a name, unless that dot is its first character.
-/
def extensionOf? (name : List Char) : Option (List Char) :=
  let extension := (name.reverse.takeWhile (· != '.')).reverse
  if extension.length + 1 < name.length then some extension else none

/-- The extension of the file that a path leads to. -/
def extension? (path : List Char) : Option (List Char) :=
  (fileName? path).bind extensionOf?

/-- Whether the settings count a path as that of a source file. -/
def isSource
    (settings : Settings)
    (path : List Char) :
    Bool :=
  match extension? path with
  | some extension =>
      settings.extensions.any
        (Source.sameIgnoringCase (String.ofList extension))
  | none => false

end Clipper.Path
