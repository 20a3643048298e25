import Clipper.Path

/-!
# Trees of files

A directory tree, how a path leads through it, and which of its entries are
sources.  An entry of a directory is a file, another directory, or something
that is neither: a pipe, a socket or a device.  Such a special entry is read
as a file is, but an argument cannot name it.

The sources of a directory come in the order of their names: at each level the
names are compared character by character, and what a subdirectory holds comes
in its place.  A walk of a directory takes what is no subdirectory for a
source by its name alone, a special entry too; an argument is asked what it
leads to.
-/

namespace Clipper

/--
What stands at a place: a file with its text, if its bytes are one; a special
entry, which is neither a file nor a directory, with the text that is read from
it, if one is; or a directory.
-/
inductive FileTree where
  | file (text? : Option (List Char))
  | special (text? : Option (List Char))
  | directory (entries : List (String × FileTree))

/-- Finds what a path leads to. -/
abbrev Lookup :=
  String → Option FileTree

namespace FileTree

/-- The file with these bytes. -/
def ofBytes (bytes : ByteArray) : FileTree :=
  file ((String.fromUTF8? bytes).map String.toList)

/-- The entries of a directory; nothing else has any. -/
def entries : FileTree → List (String × FileTree)
  | file _ | special _ => []
  | directory entries => entries

/--
The text that is read from what stands at a place; a directory cannot be read.
-/
def text? : FileTree → Option (List Char)
  | file text? | special text? => text?
  | directory _ => none

/-! ## Paths through a tree -/

/--
Puts a subtree under a path, in place of what
stands there; directories on the way are made.
-/
def insert
    (subtree : FileTree) :
    List String → FileTree → FileTree
  | [], _ => subtree
  | step :: path, tree =>
      let inner := (tree.entries.lookup step).getD (directory [])
      directory
        (tree.entries.filter (fun entry => entry.1 != step) ++
          [(step, insert subtree path inner)])

/--
Follows the pieces of a path from a directory, whose parents come nearest first.
-/
def follow
    (parents : List FileTree)
    (tree : FileTree) :
    List (List Char) → Option FileTree
  | [] => some tree
  | piece :: rest =>
      match tree with
      | file _ | special _ => none
      | directory entries =>
          if piece = [] ∨ piece = ['.'] then follow parents tree rest
          else if piece = ['.', '.'] then
            match parents with
            | [] => none
            | parent :: others => follow others parent rest
          else
            match entries.lookup (String.ofList piece) with
            | none => none
            | some entry => follow (tree :: parents) entry rest

/--
What a path leads to from the root of a tree;
a path from elsewhere leads to nothing.
-/
def lookup (tree : FileTree) : Lookup :=
  fun path =>
    match path.toList with
    | [] => none
    | '/' :: _ => none
    | characters => tree.follow [] (Path.pieces characters)

/-! ## Sources -/

/--
A source file: the path under which it is shown, and its text, if it has one.
-/
structure Source where
  path : String
  text? : Option (List Char)

/-- The path of an entry of a directory. -/
def entryPath (path name : String) : String :=
  if path.endsWith "/" then path ++ name else path ++ "/" ++ name

/-- The values of a list of named values, in the order of the names. -/
def inNameOrder
    {α : Type}
    (named : List (String × List α)) :
    List α :=
  (named.mergeSort (fun first second => decide (first.1 ≤ second.1))).flatMap
    Prod.snd

mutual

/--
The sources in a directory, or what is itself a source.  Only the path is asked
whether an entry is one: a special entry is taken for a source as a file is.
-/
def sources
    (settings : Settings)
    (path : String) :
    FileTree → List Source
  | file text? | special text? =>
      if Path.isSource settings path.toList then [⟨path, text?⟩] else []
  | directory entries => inNameOrder (entrySources settings path entries)

/-- The sources of each entry of a directory. -/
def entrySources
    (settings : Settings)
    (path : String) :
    List (String × FileTree) → List (String × List Source)
  | [] => []
  | (name, tree) :: rest =>
      (name, tree.sources settings (entryPath path name)) ::
        entrySources settings path rest

end

/--
The sources that an argument names: a file whatever its extension, or those in
a directory.  It names nothing if it leads to a special entry.
-/
def named?
    (settings : Settings)
    (path : String) :
    FileTree → Option (List Source)
  | file text? => some [⟨path, text?⟩]
  | special _ => none
  | directory entries => some ((directory entries).sources settings path)

end FileTree

end Clipper
