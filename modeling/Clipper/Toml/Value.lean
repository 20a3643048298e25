/-!
# Values of TOML

The values that a TOML document can hold, and the rules by which a document may
add to its tables.  A table remembers how it came about: a table that was
written as a whole, or under its own header, takes no further keys, while one
that only stood on the path to another may still be opened.

Real numbers and dates carry no content: nothing in this library reads it.
-/

namespace Clipper.Toml

/-- How a table came about. -/
inductive Origin where
  /-- Written between braces. -/
  | inline
  /-- Opened by a header of its own. -/
  | header
  /-- Passed on the way to the table of a header. -/
  | passed
  /-- Passed on the way to a dotted key. -/
  | dotted
deriving DecidableEq

/-- A value of a document. -/
inductive Value where
  | text (content : List Char)
  | integer (number : Int)
  | real
  | boolean (truth : Bool)
  | moment
  /-- A list written between brackets. -/
  | array (items : List Value)
  /-- A list of tables, each opened by a header in double brackets. -/
  | tables (elements : List Value)
  | table (origin : Origin) (fields : List (List Char × Value))

/-- The fields of a table, in the order in which they were added. -/
abbrev Fields :=
  List (List Char × Value)

/-- Changes the field with a key, or adds it; the change may be refused. -/
def alter
    (key : List Char)
    (change : Option Value → Option Value) :
    Fields → Option Fields
  | [] => do
      let value ← change none
      some [(key, value)]
  | (other, value) :: rest =>
      if other = key then do
        let value ← change (some value)
        some ((other, value) :: rest)
      else do
        let rest ← alter key change rest
        some ((other, value) :: rest)

/-- Changes the fields of the last table of a list. -/
def alterLast
    (change : Fields → Option Fields) :
    List Value → Option (List Value)
  | [] => none
  | [.table origin fields] => do
      let fields ← change fields
      some [.table origin fields]
  | [_] => none
  | first :: rest => do
      let rest ← alterLast change rest
      some (first :: rest)

/--
Adds a value under a dotted key.  The tables on the way are made as they are
needed; the last of them must itself stem from a dotted key.
-/
def addDotted
    (key : List Char)
    (value : Value) :
    List (List Char) → Fields → Option Fields
  | [], fields =>
      alter key (fun
        | none => some value
        | some _ => none) fields
  | step :: path, fields =>
      alter step (fun
        | none => (addDotted key value path []).map (.table .dotted)
        | some (.table .dotted inner) =>
            (addDotted key value path inner).map (.table .dotted)
        | some (.table .passed inner) =>
            if path.isEmpty then none
            else (addDotted key value path inner).map (.table .passed)
        | some (.tables elements) =>
            if path.isEmpty then none
            else (alterLast (addDotted key value path) elements).map .tables
        | some _ => none) fields

/-- Adds a value under a dotted key of the table with a header. -/
def addUnder
    (path : List (List Char))
    (key : List Char)
    (value : Value) :
    List (List Char) → Fields → Option Fields
  | [], fields => addDotted key value path fields
  | step :: header, fields =>
      alter step (fun
        | some (.table origin inner) =>
            (addUnder path key value header inner).map (.table origin)
        | some (.tables elements) =>
            (alterLast (addUnder path key value header) elements).map .tables
        | _ => none) fields

/-- Walks along the path of a header, and makes its last step. -/
def openAt
    (last : Fields → Option Fields) :
    List (List Char) → Fields → Option Fields
  | [], fields => last fields
  | step :: path, fields =>
      alter step (fun
        | none => (openAt last path []).map (.table .passed)
        | some (.table .inline _) => none
        | some (.table origin inner) =>
            (openAt last path inner).map (.table origin)
        | some (.tables elements) =>
            (alterLast (openAt last path) elements).map .tables
        | some _ => none) fields

/--
Opens the table of a header; it may have been passed before, but not opened.
-/
def openTable
    (path : List (List Char))
    (key : List Char) :
    Fields → Option Fields :=
  openAt
    (alter key (fun
      | none => some (.table .header [])
      | some (.table .passed inner) => some (.table .header inner)
      | some _ => none))
    path

/-- Opens one more table of a list of tables. -/
def openElement
    (path : List (List Char))
    (key : List Char) :
    Fields → Option Fields :=
  openAt
    (alter key (fun
      | none => some (.tables [.table .header []])
      | some (.tables elements) =>
          some (.tables (elements ++ [.table .header []]))
      | some _ => none))
    path

end Clipper.Toml
