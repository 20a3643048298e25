import Clipper.Toml.Scalar
/-!
# Documents of TOML

A document is a list of lines: headers of tables, and keys with their values.
Lists and inline tables may be nested up to a fixed depth; the functions that
read them take the depth that is left.

A document is read line by line into a progress, which holds the table that is
open and all fields so far.  The first line that does not fit makes the whole
document unreadable: nothing of it is used then.  A line may add to a table
only as the rules for values allow, so no key is set twice.
-/

namespace Clipper.Toml

/-- How deep values may be nested, and how many parts a key may have. -/
def depthLimit : Nat :=
  79

/-- A text without the blanks at its beginning. -/
def skipBlanks (text : List Char) : List Char :=
  text.dropWhile isBlank

/-- A text without the comment at its beginning. -/
def skipComment : List Char → List Char
  | '#' :: rest => rest.dropWhile isPrintable
  | text => text

/-- What is left after blanks and a comment up to the end of the line. -/
def restOfLine? (text : List Char) : Option (List Char) :=
  match skipComment (skipBlanks text) with
  | [] => some []
  | rest => lineBreak? rest

/-- Whether the characters up to the end of the line are a comment. -/
inductive GapMode where
  | open
  | comment
deriving DecidableEq

/-- A text without the blanks, line breaks and comments at its beginning. -/
def skipGap (mode : GapMode) : List Char → List Char
  | [] => []
  | character :: rest =>
      if mode = .comment ∧ isPrintable character then skipGap .comment rest
      else if isBlank character ∨ character = '\n' then skipGap .open rest
      else if character = '\r' ∧ rest.head? = some '\n' then skipGap .open rest
      else if character = '#' then skipGap .comment rest
      else character :: rest

/-! ## Keys -/

/-- The characters of a key without quotes. -/
def isKeyPart (character : Char) : Bool :=
  character.isAlphanum || character == '_' || character == '-'

/-- One part of a key. -/
def simpleKey? : Reader (List Char)
  | '"' :: rest => basicString 0 rest
  | '\'' :: rest => literalString rest
  | text =>
      let key := text.takeWhile isKeyPart
      if key.isEmpty then none else some (key, text.drop key.length)

/-- A key of one or more parts with dots between them. -/
structure Key where
  /-- The parts before the last. -/
  path : List (List Char)
  last : List Char
deriving DecidableEq

/-- The parts of a key as one list. -/
def Key.parts (key : Key) : List (List Char) :=
  key.path ++ [key.last]

/-- A key with at most so many dots. -/
def keyWithin? (dots : Nat) : Reader Key := fun text => do
  let (part, rest) ← simpleKey? (skipBlanks text)
  match skipBlanks rest with
  | '.' :: rest =>
      match dots with
      | 0 => none
      | dots + 1 =>
          let (key, rest) ← keyWithin? dots rest
          some (⟨part :: key.path, key.last⟩, rest)
  | rest => some (⟨[], part⟩, rest)

/-- A key. -/
def key? : Reader Key :=
  keyWithin? (depthLimit - 1)

/-! ## Values -/

/-- A key, an equals sign and a value. -/
def keyValue? (value? : Reader Value) : Reader (Key × Value) := fun text => do
  let (key, text) ← key? text
  let text ← mark? '=' text
  let (value, text) ← value? (skipBlanks text)
  some ((key, value), text)

/--
The items of a list up to its closing bracket; a comma may stand after the last.
-/
def items?
    (value? : Reader Value)
    (text : List Char) :
    Option (List Value × List Char) :=
  match skipGap .open text with
  | ']' :: rest => some ([], rest)
  | first =>
      match value? first with
      | none => none
      | some (value, rest) =>
          match skipGap .open rest with
          | ']' :: rest => some ([value], rest)
          | ',' :: rest =>
              if rest.length < text.length then
                (items? value? rest).map
                  (fun (values, rest) => (value :: values, rest))
              else none
          | _ => none
termination_by text.length

/--
The keys and values of an inline table, one at least, up to its closing brace.
-/
def entries?
    (value? : Reader Value)
    (text : List Char)
    (fields : Fields) :
    Option (Fields × List Char) :=
  match keyValue? value? text with
  | none => none
  | some ((key, value), rest) =>
      match addDotted key.last value key.path fields with
      | none => none
      | some fields =>
          match skipBlanks rest with
          | '}' :: rest => some (fields, rest)
          | ',' :: rest =>
              if rest.length < text.length then
                entries? value? rest fields
              else none
          | _ => none
termination_by text.length

/-- An inline table after its opening brace. -/
def inlineTable? (value? : Reader Value) : Reader Fields := fun text =>
  match skipBlanks text with
  | '}' :: rest => some ([], rest)
  | text => entries? value? text []

/-- A value, given how to read the values inside it, if it may have any. -/
def valueOf? (nested? : Option (Reader Value)) : Reader Value
  | '[' :: rest => do
      let nested ← nested?
      (items? nested rest).map (fun (items, rest) => (.array items, rest))
  | '{' :: rest => do
      let nested ← nested?
      (inlineTable? nested rest).map (fun (fields, rest) =>
        (.table .inline fields, rest))
  | 't' :: 'r' :: 'u' :: 'e' :: rest => some (.boolean true, rest)
  | 'f' :: 'a' :: 'l' :: 's' :: 'e' :: rest => some (.boolean false, rest)
  | text =>
      match string? text with
      | some (content, rest) => some (.text content, rest)
      | none => number? text

/-- A value with so many levels below it. -/
def value? : Nat → Reader Value
  | 0 => valueOf? none
  | depth + 1 => valueOf? (some (value? depth))

/-! ## Lines -/

/--
A document that is read up to some line:
its fields, and the header that is open.
-/
structure Progress where
  fields : Fields
  header : List (List Char)

/-- The rest of a header after its opening brackets. -/
def header?
    (isElement : Bool)
    (progress : Progress) :
    Reader Progress := fun text => do
  let (key, text) ← key? text
  let text ← mark? ']' text
  let text ← if isElement then mark? ']' text else some text
  let text ← restOfLine? text
  let opened :=
    if isElement then openElement key.path key.last
    else openTable key.path key.last
  let fields ← opened progress.fields
  some (⟨fields, key.parts⟩, text)

/-- A key with its value, up to the end of the line. -/
def assignment? (progress : Progress) : Reader Progress := fun text => do
  let ((key, value), text) ← keyValue? (value? depthLimit) text
  let text ← restOfLine? text
  let fields ← addUnder key.path key.last value progress.header progress.fields
  some ({ progress with fields := fields }, text)

/-- One line of a document. -/
def line? (progress : Progress) : Reader Progress := fun text =>
  match skipBlanks text with
  | '#' :: rest =>
      (restOfLine? ('#' :: rest)).map (fun rest => (progress, rest))
  | '[' :: '[' :: rest => header? true progress rest
  | '[' :: rest => header? false progress rest
  | '\n' :: rest => some (progress, rest)
  | '\r' :: rest =>
      (lineBreak? ('\r' :: rest)).map (fun rest => (progress, rest))
  | text => assignment? progress text

/-- The lines of a document. -/
def lines?
    (progress : Progress)
    (text : List Char) :
    Option Fields :=
  if (skipBlanks text).isEmpty then some progress.fields
  else
    match line? progress text with
    | none => none
    | some (progress, rest) =>
        if rest.length < text.length then lines? progress rest else none
termination_by text.length

/--
The fields of a document; a byte order mark may stand before its first line.
-/
def document? (text : List Char) : Option Fields :=
  match text with
  | '\uFEFF' :: text => lines? ⟨[], []⟩ text
  | text => lines? ⟨[], []⟩ text

end Clipper.Toml
