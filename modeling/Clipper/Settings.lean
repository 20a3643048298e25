import Clipper.Source.Text
import Clipper.Toml.Document
/-!
# Settings

The settings of the front end: whether directives are removed, which files are
sources, and how many diagnostics are shown.  They are read from a TOML document
with three sections, all of which may be absent, and each of which has one
entry. A section may also be written as a list of its entries.

What the document does not set has its standard value.  An extension may be
neither empty nor hold a dot, a slash or a backslash, as no file name could
end in it; the first unfit one is reported.  Unknown sections, further entries
and values of a wrong sort make the document unfit as a whole.
-/

namespace Clipper

/-- The settings of the front end. -/
structure Settings where
  /--
  Whether preprocessor directives are removed before a text is cut into tokens.
  -/
  stripDirectives : Bool
  /-- The extensions of source files, without the dot. -/
  extensions : List String
  /--
  The most diagnostics that are shown for one file; zero stands for no limit.
  -/
  reportLimit : Nat
deriving DecidableEq

namespace Settings

/-- The settings that hold when a document says nothing. -/
def standard : Settings :=
  ⟨true, ["prg", "ch"], 100⟩

/-- What makes an extension unfit. -/
inductive ExtensionFlaw where
  | empty
  | separators
deriving DecidableEq

/-- The wording of what makes an extension unfit. -/
def ExtensionFlaw.message : ExtensionFlaw → String
  | empty => "extension cannot be empty"
  | separators => "write the extension without dots or separators"

/-- Why a text holds no settings. -/
inductive Error where
  /-- The text is no document, or the document has another structure. -/
  | malformed
  /-- An extension that no file can have. -/
  | unfitExtension (extension : String) (flaw : ExtensionFlaw)
deriving DecidableEq

/-- The wording of an unfit extension. -/
def unfitMessage
    (extension : String)
    (flaw : ExtensionFlaw) :
    String :=
  "invalid source extension '" ++ extension ++ "': " ++ flaw.message

/-- What is wrong with an extension. -/
def flaw? (extension : String) : Option ExtensionFlaw :=
  if extension.isEmpty then some .empty
  else if extension.toList.any
      (fun character => "./\\".toList.contains character) then
    some .separators
  else none

/-! ## Entries -/

/-- A truth value. -/
def truth? : Toml.Value → Option Bool
  | .boolean truth => some truth
  | _ => none

/-- A text. -/
def text? : Toml.Value → Option String
  | .text content => some (String.ofList content)
  | _ => none

/-- A list of texts. -/
def texts? : Toml.Value → Option (List String)
  | .array items => items.mapM text?
  | .tables elements => elements.mapM text?
  | _ => none

/-- A count. -/
def count? : Toml.Value → Option Nat
  | .integer number => if 0 ≤ number then some number.toNat else none
  | _ => none

/-- Reads the one entry of a section; without it the section changes nothing. -/
def readSection
    {α : Type}
    (key : String)
    (read : Toml.Value → Option α)
    (standard : α) :
    Toml.Value → Option α
  | .table _ [] => some standard
  | .table _ [(name, value)] =>
      if String.ofList name = key then read value else none
  | .array [] => some standard
  | .array (value :: _) => read value
  | .tables [] => some standard
  | .tables (value :: _) => read value
  | _ => none

/-- Takes over one field of a document. -/
def readField
    (settings : Settings)
    (field : List Char × Toml.Value) :
    Option Settings :=
  match String.ofList field.1 with
  | "preprocess" => do
      let strip ← readSection "strip-directives" truth?
          settings.stripDirectives field.2
      some { settings with stripDirectives := strip }
  | "source" => do
      let extensions ← readSection "extensions" texts?
          settings.extensions field.2
      some { settings with extensions := extensions }
  | "report" => do
      let limit ← readSection "max-diagnostics" count?
          settings.reportLimit field.2
      some { settings with reportLimit := limit }
  | _ => none

/-- The first unfit extension of a list. -/
def firstUnfit? (extensions : List String) : Option Error :=
  extensions.findSome?
    (fun extension => (flaw? extension).map (.unfitExtension extension))

/-- Reads settings from a text. -/
def ofText (text : List Char) : Except Error Settings :=
  match (Toml.document? text).bind
      (fun fields => fields.foldlM readField standard) with
  | none => .error .malformed
  | some settings =>
      match firstUnfit? settings.extensions with
      | some error => .error error
      | none => .ok settings

end Settings

end Clipper
