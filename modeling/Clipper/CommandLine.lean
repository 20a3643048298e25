/-!
# The command line

The arguments of the program `xbase` and what they ask for.  Options may stand
before and after the command; after the command they prevail.  An option may be
given once on either side.  Arguments that ask for nothing sensible are refused.

The words are read one by one into a draft, which holds what has been seen so
far.  A word that begins with one dash is a run of short options, one with two
dashes a long option, and after two dashes alone all words are plain ones.  A
request for help or for the version settles the matter at once.
-/

namespace Clipper.CommandLine

/-- The options that every command has. -/
structure Options where
  /-- The file with the settings. -/
  settings? : Option String
  /-- Whether directives stay in the text. -/
  keepDirectives : Bool
  /-- Whether the program tells what it does. -/
  verbose : Bool
deriving DecidableEq

/-- No option is given. -/
def Options.none : Options :=
  ⟨Option.none, false, false⟩

/-- The options of a command line: those after the command prevail. -/
def Options.over (inner outer : Options) : Options :=
  ⟨inner.settings?.or outer.settings?,
    inner.keepDirectives || outer.keepDirectives,
    inner.verbose || outer.verbose⟩

/-- The commands of the program. -/
inductive Command where
  | tokens (path : String)
  | parse (path : String) (json : Bool)
  | check (paths : List String)
deriving DecidableEq

/-- What a command line asks for. -/
inductive Request where
  | help
  | version
  | run (options : Options) (command : Command)
deriving DecidableEq

/-- The names of the commands. -/
inductive CommandName where
  | tokens
  | parse
  | check
deriving DecidableEq

/-- Reads the name of a command. -/
def CommandName.ofText? : String → Option CommandName
  | "tokens" => some tokens
  | "parse" => some parse
  | "check" => some check
  | _ => none

/-! ## Arguments -/

/-- The forms of an argument. -/
inductive Argument where
  /-- Two dashes: no option follows. -/
  | escape
  /-- Two dashes and a name, with a value after an equals sign. -/
  | long (name : String) (value? : Option String)
  /-- A dash and letters. -/
  | short (letters : List Char)
  /-- Anything else. -/
  | plain (text : String)

/-- The form of an argument. -/
def Argument.ofText (text : String) : Argument :=
  match text.toList with
  | ['-', '-'] => escape
  | '-' :: '-' :: rest =>
      let name := rest.takeWhile (· != '=')
      match rest.drop name.length with
      | _ :: value => long (String.ofList name) (some (String.ofList value))
      | [] => long (String.ofList name) none
  | '-' :: letter :: rest => short (letter :: rest)
  | _ => plain text

/-- The words of a command line so far. -/
structure Draft where
  /-- The options before the command. -/
  outer : Options
  /-- The options on this side of the command. -/
  options : Options
  command? : Option CommandName
  json : Bool
  /-- The paths after the command, the latest first. -/
  paths : List String

/-- Nothing is read yet. -/
def Draft.empty : Draft :=
  ⟨.none, .none, none, false, []⟩

/-- What a word does to a command line. -/
inductive Effect where
  /-- Reading goes on. -/
  | go (draft : Draft)
  /-- Reading goes on with the value of the option for settings. -/
  | settingsNext
  /-- Help is asked for; the words that follow name what it is about. -/
  | helpNext
  /-- The request is settled. -/
  | settled (request : Request)
  | refused

namespace Draft

/-- Sets the file with the settings, once, and not to nothing. -/
def setSettings
    (draft : Draft)
    (path : String) :
    Effect :=
  if path.isEmpty || draft.options.settings?.isSome then .refused
  else
    .go { draft with options := { draft.options with settings? := some path } }

/-- Sets an option without a value, once. -/
def setFlag
    (isSet : Bool)
    (draft : Draft) :
    Effect :=
  if isSet then .refused else .go draft

/-- Asks that directives stay. -/
def setKeepDirectives (draft : Draft) : Effect :=
  setFlag draft.options.keepDirectives
    { draft with options := { draft.options with keepDirectives := true } }

/-- Asks for a verbose program. -/
def setVerbose (draft : Draft) : Effect :=
  setFlag draft.options.verbose
    { draft with options := { draft.options with verbose := true } }

/-- Reads an option by its name. -/
def long
    (draft : Draft)
    (name : String)
    (value? : Option String) :
    Effect :=
  match name, value? with
  | "config", some value => draft.setSettings value
  | "config", none => .settingsNext
  | "no-preprocess", none => draft.setKeepDirectives
  | "verbose", none => draft.setVerbose
  | "help", none => .settled .help
  | "version", none =>
      if draft.command?.isNone then .settled .version else .refused
  | "json", none =>
      if draft.command? = some .parse then
        setFlag draft.json { draft with json := true }
      else .refused
  | _, _ => .refused

/-- Reads options by their letters. -/
def short (draft : Draft) : List Char → Effect
  | [] => .go draft
  | 'v' :: rest =>
      match draft.setVerbose with
      | .go draft => draft.short rest
      | other => other
  | 'h' :: _ => .settled .help
  | 'V' :: _ => if draft.command?.isNone then .settled .version else .refused
  | _ => .refused

/-- Reads the name of the command, or a path after it. -/
def plain
    (draft : Draft)
    (text : String) :
    Effect :=
  match draft.command? with
  | none =>
      match CommandName.ofText? text with
      | some name =>
          .go { draft with
            outer := draft.options, options := .none, command? := some name }
      | none => if text = "help" then .helpNext else .refused
  | some name =>
      if text.isEmpty || (name != .check && !draft.paths.isEmpty) then .refused
      else .go { draft with paths := text :: draft.paths }

/-- Reads a word after which no options are expected. -/
def escaped
    (draft : Draft)
    (text : String) :
    Effect :=
  if draft.command?.isNone then .refused else draft.plain text

/-- Reads a word. -/
def word
    (draft : Draft)
    (argument : Argument) :
    Effect :=
  match argument with
  | .escape => .go draft
  | .long name value? => draft.long name value?
  | .short letters => draft.short letters
  | .plain text => draft.plain text

/-- The request of a command line that was read to its end. -/
def finish? (draft : Draft) : Option Request :=
  let options := draft.options.over draft.outer
  match draft.command?, draft.paths.reverse with
  | some .tokens, [path] => some (.run options (.tokens path))
  | some .parse, [path] => some (.run options (.parse path draft.json))
  | some .check, path :: paths => some (.run options (.check (path :: paths)))
  | _, _ => none

end Draft

/--
Reads the words after a request for help: it
can be about one command, or about itself.
-/
def helpAbout? : List String → Option Request
  | [] => some .help
  | [name] =>
      if name = "help" || (CommandName.ofText? name).isSome then
        some .help
      else none
  | _ => none

/-- Reads the words after two dashes. -/
def readEscaped
    (draft : Draft) :
    List String → Option Request
  | [] => draft.finish?
  | text :: rest =>
      match draft.escaped text with
      | .go draft => readEscaped draft rest
      | .settled request => some request
      | .settingsNext | .helpNext | .refused => none

/-- Whether a word can be the value of an option. -/
def isValue (text : String) : Bool :=
  match Argument.ofText text with
  | .plain _ => true
  | _ => false

/--
Reads words; `awaiting` tells whether the
value of the option for settings comes next.
-/
def readWords
    (awaiting : Bool)
    (draft : Draft) :
    List String → Option Request
  | [] => if awaiting then none else draft.finish?
  | text :: rest =>
      if awaiting then
        if isValue text then
          match draft.setSettings text with
          | .go draft => readWords false draft rest
          | _ => none
        else none
      else
        match Argument.ofText text with
        | .escape => readEscaped draft rest
        | argument =>
            match draft.word argument with
            | .go draft => readWords false draft rest
            | .settingsNext => readWords true draft rest
            | .helpNext => helpAbout? rest
            | .settled request => some request
            | .refused => none

/-- What arguments ask for; nothing if they are refused. -/
def read? (arguments : List String) : Option Request :=
  readWords false .empty arguments

end Clipper.CommandLine
