import Clipper.Lexeme.Fault
import Clipper.Lexeme.Lookahead
import Clipper.Lexeme.Context
import Clipper.Token.Word
/-!
# Pieces of text

A text is cut into pieces from left to right.  A piece is skipped, or it is a
token, or it has a fault.  What a piece opens as is decided by its first
characters and by the text before it; each way to open has its own rule for how
far the piece reaches.  Every piece has at least one character: a piece records
how many characters follow its first.

Only strings and brackets ask the line reader a question, and only these hand
its memory on changed.  The contents hold what a token needs besides its span:
its kind, and its text, which is decoded for strings and put into its common
form for the sign that has more than one.
-/

namespace Clipper.Lexeme

open Clipper.Source

/-- What a piece is. -/
inductive Content where
  /-- Blanks, comments and continued line ends. -/
  | skipped
  /-- A token with its text. -/
  | token (kind : TokenKind) (lexeme : String)
  /-- A piece that is no token. -/
  | fault (cause : Fault)
deriving DecidableEq

/-- A piece: `extra` characters after its first, and what they make. -/
structure Piece where
  extra : Nat
  content : Content
deriving DecidableEq

/-- The ways in which a piece opens. -/
inductive Opening where
  | space
  | lineComment
  | blockComment
  | starComment
  | semicolon
  | quote
  | bracket
  | dot
  | digit
  | scope
  | name
  | sign
deriving DecidableEq

/--
How the piece opens that begins with `first`,
stands after `before` and goes on with `rest`.
-/
def Opening.of
    (before : List Char)
    (first : Char)
    (rest : List Char) :
    Opening :=
  if isSpace first then .space
  else if opensLineComment (first :: rest) then .lineComment
  else if first = '/' ∧ rest.head? = some '*' then .blockComment
  else if opensStarComment before (first :: rest) then .starComment
  else if first = ';' then .semicolon
  else if first = '"' ∨ first = '\'' then .quote
  else if first = '[' then .bracket
  else if first = '.' then .dot
  else if first.isDigit then .digit
  else if first = ':' ∧ rest.head? = some ':' then .scope
  else if isNameStart first then .name
  else .sign

/-! ## Comments and blanks -/

/-- The run of spaces and line breaks. -/
def spacePiece (rest : List Char) : Piece :=
  ⟨(rest.takeWhile isSpace).length, .skipped⟩

/-- A comment up to the end of its line; the line feed stays. -/
def lineCommentPiece (rest : List Char) : Piece :=
  ⟨(firstLine rest).length, .skipped⟩

/-- The number of characters up to the first `*/`, those two included. -/
def commentLength? : List Char → Option Nat
  | [] => none
  | '*' :: '/' :: _ => some 2
  | _ :: rest => (commentLength? rest).map (· + 1)

/--
A block comment; without its end it is a
fault that reaches to the end of the text.
-/
def blockCommentPiece (rest : List Char) : Piece :=
  match commentLength? (rest.drop 1) with
  | some length => ⟨1 + length, .skipped⟩
  | none => ⟨rest.length, .fault .openComment⟩

/-- A semicolon continues its line, or separates statements. -/
def semicolonPiece (rest : List Char) : Piece :=
  if continuesLine (';' :: rest) then ⟨0, .skipped⟩
  else ⟨0, .token .semicolon ";"⟩

/-! ## Numbers, names and dot words -/

/-- Digits, and a fraction when a digit follows the dot. -/
def numberPiece
    (first : Char)
    (rest : List Char) :
    Piece :=
  let digits := rest.takeWhile Char.isDigit
  let tail := rest.drop digits.length
  let fraction :=
    if opensFraction tail then '.' :: (tail.drop 1).takeWhile Char.isDigit
    else []
  ⟨digits.length + fraction.length,
    .token .number (String.ofList (first :: (digits ++ fraction)))⟩

/-- A reserved word or an identifier. -/
def namePiece
    (first : Char)
    (rest : List Char) :
    Piece :=
  let tail := rest.takeWhile isNamePart
  let word := String.ofList (first :: tail)
  ⟨tail.length, .token ((Word.reserved? word).getD .identifier) word⟩

/--
Two colons, blanks and a name: the name is scoped, and the blanks are dropped.
-/
def scopePiece (rest : List Char) : Piece :=
  let tail := rest.drop 1
  let gap := tail.takeWhile
      (fun character => character == ' ' || character == '\t')
  let named := tail.drop gap.length
  if named.head?.any isNameStart then
    let name := named.takeWhile isNamePart
    ⟨1 + gap.length + name.length,
      .token .identifier (String.ofList (':' :: ':' :: name))⟩
  else ⟨1, .fault .namelessScope⟩

/-- A word between two dots on one line. -/
def dotPiece (rest : List Char) : Piece :=
  let line := firstLine rest
  if '.' ∈ line then
    let inner := line.takeWhile (· != '.')
    let word := String.ofList inner
    match Word.dotted? word with
    | some kind =>
        ⟨inner.length + 1,
          .token kind (String.ofList ('.' :: (inner ++ ['.'])))⟩
    | none => ⟨inner.length + 1, .fault (.unknownDotWord word)⟩
  else ⟨0, .fault .loneDot⟩

/-! ## Operators and delimiters -/

/--
The longest operator or delimiter at the beginning
of a text, and its number of characters.
-/
def sign? : List Char → Option (TokenKind × Nat)
  | '+' :: '=' :: _ => some (.plusEqual, 2)
  | '+' :: _ => some (.plus, 1)
  | '-' :: '=' :: _ => some (.minusEqual, 2)
  | '-' :: '>' :: _ => some (.arrow, 2)
  | '-' :: _ => some (.minus, 1)
  | '*' :: '=' :: _ => some (.starEqual, 2)
  | '*' :: _ => some (.star, 1)
  | '/' :: '=' :: _ => some (.slashEqual, 2)
  | '/' :: _ => some (.slash, 1)
  | '%' :: _ => some (.percent, 1)
  | ':' :: '=' :: _ => some (.assign, 2)
  | ':' :: _ => some (.colon, 1)
  | '=' :: '=' :: _ => some (.exactlyEqual, 2)
  | '=' :: '>' :: _ => some (.arrow, 2)
  | '=' :: _ => some (.equal, 1)
  | '!' :: '=' :: _ => some (.notEqual, 2)
  | '!' :: _ => some (.not, 1)
  | '#' :: _ => some (.notEqual, 1)
  | '<' :: '>' :: _ => some (.notEqual, 2)
  | '<' :: '=' :: _ => some (.lessEqual, 2)
  | '<' :: _ => some (.less, 1)
  | '>' :: '=' :: _ => some (.greaterEqual, 2)
  | '>' :: _ => some (.greater, 1)
  | '$' :: _ => some (.dollar, 1)
  | '@' :: _ => some (.atSign, 1)
  | '?' :: '?' :: _ => some (.doubleQuestion, 2)
  | '?' :: _ => some (.question, 1)
  | '|' :: _ => some (.bar, 1)
  | '(' :: _ => some (.leftParenthesis, 1)
  | ')' :: _ => some (.rightParenthesis, 1)
  | '{' :: _ => some (.leftBrace, 1)
  | '}' :: _ => some (.rightBrace, 1)
  | ']' :: _ => some (.rightBracket, 1)
  | ',' :: _ => some (.comma, 1)
  | _ => none

/-- An operator or delimiter, or one character that begins nothing. -/
def signPiece
    (first : Char)
    (rest : List Char) :
    Piece :=
  match sign? (first :: rest) with
  | some (kind, length) =>
      let spelling := String.ofList ((first :: rest).take length)
      ⟨length - 1, .token kind (kind.commonSpelling?.getD spelling)⟩
  | none => ⟨0, .fault .strayCharacter⟩

/-! ## Strings -/

/-- What was read of a quoted string. -/
structure Quoted (σ : Type) where
  /-- The decoded characters. -/
  content : List Char
  /-- How many characters were read after the opening quote. -/
  taken : Nat
  /-- Whether the closing quote was among them. -/
  closed : Bool
  memory : σ

namespace Quoted

/-- Puts one decoded character, written with `count` characters, in front. -/
def push
    {σ : Type}
    (character : Char)
    (count : Nat)
    (quoted : Quoted σ) :
    Quoted σ :=
  { quoted with
    content := character :: quoted.content
    taken := quoted.taken + count }

end Quoted

/--
Reads the rest of a string up to its closing quote or the end of its line.  A
doubled quote stands for one quote and a doubled backslash for one backslash;
inside double quotes a backslash before a quote may escape it.
-/
def readQuoted
    {σ : Type}
    (reader : LineReader σ)
    (quote : Char)
    (memory : σ)
    (offset : Nat) :
    List Char → Quoted σ
  | [] => ⟨[], 0, false, memory⟩
  | '\n' :: _ => ⟨[], 0, false, memory⟩
  | '\r' :: _ => ⟨[], 0, false, memory⟩
  | '\\' :: '\\' :: rest =>
      (readQuoted reader quote memory (offset + 2) rest).push '\\' 2
  | '\\' :: '"' :: rest =>
      if quote = '"' then
        let (escapes, memory) :=
          reader.escapesQuote memory offset ('\\' :: '"' :: rest)
        if escapes then
          (readQuoted reader quote memory (offset + 2) rest).push '"' 2
        else
          (readQuoted reader quote memory (offset + 1)
            ('"' :: rest)).push '\\' 1
      else
        (readQuoted reader quote memory (offset + 1) ('"' :: rest)).push '\\' 1
  | '\\' :: rest =>
      (readQuoted reader quote memory (offset + 1) rest).push '\\' 1
  | character :: rest =>
      if character = quote then
        match rest with
        | [] => ⟨[], 1, true, memory⟩
        | following :: after =>
            if following = quote then
              (readQuoted reader quote memory (offset + 2) after).push quote 2
            else ⟨[], 1, true, memory⟩
      else
        (readQuoted reader quote memory (offset + character.utf8Size) rest).push
          character 1

/--
A quoted string, or its text up to the end of the line when it is not closed.
-/
def quotePiece
    {σ : Type}
    (reader : LineReader σ)
    (memory : σ)
    (offset : Nat)
    (quote : Char)
    (rest : List Char) :
    Piece × σ :=
  let quoted := readQuoted reader quote memory (offset + 1) rest
  let content :=
    if quoted.closed then .token .string (String.ofList quoted.content)
    else .fault .openString
  (⟨quoted.taken, content⟩, quoted.memory)

/-- The characters that make up the first `width` bytes of a text. -/
def takeBytes
    (width : Nat) :
    List Char → List Char
  | [] => []
  | character :: rest =>
      if character.utf8Size ≤ width then
        character :: takeBytes (width - character.utf8Size) rest
      else []

/-- A path literal, or an opening bracket. -/
def bracketPiece
    {σ : Type}
    (reader : LineReader σ)
    (memory : σ)
    (offset : Nat)
    (rest : List Char) :
    Piece × σ :=
  match reader.pathEnd? memory offset ('[' :: rest) with
  | (some close, memory) =>
      let path := takeBytes (close - (offset + 1)) rest
      (⟨path.length + 1, .token .string (String.ofList path)⟩, memory)
  | (none, memory) => (⟨0, .token .leftBracket "["⟩, memory)

/-- The piece that begins with `first` at an offset. -/
def cutPiece
    {σ : Type}
    (reader : LineReader σ)
    (memory : σ)
    (before : List Char)
    (offset : Nat)
    (first : Char)
    (rest : List Char) :
    Piece × σ :=
  match Opening.of before first rest with
  | .space => (spacePiece rest, memory)
  | .lineComment => (lineCommentPiece rest, memory)
  | .blockComment => (blockCommentPiece rest, memory)
  | .starComment => (lineCommentPiece rest, memory)
  | .semicolon => (semicolonPiece rest, memory)
  | .quote => quotePiece reader memory offset first rest
  | .bracket => bracketPiece reader memory offset rest
  | .dot => (dotPiece rest, memory)
  | .digit => (numberPiece first rest, memory)
  | .scope => (scopePiece rest, memory)
  | .name => (namePiece first rest, memory)
  | .sign => (signPiece first rest, memory)

end Clipper.Lexeme
