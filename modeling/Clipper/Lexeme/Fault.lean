import Clipper.Source.Span
/-!
# Lexical faults

The reasons why a piece of text is no token, with their wording.

A fault belongs to the one piece of text that it was found in, and its span is
the span of this piece.  A message may quote the piece or a part of it, such
as the word between two dots that is not a word of the language.
-/

namespace Clipper

/-- Why a piece of text is no token of the language. -/
inductive Fault where
  /-- A character that begins nothing. -/
  | strayCharacter
  /-- A quoted string whose line ends before it does. -/
  | openString
  /-- A block comment that runs to the end of the text. -/
  | openComment
  /-- A word between two dots that means nothing. -/
  | unknownDotWord (word : String)
  /-- A dot without a second dot on its line. -/
  | loneDot
  /-- Two colons without a name after them. -/
  | namelessScope
deriving DecidableEq

namespace Fault

/-- The wording of a fault. -/
def message : Fault → String
  | strayCharacter => "unexpected character"
  | openString => "unterminated string literal"
  | openComment => "unterminated block comment"
  | unknownDotWord word => "unknown dot keyword '" ++ word ++ "'"
  | loneDot => "missing closing '.'"
  | namelessScope => "expected a name after '::'"

/-- The wording of a fault at a span, with the offset of its beginning. -/
def messageAt
    (fault : Fault)
    (span : Span) :
    String :=
  fault.message ++ " at " ++ toString span.start

end Fault

end Clipper
