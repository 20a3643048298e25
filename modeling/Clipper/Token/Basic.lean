import Clipper.Source.Span
import Clipper.Token.Kind
/-!
# Tokens

A token is a kind, the span it covers and its text.  For strings the text is the
decoded content; for a piece that is no token it is the raw text.

The end-of-file token has an empty text and stands at the end of its text with
an empty span.  Tokens handed in from elsewhere may be any list: the reader of
programs makes no assumption about their spans, their order or their texts.
-/

namespace Clipper

/-- One token. -/
structure Token where
  kind : TokenKind
  span : Span
  lexeme : String
deriving DecidableEq, Inhabited

/-- The token at the end of a text whose end is at `offset`. -/
def Token.endOfFile (offset : Nat) : Token :=
  ⟨.endOfFile, Span.empty offset, ""⟩

end Clipper
