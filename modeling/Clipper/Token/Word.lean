import Clipper.Source.Text
import Clipper.Token.Kind
/-!
# Reserved words

Two tables: the reserved words, and the words that stand between two dots
(`.and.`, `.T.`).  Both are read without regard to the case of ASCII letters.

The same kind may have an entry in both tables, as the logical operators do.
A word that is in no table is an identifier, and a word between dots that is
not in the second table is a fault.
-/

namespace Clipper.Word

/-- The reserved words in lower case. -/
def reserved : List (String × TokenKind) :=
  [("if", .ifWord), ("then", .thenWord), ("else", .elseWord),
    ("elseif", .elseIf), ("endif", .endIf), ("while", .whileWord),
    ("do", .doWord), ("enddo", .endDo), ("return", .returnWord),
    ("function", .function), ("procedure", .procedure),
    ("endfunction", .endFunction), ("endproc", .endProcedure),
    ("local", .localWord), ("static", .static), ("for", .forWord),
    ("to", .toWord), ("step", .step), ("next", .next), ("nil", .nil),
    ("exit", .exit), ("loop", .loop), ("and", .and), ("or", .or), ("not", .not)]

/-- The words between dots in lower case; yes and no have two spellings each. -/
def dotted : List (String × TokenKind) :=
  [("and", .and), ("or", .or), ("not", .not), ("t", .yes), ("y", .yes),
    ("f", .no), ("n", .no)]

/-- The kind of a reserved word. -/
def reserved? (word : String) : Option TokenKind :=
  reserved.lookup (Source.lowerCase word)

/-- The kind of the word between two dots. -/
def dotted? (word : String) : Option TokenKind :=
  dotted.lookup (Source.lowerCase word)

end Clipper.Word
