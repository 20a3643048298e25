/-!
# Kinds of tokens

The words, literals, operators and delimiters of the language, the end of the
text and the kind of a piece that is no token of the language.  Beside the kinds
stand the groups that the grammar asks about: words, closers of compound
statements, and literals.

Every kind has a name, which is shown when tokens are printed, and a wording
for messages.  The one sign that can be written in more than one way has a
common spelling, which is the text of its tokens.
-/

namespace Clipper

/-- What a token is. -/
inductive TokenKind where
  | ifWord
  | thenWord
  | elseWord
  | elseIf
  | endIf
  | whileWord
  | doWord
  | endDo
  | returnWord
  | function
  | procedure
  | endFunction
  | endProcedure
  | localWord
  | static
  | forWord
  | toWord
  | step
  | next
  | nil
  | exit
  | loop
  | and
  | or
  | not
  | number
  | string
  | yes
  | no
  | identifier
  | plus
  | minus
  | star
  | slash
  | percent
  | plusEqual
  | minusEqual
  | starEqual
  | slashEqual
  | assign
  | equal
  | exactlyEqual
  | notEqual
  | less
  | lessEqual
  | greater
  | greaterEqual
  | dollar
  | arrow
  | colon
  | atSign
  | question
  | doubleQuestion
  | bar
  | leftParenthesis
  | rightParenthesis
  | leftBrace
  | rightBrace
  | leftBracket
  | rightBracket
  | comma
  | semicolon
  | endOfFile
  | error
deriving DecidableEq, Inhabited

namespace TokenKind

/-- The name of a kind in token listings and records. -/
def name : TokenKind → String
  | ifWord => "If"
  | thenWord => "Then"
  | elseWord => "Else"
  | elseIf => "ElseIf"
  | endIf => "EndIf"
  | whileWord => "While"
  | doWord => "Do"
  | endDo => "EndDo"
  | returnWord => "Return"
  | function => "Function"
  | procedure => "Procedure"
  | endFunction => "EndFunction"
  | endProcedure => "EndProc"
  | localWord => "Local"
  | static => "Static"
  | forWord => "For"
  | toWord => "To"
  | step => "Step"
  | next => "Next"
  | nil => "Nil"
  | exit => "Exit"
  | loop => "Loop"
  | and => "And"
  | or => "Or"
  | not => "Not"
  | number => "Number"
  | string => "String"
  | yes => "True"
  | no => "False"
  | identifier => "Ident"
  | plus => "Plus"
  | minus => "Minus"
  | star => "Star"
  | slash => "Slash"
  | percent => "Percent"
  | plusEqual => "PlusEq"
  | minusEqual => "MinusEq"
  | starEqual => "StarEq"
  | slashEqual => "SlashEq"
  | assign => "Assign"
  | equal => "Eq"
  | exactlyEqual => "EqEq"
  | notEqual => "NotEq"
  | less => "Lt"
  | lessEqual => "LtEq"
  | greater => "Gt"
  | greaterEqual => "GtEq"
  | dollar => "Dollar"
  | arrow => "Arrow"
  | colon => "Colon"
  | atSign => "At"
  | question => "Question"
  | doubleQuestion => "DoubleQuestion"
  | bar => "Pipe"
  | leftParenthesis => "LParen"
  | rightParenthesis => "RParen"
  | leftBrace => "LBrace"
  | rightBrace => "RBrace"
  | leftBracket => "LBracket"
  | rightBracket => "RBracket"
  | comma => "Comma"
  | semicolon => "Semicolon"
  | endOfFile => "Eof"
  | error => "Error"

/-- The wording for a kind inside a message to the user. -/
def wording : TokenKind → String
  | ifWord => "IF"
  | thenWord => "THEN"
  | elseWord => "ELSE"
  | elseIf => "ELSEIF"
  | endIf => "ENDIF"
  | whileWord => "WHILE"
  | doWord => "DO"
  | endDo => "ENDDO"
  | returnWord => "RETURN"
  | function => "FUNCTION"
  | procedure => "PROCEDURE"
  | endFunction => "ENDFUNCTION"
  | endProcedure => "ENDPROC"
  | localWord => "LOCAL"
  | static => "STATIC"
  | forWord => "FOR"
  | toWord => "TO"
  | step => "STEP"
  | next => "NEXT"
  | nil => "NIL"
  | exit => "EXIT"
  | loop => "LOOP"
  | and => "AND"
  | or => "OR"
  | not => "NOT"
  | number => "number"
  | string => "string"
  | yes => ".T."
  | no => ".F."
  | identifier => "identifier"
  | plus => "'+'"
  | minus => "'-'"
  | star => "'*'"
  | slash => "'/'"
  | percent => "'%'"
  | plusEqual => "'+='"
  | minusEqual => "'-='"
  | starEqual => "'*='"
  | slashEqual => "'/='"
  | assign => "':='"
  | equal => "'='"
  | exactlyEqual => "'=='"
  | notEqual => "'!='"
  | less => "'<'"
  | lessEqual => "'<='"
  | greater => "'>'"
  | greaterEqual => "'>='"
  | dollar => "'$'"
  | arrow => "'->'"
  | colon => "':'"
  | atSign => "'@'"
  | question => "'?'"
  | doubleQuestion => "'??'"
  | bar => "'|'"
  | leftParenthesis => "'('"
  | rightParenthesis => "')'"
  | leftBrace => "'\x7b'"
  | rightBrace => "'\x7d'"
  | leftBracket => "'['"
  | rightBracket => "']'"
  | comma => "','"
  | semicolon => "';'"
  | endOfFile => "end of file"
  | error => "invalid token"

/-- The kinds that are reserved words. -/
def isWord : TokenKind → Bool
  | ifWord | thenWord | elseWord | elseIf | endIf | whileWord | doWord | endDo
  | returnWord | function | procedure | endFunction | endProcedure | localWord
  | static | forWord | toWord | step | next | nil | exit | loop | and | or
  | not => true
  | _ => false

/-- The kinds that close a compound statement, or one of its parts. -/
def isCloser : TokenKind → Bool
  | endIf | elseWord | elseIf | endDo | next | endFunction | endProcedure =>
      true
  | _ => false

/-- The kinds that are literals. -/
def isLiteral : TokenKind → Bool
  | number | string | yes | no | nil => true
  | _ => false

/-- The one spelling that stands for a kind with several spellings. -/
def commonSpelling? : TokenKind → Option String
  | notEqual => some "!="
  | _ => none

/-- Every kind, in the order of declaration. -/
def all : List TokenKind :=
  [ifWord, thenWord, elseWord, elseIf, endIf, whileWord, doWord, endDo,
    returnWord, function, procedure, endFunction, endProcedure, localWord,
    static, forWord, toWord, step, next, nil, exit, loop, and, or, not, number,
    string, yes, no, identifier, plus, minus, star, slash, percent, plusEqual,
    minusEqual, starEqual, slashEqual, assign, equal, exactlyEqual, notEqual,
    less, lessEqual, greater, greaterEqual, dollar, arrow, colon, atSign,
    question, doubleQuestion, bar, leftParenthesis, rightParenthesis, leftBrace,
    rightBrace, leftBracket, rightBracket, comma, semicolon, endOfFile, error]

/-- Reads the name of a kind. -/
def ofName? (name : String) : Option TokenKind :=
  all.find? (·.name == name)

end TokenKind

end Clipper
