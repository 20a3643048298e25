import Clipper.Token.Kind
/-!
# Operators

The prefix, binary and updating operators of the language, with their spellings
and the levels at which the binary ones bind.

A higher level binds more tightly: the six levels go from the disjunction at
the bottom to multiplication and division at the top.  Kinds of tokens and
operators are kept apart, since a sign such as the minus is the token of a
prefix operator and of a binary one.
-/

namespace Clipper

/-- The operators between two operands. -/
inductive BinaryOperator where
  | add
  | subtract
  | multiply
  | divide
  | modulo
  | equal
  | exactlyEqual
  | notEqual
  | less
  | lessEqual
  | greater
  | greaterEqual
  | contains
  | and
  | or
deriving DecidableEq

namespace BinaryOperator

/-- The operator that a token stands for between two operands. -/
def ofKind? : TokenKind → Option BinaryOperator
  | .plus => some add
  | .minus => some subtract
  | .star => some multiply
  | .slash => some divide
  | .percent => some modulo
  | .equal => some equal
  | .exactlyEqual => some exactlyEqual
  | .notEqual => some notEqual
  | .less => some less
  | .lessEqual => some lessEqual
  | .greater => some greater
  | .greaterEqual => some greaterEqual
  | .dollar => some contains
  | .and => some and
  | .or => some or
  | _ => none

/-- The level of an operator, from one to six; a higher level binds tighter. -/
def level : BinaryOperator → Nat
  | or => 1
  | and => 2
  | equal | exactlyEqual | notEqual => 3
  | less | lessEqual | greater | greaterEqual | contains => 4
  | add | subtract => 5
  | multiply | divide | modulo => 6

/-- The spelling of an operator. -/
def spelling : BinaryOperator → String
  | add => "+"
  | subtract => "-"
  | multiply => "*"
  | divide => "/"
  | modulo => "%"
  | equal => "="
  | exactlyEqual => "=="
  | notEqual => "!="
  | less => "<"
  | lessEqual => "<="
  | greater => ">"
  | greaterEqual => ">="
  | contains => "$"
  | and => ".and."
  | or => ".or."

/-- The name of an operator in outlines and records. -/
def name : BinaryOperator → String
  | add => "Add"
  | subtract => "Sub"
  | multiply => "Mul"
  | divide => "Div"
  | modulo => "Mod"
  | equal => "Eq"
  | exactlyEqual => "ExactEq"
  | notEqual => "Ne"
  | less => "Lt"
  | lessEqual => "Le"
  | greater => "Gt"
  | greaterEqual => "Ge"
  | contains => "Contains"
  | and => "And"
  | or => "Or"

end BinaryOperator

/-- The operators before an operand. -/
inductive UnaryOperator where
  | negate
  | plus
  | not
deriving DecidableEq

namespace UnaryOperator

/-- The operator that a token stands for before an operand. -/
def ofKind? : TokenKind → Option UnaryOperator
  | .minus => some negate
  | .plus => some plus
  | .not => some not
  | _ => none

/-- The spelling of an operator. -/
def spelling : UnaryOperator → String
  | negate => "-"
  | plus => "+"
  | not => "!"

/-- The name of an operator in outlines and records. -/
def name : UnaryOperator → String
  | negate => "Neg"
  | plus => "Plus"
  | not => "Not"

end UnaryOperator

/-- The operators of an assignment that updates its target. -/
inductive UpdateOperator where
  | add
  | subtract
  | multiply
  | divide
deriving DecidableEq

namespace UpdateOperator

/-- The updating operator that a token stands for. -/
def ofKind? : TokenKind → Option UpdateOperator
  | .plusEqual => some add
  | .minusEqual => some subtract
  | .starEqual => some multiply
  | .slashEqual => some divide
  | _ => none

/-- The spelling of an operator. -/
def spelling : UpdateOperator → String
  | add => "+="
  | subtract => "-="
  | multiply => "*="
  | divide => "/="

/-- The name of an operator in records. -/
def name : UpdateOperator → String
  | add => "Add"
  | subtract => "Sub"
  | multiply => "Mul"
  | divide => "Div"

end UpdateOperator

end Clipper
