/-! # Operators

    The unary and binary operators, how they are spelled and how tightly the
    binary ones bind. -/

namespace Scriptlet

/-- An operator in front of its operand. -/
inductive UnaryOp where
  | negate
  | not
  deriving Repr, DecidableEq

/-- An operator between its operands. -/
inductive BinaryOp where
  | and
  | or
  | equal
  | notEqual
  | less
  | greater
  | lessEqual
  | greaterEqual
  | cons
  | concat
  | add
  | subtract
  | multiply
  | divide
  | power
  deriving Repr, DecidableEq

/-- How a unary operator is written, up to its operand. -/
def UnaryOp.spelling : UnaryOp → String
  | .negate => "-"
  | .not => "not "

namespace BinaryOp

/-- How a binary operator is spelled. -/
def spelling : BinaryOp → String
  | .and => "and"
  | .or => "or"
  | .equal => "=="
  | .notEqual => "/="
  | .less => "<"
  | .greater => ">"
  | .lessEqual => "<="
  | .greaterEqual => ">="
  | .cons => ":"
  | .concat => ".."
  | .add => "+"
  | .subtract => "-"
  | .multiply => "*"
  | .divide => "/"
  | .power => "^"

/-- How tightly an operator binds: a higher level binds tighter. -/
def level : BinaryOp → Nat
  | .and | .or => 1
  | .equal | .notEqual => 2
  | .less | .greater | .lessEqual | .greaterEqual => 3
  | .cons => 4
  | .concat => 5
  | .add | .subtract => 6
  | .multiply | .divide => 7
  | .power => 8

/-- Whether a chain of the operator groups from the right. -/
def groupsRight : BinaryOp → Bool
  | .cons => true
  | _ => false

/-- Every binary operator. -/
def all : List BinaryOp :=
  [.and, .or, .equal, .notEqual, .less, .greater, .lessEqual, .greaterEqual, .cons,
   .concat, .add, .subtract, .multiply, .divide, .power]

/-- The operator with a spelling. -/
def ofSpelling? (s : String) : Option BinaryOp :=
  all.find? (·.spelling == s)

end BinaryOp

end Scriptlet
