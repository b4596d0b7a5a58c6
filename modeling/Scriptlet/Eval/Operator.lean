import Scriptlet.Error
import Scriptlet.Expr.Print
import Scriptlet.Value

/-! # Operators on values

    What operators make of their operands.  `expr` is the whole expression;
    an error quotes it. -/

namespace Scriptlet

/-- What a unary operator makes of its operand: numbers are negated, truth
    values inverted. -/
def UnaryOp.apply (op : UnaryOp) (v : Value) (expr : Expr) (line : Nat) :
    Except RuntimeError Value :=
  match op, v with
  | .negate, .number x => .ok (.number (-x))
  | .not, .bool b => .ok (.bool !b)
  | _, _ => .error (.incompatibleTypes expr.text line)

namespace BinaryOp

/-- The truth value on the left that decides a logical operator alone. -/
def decidedBy? : BinaryOp → Option Bool
  | .and => some false
  | .or => some true
  | _ => none

/-- Arithmetic and comparison of two numbers. -/
def numeric? (op : BinaryOp) (x y : Float) : Option Value :=
  match op with
  | .add => some (.number (x + y))
  | .subtract => some (.number (x - y))
  | .multiply => some (.number (x * y))
  | .power => some (.number (x ^ y))
  | .less => some (.bool (x < y))
  | .greater => some (.bool (y < x))
  | .lessEqual => some (.bool (x ≤ y))
  | .greaterEqual => some (.bool (y ≤ x))
  | _ => none

/-- What a binary operator makes of its operands.  Any two values can be
    compared for equality; a quotient must be finite; the logical operators
    are no operations on values. -/
def apply (op : BinaryOp) (lhs rhs : Value) (expr : Expr) (line : Nat) :
    Except RuntimeError Value :=
  match op, lhs, rhs with
  | .equal, l, r => .ok (.bool (l.equal r))
  | .notEqual, l, r => .ok (.bool !(l.equal r))
  | .concat, .string l, .string r => .ok (.string (l ++ r))
  | .cons, item, .list items => .ok (.list (items.cons item))
  | .divide, .number x, .number y =>
    if (x / y).isFinite then .ok (.number (x / y)) else .error (.divisionByZero expr.text line)
  | op, .number x, .number y =>
    match op.numeric? x y with
    | some v => .ok v
    | none => .error (.incompatibleTypes expr.text line)
  | _, _, _ => .error (.incompatibleTypes expr.text line)

end BinaryOp

end Scriptlet
