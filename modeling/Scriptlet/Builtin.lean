/-! # Builtin functions

    The functions every program can use without defining them. -/

namespace Scriptlet

/-- A builtin function. -/
inductive Builtin where
  | print
  | println
  | input
  | epoch
  | random
  | toString
  | parseNumber
  | exp
  | sin
  | cos
  | first
  | rest
  | length
  | iota
  | map
  | filter
  deriving Repr, DecidableEq

namespace Builtin

/-- The symbol a builtin is bound to. -/
def name : Builtin → String
  | .print => "print"
  | .println => "println"
  | .input => "input"
  | .epoch => "epoch"
  | .random => "random"
  | .toString => "to_string"
  | .parseNumber => "parse_number"
  | .exp => "exp"
  | .sin => "sin"
  | .cos => "cos"
  | .first => "first"
  | .rest => "rest"
  | .length => "length"
  | .iota => "iota"
  | .map => "map"
  | .filter => "filter"

/-- The number of arguments a builtin takes. -/
def arity : Builtin → Nat
  | .input | .epoch | .random => 0
  | .map | .filter => 2
  | _ => 1

/-- Every builtin, in the order in which they are listed to users. -/
def all : List Builtin :=
  [.print, .println, .input, .epoch, .random, .toString, .parseNumber, .exp, .sin, .cos,
   .first, .rest, .length, .iota, .map, .filter]

/-- The builtin with a name. -/
def ofName? (name : String) : Option Builtin :=
  all.find? (·.name == name)

end Builtin

end Scriptlet
