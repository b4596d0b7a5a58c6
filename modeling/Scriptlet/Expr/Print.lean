import Scriptlet.Expr

/-! # Expressions as text

    An expression is written on one line: one blank around binary operators
    and between the expressions of a block, a comma and a blank between the
    items of a list.  Messages quote expressions in this form. -/

namespace Scriptlet.Expr

/-- Parameter names separated by commas, in front of `rest`. -/
def writeNames : List String → List Char → List Char
  | [], rest => rest
  | [p], rest => p.toList ++ rest
  | p :: q :: ps, rest => p.toList ++ ',' :: ' ' :: writeNames (q :: ps) rest

/-- What stands between a backslash and the body: nothing without
    parameters, else their names and a blank. -/
def writeParams (params : List String) (rest : List Char) : List Char :=
  if params = [] then rest else writeNames params (' ' :: rest)

mutual

/-- The text of an expression in front of `rest`. -/
def write : Expr → List Char → List Char
  | .literal value _, rest => value.write rest
  | .list items _, rest => '[' :: writeItems items (']' :: rest)
  | .symbol name _, rest => name.toList ++ rest
  | .define name value _, rest => name.toList ++ ' ' :: '=' :: ' ' :: value.write rest
  | .group inner _, rest => '(' :: inner.write (')' :: rest)
  | .unary op operand _, rest => op.spelling.toList ++ operand.write rest
  | .binary op lhs rhs _, rest =>
    lhs.write (' ' :: (op.spelling.toList ++ ' ' :: rhs.write rest))
  | .choice test yes no _, rest =>
    "if ".toList ++ test.write (" \x7b ".toList ++ writeSteps yes
      (" \x7d else \x7b ".toList ++ writeSteps no (" \x7d".toList ++ rest)))
  | .function params body _, rest =>
    '\\' :: writeParams params ("\x7b ".toList ++ writeSteps body (" \x7d".toList ++ rest))
  | .call callee args _, rest => callee.write ('(' :: writeItems args (')' :: rest))

/-- Expressions separated by commas, in front of `rest`. -/
def writeItems : List Expr → List Char → List Char
  | [], rest => rest
  | [e], rest => e.write rest
  | e :: f :: es, rest => e.write (',' :: ' ' :: writeItems (f :: es) rest)

/-- Expressions separated by blanks, in front of `rest`. -/
def writeSteps : List Expr → List Char → List Char
  | [], rest => rest
  | [e], rest => e.write rest
  | e :: f :: es, rest => e.write (' ' :: writeSteps (f :: es) rest)

end

/-- The text of an expression. -/
def text (e : Expr) : String :=
  String.ofList (e.write [])

end Scriptlet.Expr
