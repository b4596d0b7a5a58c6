import Scriptlet.Literal
import Scriptlet.Operator

/-! # Expressions

    Source code as a tree.  Every node keeps the line of the token that
    names its construct. -/

namespace Scriptlet

/-- An expression. -/
inductive Expr where
  | literal (value : Literal) (line : Nat)
  | list (items : List Expr) (line : Nat)
  | symbol (name : String) (line : Nat)
  | define (name : String) (value : Expr) (line : Nat)
  | group (inner : Expr) (line : Nat)
  | unary (op : UnaryOp) (operand : Expr) (line : Nat)
  | binary (op : BinaryOp) (lhs rhs : Expr) (line : Nat)
  | choice (test : Expr) (yes no : List Expr) (line : Nat)
  | function (params : List String) (body : List Expr) (line : Nat)
  | call (callee : Expr) (args : List Expr) (line : Nat)

/-- A source unit: expressions evaluated in order. -/
abbrev Program := List Expr

namespace Expr

/-- The line of an expression. -/
def line : Expr → Nat
  | .literal _ n | .list _ n | .symbol _ n | .define _ _ n | .group _ n | .unary _ _ n
  | .binary _ _ _ n | .choice _ _ _ n | .function _ _ n | .call _ _ n => n

mutual

/-- Equality of expressions, lines included; literals compare as values. -/
def same : Expr → Expr → Bool
  | .literal a m, .literal b n => a.same b && m == n
  | .list xs m, .list ys n => sameAll xs ys && m == n
  | .symbol s m, .symbol t n => s == t && m == n
  | .define s a m, .define t b n => s == t && a.same b && m == n
  | .group a m, .group b n => a.same b && m == n
  | .unary o a m, .unary p b n => o == p && a.same b && m == n
  | .binary o a b m, .binary p c d n => o == p && a.same c && b.same d && m == n
  | .choice a xs ys m, .choice b us vs n =>
    a.same b && sameAll xs us && sameAll ys vs && m == n
  | .function ps xs m, .function qs ys n => ps == qs && sameAll xs ys && m == n
  | .call a xs m, .call b ys n => a.same b && sameAll xs ys && m == n
  | _, _ => false

/-- Equality of sequences of expressions. -/
def sameAll : List Expr → List Expr → Bool
  | [], [] => true
  | a :: as, b :: bs => a.same b && sameAll as bs
  | _, _ => false

end

end Expr

end Scriptlet
