import Scriptlet.Builtin
import Scriptlet.Env
import Scriptlet.Expr
import Scriptlet.Items

/-! # Values

    What expressions come to.  A closure keeps the environment it was made
    in and an identity that tells it from every other closure, also from one
    made by the same source text. -/

namespace Scriptlet

/-- A function of the program: parameters, body, the environment it was made
    in, and the name it was defined under, through which it can call
    itself. -/
structure Closure (α : Type) where
  identity : Nat
  params : List String
  body : List Expr
  scope : Env α
  selfName? : Option String

/-- What can be called. -/
inductive Callable (α : Type) where
  | builtin (b : Builtin)
  | closure (c : Closure α)

/-- A value of the language. -/
inductive Value where
  | nil
  | bool (b : Bool)
  | number (x : Float)
  | string (s : String)
  | list (items : Items Value)
  | function (f : Callable Value)

instance : Inhabited Value := ⟨.nil⟩

/-- The number of arguments a function takes. -/
def Callable.arity : Callable Value → Nat
  | .builtin b => b.arity
  | .closure c => c.params.length

/-- Whether two functions are the same one. -/
def Callable.isSame : Callable Value → Callable Value → Bool
  | .builtin a, .builtin b => a == b
  | .closure a, .closure b => a.identity == b.identity
  | _, _ => false

namespace Value

/-- The list of the given values. -/
def ofList (vs : List Value) : Value :=
  .list (.ofList vs)

/-- The value of a literal. -/
def ofLiteral : Literal → Value
  | .nil => .nil
  | .bool b => .bool b
  | .number x => .number x
  | .string s => .string s

/-- The word for a value's type. -/
def typeName : Value → String
  | .nil => "nil"
  | .bool _ => "bool"
  | .number _ => "number"
  | .string _ => "string"
  | .list _ => "list"
  | .function _ => "function"

/-- The number a value is. -/
def number? : Value → Option Float
  | .number x => some x
  | _ => none

/-- The truth value a value is. -/
def bool? : Value → Option Bool
  | .bool b => some b
  | _ => none

/-- The string a value is. -/
def string? : Value → Option String
  | .string s => some s
  | _ => none

/-- The list a value is. -/
def list? : Value → Option (Items Value)
  | .list items => some items
  | _ => none

/-- The function a value is. -/
def function? : Value → Option (Callable Value)
  | .function f => some f
  | _ => none

mutual

/-- Equality of values.  Values of different types differ; numbers compare
    as numbers, lists item by item, functions by identity. -/
def equal : Value → Value → Bool
  | .nil, .nil => true
  | .bool a, .bool b => a == b
  | .number x, .number y => x == y
  | .string s, .string t => s == t
  | .list ⟨xs, m⟩, .list ⟨ys, n⟩ => m == n && equalItems xs ys
  | .function f, .function g => f.isSame g
  | _, _ => false

/-- Equality item by item, as far as both lists reach. -/
def equalItems : List Value → List Value → Bool
  | x :: xs, y :: ys => x.equal y && equalItems xs ys
  | _, _ => true

end

end Value

/-- The frame of the builtins, `pi` among them. -/
def builtinFrame : Frame Value :=
  ⟨("pi", .number 3.141592653589793)
    :: Builtin.all.map fun b => (b.name, .function (.builtin b))⟩

end Scriptlet
