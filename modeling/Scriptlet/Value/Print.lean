import Scriptlet.Number.Write
import Scriptlet.Text.Quoted
import Scriptlet.Text.Shown
import Scriptlet.Value

/-! # Values as text

    Strings are quoted, lists stand in brackets, functions show only how many
    arguments they take and, for a builtin, its name. -/

namespace Scriptlet

/-- The text of a function. -/
def Callable.text : Callable Value → String
  | .builtin b => "<builtin " ++ b.name ++ "/" ++ toString b.arity ++ ">"
  | .closure c => "<function/" ++ toString c.params.length ++ ">"

namespace Value

mutual

/-- The text of a value in front of `rest`. -/
def write : Value → List Char → List Char
  | .nil, rest => "nil".toList ++ rest
  | .bool true, rest => "true".toList ++ rest
  | .bool false, rest => "false".toList ++ rest
  | .number x, rest => Number.chars x ++ rest
  | .string s, rest => Text.quoteOnto s rest
  | .list ⟨items, _⟩, rest => '[' :: writeItems items (']' :: rest)
  | .function f, rest => f.text.toList ++ rest

/-- Values separated by commas, in front of `rest`. -/
def writeItems : List Value → List Char → List Char
  | [], rest => rest
  | [v], rest => v.write rest
  | v :: w :: vs, rest => v.write (',' :: ' ' :: writeItems (w :: vs) rest)

end

/-- The text of a value. -/
def text (v : Value) : String :=
  String.ofList (v.write [])

/-- The text of a value for output: a string stands for itself. -/
def plainText : Value → String
  | .string s => s
  | v => v.text

/-- A number shown for inspection: a whole one with a fraction. -/
def showNumber (x : Float) : List Char :=
  let cs := Number.chars x
  if x.isFinite ∧ '.' ∉ cs then cs ++ ['.', '0'] else cs

mutual

/-- A value shown for inspection, its type named, in front of `rest`. -/
def showOnto : Value → List Char → List Char
  | .nil, rest => "Nil".toList ++ rest
  | .bool true, rest => "Bool(true)".toList ++ rest
  | .bool false, rest => "Bool(false)".toList ++ rest
  | .number x, rest => "Number(".toList ++ showNumber x ++ ')' :: rest
  | .string s, rest => "String(".toList ++ (Text.shown s).toList ++ ')' :: rest
  | .list ⟨items, _⟩, rest => "List([".toList ++ showItems items (']' :: ')' :: rest)
  | .function f, rest => "Function(".toList ++ f.text.toList ++ ')' :: rest

/-- Values shown for inspection, separated by commas, in front of `rest`. -/
def showItems : List Value → List Char → List Char
  | [], rest => rest
  | [v], rest => v.showOnto rest
  | v :: w :: vs, rest => v.showOnto (',' :: ' ' :: showItems (w :: vs) rest)

end

/-- A list of values shown for inspection. -/
def showList (items : Items Value) : String :=
  String.ofList ('[' :: showItems items.toList [']'])

end Value

end Scriptlet
