import Scriptlet.Number.Write
import Scriptlet.Text.Quoted

/-! # Literals

    The constants that a source text can spell. -/

namespace Scriptlet

/-- A constant of the language. -/
inductive Literal where
  | nil
  | bool (b : Bool)
  | number (x : Float)
  | string (s : String)

namespace Literal

/-- The text of a literal in front of `rest`: strings are quoted. -/
def write : Literal → List Char → List Char
  | .nil, rest => 'n' :: 'i' :: 'l' :: rest
  | .bool true, rest => "true".toList ++ rest
  | .bool false, rest => "false".toList ++ rest
  | .number x, rest => Number.chars x ++ rest
  | .string s, rest => Text.quoteOnto s rest

/-- The text of a literal. -/
def text (l : Literal) : String :=
  String.ofList (l.write [])

/-- Equality of literals; numbers compare as numbers, so a NaN differs from
    itself and the two zeros agree. -/
def same : Literal → Literal → Bool
  | .nil, .nil => true
  | .bool a, .bool b => a == b
  | .number x, .number y => x == y
  | .string s, .string t => s == t
  | _, _ => false

end Literal

end Scriptlet
