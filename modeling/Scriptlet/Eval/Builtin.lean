import Scriptlet.Eval.Store
import Scriptlet.Number.Read
import Scriptlet.Value.Print

/-! # What builtins do

    Each builtin on arguments of any number and type.  A call checks the
    number first, so that a complaint about it shows only when a builtin is
    used in another way.

    `map` and `filter` call a function of one argument on every item.  They
    take two arguments themselves and so never call each other back: the
    functions they call are closures, entered by `enter`, and builtins that
    call nothing (`Builtin.plain`). -/

namespace Scriptlet

/-- How a closure is entered: with arguments, from a line. -/
abbrev Enter := Closure Value → List Value → Nat → Eval Value

namespace Builtin

/-- The arguments break the rules of a builtin. -/
def violation {α : Type} (b : Builtin) (details : String) (line : Nat) : Eval α :=
  .fail (.contractViolation b.name details line)

/-- A value of another type was expected. -/
def expected {α : Type} (b : Builtin) (what : String) (found : Value) (line : Nat) : Eval α :=
  b.violation ("expected " ++ what ++ ", found " ++ found.typeName) line

/-- Prints values one after the other. -/
def printAll : List Value → Eval Unit
  | [] => pure ()
  | v :: vs => do
    Eval.ask (.print v.plainText)
    printAll vs

/-- A function of one number. -/
def real (b : Builtin) (f : Float → Float) (args : List Value) (line : Nat) : Eval Value :=
  match args with
  | [.number x] => pure (.number (f x))
  | [other] => b.expected "a number" other line
  | _ => b.violation "expected one argument" line

/-- A part of a list that has items. -/
def ofItems (b : Builtin) (part? : Items Value → Option Value) (args : List Value) (line : Nat) :
    Eval Value :=
  match args with
  | [.list items] =>
    if items.isEmpty then b.violation "the list is empty" line
    else match part? items with
      | some v => pure v
      | none => b.violation "the list is empty" line
  | [other] => b.expected "a list" other line
  | _ => b.violation "expected one argument" line

/-- The numbers from 0 up to, and without, the whole part of `x`. -/
def countTo (x : Float) : List Value :=
  if x.isFinite ∧ 0 < x then
    (List.range x.toUInt64.toNat).map fun i => .number (Float.ofNat i)
  else []

/-- What is wrong with a clock that is set to a time before 1970. -/
def clockTooEarly : String := "second time provided was later than self"

/-- What a builtin does when it calls no function back. -/
def plain (b : Builtin) (args : List Value) (line : Nat) : Eval Value :=
  match b with
  | .print => do
    printAll args
    pure .nil
  | .println => do
    printAll args
    Eval.ask (.print "\n")
    pure .nil
  | .input => do
    let text ← Eval.ask .readLine
    pure (.string text)
  | .epoch => do
    let milliseconds ← Eval.ask .clock
    if milliseconds < 0 then b.violation clockTooEarly line
    else pure (.number (Float.ofNat milliseconds.toNat / 1000.0))
  | .random => do
    let x ← Eval.randomNumber
    pure (.number x)
  | .toString =>
    match args with
    | [v] => pure (.string v.plainText)
    | _ => b.violation "expected one argument" line
  | .parseNumber =>
    match args with
    | [.string s] => pure (((Number.readTrimmed? s).map Value.number).getD .nil)
    | [other] => b.expected "a string" other line
    | _ => b.violation "expected one argument" line
  | .exp => b.real Float.exp args line
  | .sin => b.real Float.sin args line
  | .cos => b.real Float.cos args line
  | .first => b.ofItems (·.first?) args line
  | .rest => b.ofItems (fun items => items.rest?.map Value.list) args line
  | .length =>
    match args with
    | [.list items] => pure (.number (Float.ofNat items.size))
    | [other] => b.expected "a list" other line
    | _ => b.violation "expected one argument" line
  | .iota =>
    match args with
    | [.number x] => pure (.ofList (countTo x))
    | [other] => b.expected "a number" other line
    | _ => b.violation "expected one argument" line
  | .map | .filter =>
    match args with
    | [.function _, other] => b.expected "a list" other line
    | [other, _] => b.expected "a function" other line
    | _ => b.violation "expected two arguments" line

/-- Calls a function of one argument on every item, in order. -/
def mapItems (f : Value → Eval Value) : List Value → Eval (List Value)
  | [] => pure []
  | v :: vs => do
    let w ← f v
    let ws ← mapItems f vs
    pure (w :: ws)

/-- Keeps the items on which a function of one argument says true. -/
def filterItems (f : Value → Eval Value) (line : Nat) : List Value → Eval (List Value)
  | [] => pure []
  | v :: vs => do
    let answer ← f v
    match answer with
    | .bool keep =>
      let kept ← filterItems f line vs
      pure (if keep then v :: kept else kept)
    | other => Builtin.filter.expected "a boolean from the predicate" other line

/-- Calls a function with one argument. -/
def callOne (enter : Enter) (f : Callable Value) (line : Nat) (v : Value) : Eval Value :=
  match f with
  | .builtin b => b.plain [v] line
  | .closure c => enter c [v] line

/-- What a builtin does. -/
def call (enter : Enter) (b : Builtin) (args : List Value) (line : Nat) : Eval Value :=
  match b, args with
  | .map, [.function f, .list items] =>
    if f.arity = 1 then do
      let vs ← mapItems (callOne enter f line) items.toList
      pure (.ofList vs)
    else
      b.violation ("expected a function of one argument, found " ++ f.text) line
  | .filter, [.function f, .list items] =>
    if f.arity = 1 then do
      let vs ← filterItems (callOne enter f line) line items.toList
      pure (.ofList vs)
    else
      b.violation ("expected a function of one argument, found " ++ f.text) line
  | b, args => b.plain args line

end Builtin

end Scriptlet
