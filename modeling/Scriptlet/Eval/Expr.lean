import Scriptlet.Eval.Builtin
import Scriptlet.Eval.Operator

/-! # Evaluating expressions

    An expression is evaluated by structure.  What a call of a closure does
    is left to `enter`, which `Closure.enter` supplies: closures call
    closures, so it recurs on the number of calls still allowed. -/

namespace Scriptlet

/-- Calls a function after checking the number of its arguments. -/
def Callable.call (enter : Enter) (f : Callable Value) (args : List Value) (line : Nat) :
    Eval Value :=
  if f.arity ≠ args.length then .fail (.argumentCount f.text f.arity args.length line)
  else match f with
    | .builtin b => b.call enter args line
    | .closure c => enter c args line

namespace Expr

mutual

/-- The value of an expression. -/
def eval (enter : Enter) : Expr → Eval Value
  | .literal value _ => pure (.ofLiteral value)
  | .list items _ => do
    let vs ← evalAll enter items
    pure (.ofList vs)
  | .symbol name line => Eval.lookup name line
  | .define name value _ => do
    let v ← match value with
      | .function params body _ => Eval.close params body (some name)
      | _ => eval enter value
    Eval.define name v
    pure v
  | .group inner _ => eval enter inner
  | .unary op operand line => do
    let v ← eval enter operand
    Eval.ofExcept (op.apply v (.unary op operand line) line)
  | .binary op lhs rhs line => do
    let l ← eval enter lhs
    match op.decidedBy?, l with
    | none, l =>
      let r ← eval enter rhs
      Eval.ofExcept (op.apply l r (.binary op lhs rhs line) line)
    | some decisive, .bool b =>
      if b = decisive then pure (.bool b)
      else
        let r ← eval enter rhs
        match r with
        | .bool c => pure (.bool c)
        | _ => .fail (.incompatibleTypes (Expr.binary op lhs rhs line).text line)
    | some _, _ => .fail (.incompatibleTypes (Expr.binary op lhs rhs line).text line)
  | .choice test yes no line => do
    let v ← eval enter test
    match v with
    | .bool true => Eval.inFrame (evalSteps enter yes)
    | .bool false => Eval.inFrame (evalSteps enter no)
    | _ => .fail (.incompatibleTypes test.text line)
  | .function params body _ => Eval.close params body none
  | .call callee args line => do
    let v ← eval enter callee
    match v with
    | .function f =>
      if f.arity ≠ args.length then
        .fail (.argumentCount (Expr.call callee args line).text f.arity args.length line)
      else
        let vs ← evalAll enter args
        f.call enter vs line
    | _ => .fail (.uncallableValue callee.text line)

/-- The values of expressions, from left to right. -/
def evalAll (enter : Enter) : List Expr → Eval (List Value)
  | [] => pure []
  | e :: es => do
    let v ← eval enter e
    let vs ← evalAll enter es
    pure (v :: vs)

/-- The value of the last of several expressions; nil without any. -/
def evalSteps (enter : Enter) : List Expr → Eval Value
  | [] => pure .nil
  | [e] => eval enter e
  | e :: f :: es => do
    let _ ← eval enter e
    evalSteps enter (f :: es)

end

end Expr

/-- The environment of a call: a frame over the closure's own environment
    that holds the closure's name and then the parameters, so that a
    parameter hides the name and a later parameter an earlier one. -/
def Closure.callEnv (c : Closure Value) (args : List Value) : Env Value :=
  let env := c.scope.push
  let env := match c.selfName? with
    | some name => env.bind name (.function (.closure c))
    | none => env
  env.bindAll (c.params.zip args)

/-- Enters a closure when `remaining` more calls may be open at once;
    `limit` is only quoted when none may. -/
def Closure.enter (limit : Nat) : Nat → Enter
  | 0 => fun _ _ line => .fail (.stackOverflow limit line)
  | remaining + 1 => fun c args _ =>
    Eval.inEnv (c.callEnv args) (Expr.evalSteps (Closure.enter limit remaining) c.body)

end Scriptlet
