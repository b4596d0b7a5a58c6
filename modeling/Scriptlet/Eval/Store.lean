import Scriptlet.Dialogue
import Scriptlet.Supply
import Scriptlet.Value

/-! # Evaluation steps

    An evaluation step reads and changes the store, talks to the host, and
    ends with a value or with a runtime error.  The store after an error is
    the store at the moment of the error; who rolls back is decided
    elsewhere. -/

namespace Scriptlet

/-- What evaluation reads and changes: the live environment, the random
    numbers to come, and the identity of the next closure. -/
structure Store where
  env : Env Value
  random : Supply Float
  nextIdentity : Nat

/-- A step that comes to an `α` or to a runtime error. -/
abbrev Eval (α : Type) : Type 1 :=
  Store → Dialogue (Except RuntimeError α × Store)

namespace Eval

variable {α β : Type}

/-- Comes to `a`. -/
@[inline]
def value (a : α) : Eval α := fun s => .done (.ok a, s)

/-- Ends with an error. -/
@[inline]
def fail (e : RuntimeError) : Eval α := fun s => .done (.error e, s)

/-- Does `x`, then `f` with its result; an error of `x` is final. -/
@[inline]
def andThen (x : Eval α) (f : α → Eval β) : Eval β := fun s =>
  .nest (fun _ => x s) fun
    | (.ok a, s) => f a s
    | (.error e, s) => .done (.error e, s)

instance : Monad Eval where
  pure := value
  bind := andThen

/-- Comes to what is already known. -/
@[inline]
def ofExcept (r : Except RuntimeError α) : Eval α := fun s => .done (r, s)

/-- Asks the host. -/
@[inline]
def ask (q : Request α) : Eval α := fun s => .ask q fun reply => .done (.ok reply, s)

/-- What a symbol means in the live environment. -/
def lookup (name : String) (line : Nat) : Eval Value := fun s =>
  match s.env.lookup? name with
  | some v => .done (.ok v, s)
  | none => .done (.error (.undefinedSymbol name line), s)

/-- Binds a symbol in the innermost frame. -/
def define (name : String) (v : Value) : Eval Unit := fun s =>
  .done (.ok (), { s with env := s.env.bind name v })

/-- A new closure over the live environment. -/
def close (params : List String) (body : List Expr) (selfName? : Option String) : Eval Value :=
  fun s =>
    .done (.ok (.function (.closure ⟨s.nextIdentity, params, body, s.env, selfName?⟩)),
      { s with nextIdentity := s.nextIdentity + 1 })

/-- The next random number. -/
def randomNumber : Eval Float := fun s =>
  .done (.ok s.random.next.1, { s with random := s.random.next.2 })

/-- Does `x` in a frame of its own, which is dropped at the end, also after an
    error. -/
@[inline]
def inFrame (x : Eval α) : Eval α := fun s =>
  .nest (fun _ => x { s with env := s.env.push }) fun r =>
    .done (r.1, { r.2 with env := r.2.env.pop })

/-- Does `x` in another environment and comes back to the live one, also after
    an error. -/
@[inline]
def inEnv (env : Env Value) (x : Eval α) : Eval α := fun s =>
  .nest (fun _ => x { s with env }) fun r => .done (r.1, { r.2 with env := s.env })

end Eval

end Scriptlet
