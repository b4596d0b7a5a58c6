import Scriptlet.Eval.Expr
import Scriptlet.Program.Read

/-! # Sessions

    A session keeps an environment from one source unit to the next.  A
    source unit is read as a whole before any of it is evaluated.  When one of
    its expressions fails, the environment is as before that expression; what
    the expressions before it bound stays. -/

namespace Scriptlet

/-- What is fixed for a session: how many calls may be open at once, and the
    seed of the random numbers, if one was given. -/
structure Settings where
  maxDepth : Nat := 10000
  seed? : Option Nat := none
  deriving Repr, DecidableEq

/-- The random numbers that sessions are given: those that follow from a seed,
    and those of a session without one. -/
abbrev Randomness := Option Nat → Supply Float

/-- A session between two requests of its host. -/
structure Session where
  settings : Settings
  store : Store
  depth : Nat

namespace Session

/-- A session in which nothing is bound but the builtins, with the random numbers
    that go with its seed. -/
def new (settings : Settings) (randomness : Randomness) : Session :=
  { settings
    store :=
      { env := .ofBuiltins builtinFrame
        random := randomness settings.seed?
        nextIdentity := 0 }
    depth := 0 }

/-- The live environment. -/
def env (s : Session) : Env Value := s.store.env

/-- Replaces the live environment. -/
def withEnv (s : Session) (env : Env Value) : Session :=
  { s with store := { s.store with env } }

/-- How a closure is entered in this session. -/
def enter (s : Session) : Enter :=
  Closure.enter s.settings.maxDepth (s.settings.maxDepth - s.depth)

/-- Does an evaluation step. -/
def perform {α : Type} (s : Session) (x : Eval α) :
    Dialogue (Except RuntimeError α × Session) :=
  .nest (fun _ => x s.store) fun r => .done (r.1, { s with store := r.2 })

/-- Evaluates one expression. -/
def eval (s : Session) (e : Expr) : Dialogue (Except RuntimeError Value × Session) :=
  s.perform (e.eval s.enter)

/-- Calls a function. -/
def call (s : Session) (f : Callable Value) (args : List Value) (line : Nat) :
    Dialogue (Except RuntimeError Value × Session) :=
  s.perform (f.call s.enter args line)

/-- Calls a builtin with arguments of any number. -/
def callBuiltin (s : Session) (b : Builtin) (args : List Value) (line : Nat) :
    Dialogue (Except RuntimeError Value × Session) :=
  s.perform (b.call s.enter args line)

/-- Evaluates expressions in order; the first one that fails is undone and
    ends the unit.  `done` are the values so far, last one first. -/
def evalProgram (s : Session) (done : List Value) :
    Program → Dialogue (Except RuntimeError (List Value) × Session)
  | [] => .done (.ok done.reverse, s)
  | e :: es => .nest (fun _ => s.eval e) fun
    | (.ok v, next) => next.evalProgram (v :: done) es
    | (.error err, next) => .done (.error err, { next.withEnv s.env with depth := 0 })

/-- Reads and evaluates a source unit. -/
def interpret (s : Session) (source : String) :
    Dialogue (Except Error (List Value) × Session) :=
  match Program.read source with
  | .error e => .done (.error (.static e), s)
  | .ok program => .nest (fun _ => s.evalProgram [] program) fun
    | (.ok vs, next) => .done (.ok vs, next)
    | (.error e, next) => .done (.error (.runtime e), next)

/-- Reads and evaluates a source unit; an error is reported to the host. -/
def run (s : Session) (source : String) : Dialogue (Option (List Value) × Session) :=
  .nest (fun _ => s.interpret source) fun
    | (.ok vs, next) => .done (some vs, next)
    | (.error e, next) => .ask (.report e.report) fun _ => .done (none, next)

end Session

end Scriptlet
