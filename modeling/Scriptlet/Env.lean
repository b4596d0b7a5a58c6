import Scriptlet.Text.Shown

/-! # Environments

    An environment is a stack of frames over a frame of builtins.  A symbol
    is bound in the innermost frame and looked up from there outwards, the
    builtins last.  The outermost frame always stays.

    Environments are values: keeping one is a snapshot, and nothing done to
    a copy is seen by another.  The type does not depend on what is bound. -/

namespace Scriptlet

/-- Symbols with what they are bound to, each symbol once. -/
structure Frame (α : Type) where
  entries : List (String × α) := []

namespace Frame

variable {α : Type}

/-- What a symbol is bound to. -/
def get? (f : Frame α) (name : String) : Option α :=
  f.entries.lookup name

/-- The bound symbols. -/
def names (f : Frame α) : List String :=
  f.entries.map (·.1)

/-- Binds a symbol, in place of what it was bound to. -/
def set (f : Frame α) (name : String) (a : α) : Frame α :=
  if (f.get? name).isSome then
    ⟨f.entries.map fun entry => if entry.1 = name then (name, a) else entry⟩
  else
    ⟨(name, a) :: f.entries⟩

end Frame

/-- A stack of at least one frame over the builtins. -/
structure Env (α : Type) where
  innermost : Frame α := {}
  outer : List (Frame α) := []
  builtins : Frame α := {}

namespace Env

variable {α : Type}

/-- One empty frame over the given builtins. -/
def ofBuiltins (builtins : Frame α) : Env α :=
  { builtins }

/-- The frames above the builtins, innermost first. -/
def frames (env : Env α) : List (Frame α) :=
  env.innermost :: env.outer

/-- The number of frames above the builtins. -/
def depth (env : Env α) : Nat :=
  env.frames.length

/-- Opens an empty innermost frame. -/
def push (env : Env α) : Env α :=
  { env with innermost := {}, outer := env.innermost :: env.outer }

/-- Drops the innermost frame, unless it is the last one. -/
def pop (env : Env α) : Env α :=
  match env.outer with
  | [] => env
  | frame :: outer => { env with innermost := frame, outer }

/-- Binds a symbol in the innermost frame. -/
def bind (env : Env α) (name : String) (a : α) : Env α :=
  { env with innermost := env.innermost.set name a }

/-- Binds symbols one after the other. -/
def bindAll (env : Env α) (entries : List (String × α)) : Env α :=
  entries.foldl (fun env entry => env.bind entry.1 entry.2) env

/-- What a symbol means here: its innermost binding, else its builtin. -/
def lookup? (env : Env α) (name : String) : Option α :=
  (env.frames.findSome? (·.get? name)).or (env.builtins.get? name)

/-- Whether a symbol means anything here. -/
def has (env : Env α) (name : String) : Bool :=
  (env.lookup? name).isSome

/-- Drops repetitions that stand side by side. -/
def dropRepeats : List String → List String
  | a :: b :: rest => if a = b then dropRepeats (b :: rest) else a :: dropRepeats (b :: rest)
  | rest => rest

/-- The symbols bound above the builtins, in ascending order, each once. -/
def symbols (env : Env α) : List String :=
  dropRepeats ((env.frames.flatMap Frame.names).mergeSort fun a b => !(b < a))

/-- A summary for inspection: the depth and the symbols. -/
def summary (env : Env α) : String :=
  "Environment \x7b depth: " ++ toString env.depth ++ ", symbols: ["
    ++ ", ".intercalate (env.symbols.map Text.shown) ++ "], .. \x7d"

theorem lookup?_push (env : Env α) (name : String) :
    env.push.lookup? name = env.lookup? name := rfl

end Env

end Scriptlet
