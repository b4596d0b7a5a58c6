import Scriptlet.Error

/-! # Dialogues with a host

    A running program prints, reads lines, asks for the time and reports
    errors.  It does none of this itself: it is a `Dialogue`, a tree of
    requests whose continuation waits for the reply.  A `Host` answers the
    requests from a state of its own.

    A dialogue may also nest another one and go on with its result.  Its
    meaning (`Dialogue.result`) follows the nesting.  To run it, the nesting is
    first flattened into `Turns`, which need no call stack however deep the
    nesting goes; `run_eq_result` says that both come to the same. -/

namespace Scriptlet

/-- What a program may ask of its host, with the type of the reply. -/
inductive Request : Type → Type where
  /-- Write a text as it is. -/
  | print (text : String) : Request Unit
  /-- Read one line, without its end; empty at the end of the input. -/
  | readLine : Request String
  /-- The whole milliseconds since the start of 1970, below 0 before it. -/
  | clock : Request Int
  /-- Present an error. -/
  | report (r : Report) : Request Unit

/-- A computation that talks to a host. -/
inductive Dialogue : Type → Type 1 where
  /-- The computation is over. -/
  | done {α : Type} (a : α) : Dialogue α
  /-- Asks the host and goes on with the reply. -/
  | ask {α β : Type} (q : Request β) (next : β → Dialogue α) : Dialogue α
  /-- Runs another computation and goes on with its result. -/
  | nest {α β : Type} (inner : Unit → Dialogue β) (next : β → Dialogue α) : Dialogue α

/-- A state that answers requests. -/
class Host (σ : Type) where
  /-- The reply to a request, and the state after it. -/
  answer : {β : Type} → Request β → σ → β × σ

/-- A dialogue without nesting. -/
inductive Turns (α : Type) : Type 1 where
  | done (a : α) : Turns α
  | ask {β : Type} (q : Request β) (next : β → Turns α) : Turns α
  | turn (next : Unit → Turns α) : Turns α

/-- Takes the turns one by one. -/
def Turns.run {σ α : Type} [Host σ] : Turns α → σ → α × σ
  | .done a, host => (a, host)
  | .ask q next, host =>
    match Host.answer q host with
    | (reply, host) => (next reply).run host
  | .turn next, host => (next ()).run host

namespace Dialogue

/-- The turns of a dialogue, followed by what its result is used for. -/
def flatten {ω : Type} : {α : Type} → Dialogue α → (α → Turns ω) → Turns ω
  | _, .done a, after => .turn fun _ => after a
  | _, .ask q next, after => .ask q fun reply => (next reply).flatten after
  | _, .nest inner next, after =>
    .turn fun _ => (inner ()).flatten fun b => (next b).flatten after

/-- The turns of a whole dialogue. -/
def turns {α : Type} (d : Dialogue α) : Turns α :=
  d.flatten .done

/-- Runs a dialogue with a host. -/
def run {σ α : Type} [Host σ] (d : Dialogue α) (host : σ) : α × σ :=
  d.turns.run host

/-- What a dialogue comes to with a host. -/
def result {σ : Type} [Host σ] : {α : Type} → Dialogue α → σ → α × σ
  | _, .done a, host => (a, host)
  | _, .ask q next, host => (next (Host.answer q host).1).result (Host.answer q host).2
  | _, .nest inner next, host =>
    (next ((inner ()).result host).1).result ((inner ()).result host).2

/-- Running the turns of a dialogue and then `after` is running `after` on the
    dialogue's result. -/
theorem run_flatten {σ ω α : Type} [Host σ] (d : Dialogue α) :
    ∀ (after : α → Turns ω) (host : σ),
      (d.flatten after).run host = (after (d.result host).1).run (d.result host).2 := by
  induction d with
  | done a => intro after host; rfl
  | ask q next ih => intro after host; exact ih _ after _
  | nest inner next ihInner ihNext =>
      intro after host
      show ((inner ()).flatten fun b => (next b).flatten after).run host = _
      rw [ihInner, ihNext]
      rfl

/-- Flattening changes nothing. -/
theorem run_eq_result {σ α : Type} [Host σ] (d : Dialogue α) (host : σ) :
    d.run host = d.result host :=
  run_flatten d .done host

end Dialogue

end Scriptlet
