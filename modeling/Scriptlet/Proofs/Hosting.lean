import Scriptlet.Proofs.Holdings

/-! # What a host does with a session

    A host hands over source units and expressions and calls functions, and it
    may change the live environment itself: open and drop frames, bind, keep the
    environment and put one back that it has kept.  In all this it deals in
    values of the session only.

    An act of the first kind is the run of a machine, so a trait that machines
    keep stays with the session through any number of acts (`Desk.Keeps.act`,
    `Desk.Keeps.actAll`). -/

namespace Scriptlet

/-- A session with its host: the values that the host was given so far, and the
    environments that it has kept. -/
structure Desk (σ : Type) where
  session : Session
  host : σ
  returned : List Value := []
  saved : List (Env Value) := []

/-- Something that a host does with a session. -/
inductive Act where
  | interpret (source : String)
  | run (source : String)
  | eval (e : Expr)
  | call (f : Callable Value) (args : List Value) (line : Nat)
  | push
  | pop
  | bind (name : String) (v : Value)
  | save
  | restore (i : Nat)

namespace Desk

/-- A new session, of which the host has nothing yet. -/
def opened {σ : Type} (settings : Settings) (randomness : Randomness) (host : σ) : Desk σ :=
  { session := .new settings randomness, host }

variable {σ : Type}

/-- A function is somewhere in the session, or with its host. -/
def Contains (d : Desk σ) (f : Callable Value) : Prop :=
  d.session.env.Contains f ∨ (∃ v ∈ d.returned, v.Contains f) ∨ ∃ env ∈ d.saved, env.Contains f

/-- The value is one of the session: every closure in it is. -/
def Owns (d : Desk σ) (v : Value) : Prop :=
  v.Only fun c => d.Contains (.closure c)

variable [Host σ]

/-- The session and what its host has, after an act. -/
def act (d : Desk σ) : Act → Desk σ
  | .interpret source =>
    let out := (d.session.interpret source).run d.host
    { d with
      session := out.1.2
      host := out.2
      returned := d.returned ++ out.1.1.toOption.getD [] }
  | .run source =>
    let out := (d.session.run source).run d.host
    { d with session := out.1.2, host := out.2, returned := d.returned ++ out.1.1.getD [] }
  | .eval e =>
    let out := (d.session.eval e).run d.host
    { d with
      session := out.1.2
      host := out.2
      returned := d.returned ++ out.1.1.toOption.toList }
  | .call f args line =>
    let out := (d.session.call f args line).run d.host
    { d with
      session := out.1.2
      host := out.2
      returned := d.returned ++ out.1.1.toOption.toList }
  | .push => { d with session := d.session.withEnv d.session.env.push }
  | .pop => { d with session := d.session.withEnv d.session.env.pop }
  | .bind name v => { d with session := d.session.withEnv (d.session.env.bind name v) }
  | .save => { d with saved := d.saved ++ [d.session.env] }
  | .restore i =>
    match d.saved[i]? with
    | some env => { d with session := d.session.withEnv env }
    | none => d

/-- The session and what its host has, after some acts. -/
def actAll (d : Desk σ) : List Act → Desk σ
  | [] => d
  | a :: as => (d.act a).actAll as

end Desk

namespace Act

variable {σ : Type}

/-- The act deals in values of the session. -/
def Allowed (d : Desk σ) : Act → Prop
  | .call f args _ => d.Owns (.function f) ∧ ∀ v ∈ args, d.Owns v
  | .bind _ v => d.Owns v
  | _ => True

/-- The machine that does the act, if it takes one. -/
def machine? (d : Desk σ) : Act → Option (Machine σ)
  | .interpret source | .run source => some (d.session.machine d.host (.read source))
  | .eval e => some (d.session.machine d.host (.eval e))
  | .call f args line => some (d.session.machine d.host (.call f args line))
  | _ => none

/-- The code that the act brings into the session, and the line of a call, have
    the trait. -/
def Brings (T : Trait) : Act → Prop
  | .interpret source | .run source =>
    ∀ program, Program.read source = .ok program → ∀ e ∈ program, T.code e
  | .eval e => T.code e
  | .call _ _ line => T.line line
  | _ => True

end Act

/-! ## What every evaluation keeps -/

/-- A property of sessions that is kept by evaluating, by calling, and by undoing
    an evaluation that has failed. -/
structure Session.Stable (σ : Type) [Host σ] (P : Session → Prop) : Prop where
  eval : ∀ (s : Session) (host : σ) (e : Expr), P s → P ((s.eval e).run host).1.2
  call : ∀ (s : Session) (host : σ) (f : Callable Value) (args : List Value) (line : Nat),
    P s → P ((s.call f args line).run host).1.2
  undo : ∀ s s' : Session, P s → P s' → P { s'.withEnv s.env with depth := 0 }

namespace Session

variable {σ : Type} [Host σ] {P : Session → Prop}

/-- What is kept by every evaluation is kept by a program, up to the expression that
    fails, which is undone. -/
theorem Stable.evalProgram (hP : Stable σ P) {s : Session} (h : P s) (host : σ)
    (done : List Value) (es : Program) : P ((s.evalProgram done es).run host).1.2 := by
  induction es generalizing s host done with
  | nil => exact h
  | cons e es ih =>
      have hfirst := hP.eval s host e h
      rcases he : (s.eval e).run host with ⟨⟨r, s₁⟩, host₁⟩
      rw [he] at hfirst
      cases r with
      | ok v =>
          rw [run_evalProgram_ok he]
          exact ih hfirst host₁ (v :: done)
      | error err =>
          rw [run_evalProgram_error he]
          exact hP.undo s s₁ h hfirst

/-- What is kept by every evaluation is kept by a source unit. -/
theorem Stable.interpret (hP : Stable σ P) {s : Session} (h : P s) (host : σ) (source : String) :
    P ((s.interpret source).run host).1.2 := by
  cases hread : Program.read source with
  | error e =>
      rw [run_interpret_unreadable hread]
      exact h
  | ok program =>
      have hprogram := hP.evalProgram h host [] program
      rcases hp : (s.evalProgram [] program).run host with ⟨⟨r, s'⟩, host'⟩
      rw [hp] at hprogram
      rw [run_interpret_readable hread hp]
      exact hprogram

/-- An act that takes a machine keeps such a property. -/
theorem Stable.act (hP : Stable σ P) {d : Desk σ} {a : Act} {m : Machine σ}
    (hm : a.machine? d = some m) (h : P d.session) : P (d.act a).session := by
  cases a with
  | interpret source => exact hP.interpret h d.host source
  | run source =>
      show P ((d.session.run source).run d.host).1.2
      rw [session_run]
      exact hP.interpret h d.host source
  | eval e => exact hP.eval d.session d.host e h
  | call f args line => exact hP.call d.session d.host f args line h
  | _ => cases hm

end Session

namespace Desk

variable {σ : Type} {d d' : Desk σ} {a : Act} {m : Machine σ} {T : Trait}

/-! ## What a session and its host have -/

/-- All that the session and its host have has the trait. -/
structure Keeps (T : Trait) (d : Desk σ) : Prop where
  env : T.Environment d.session.env
  returned : ∀ v ∈ d.returned, T.value v
  saved : ∀ env ∈ d.saved, T.Environment env

/-- Every closure that the session or the host has is one with the trait. -/
theorem Keeps.closure (h : d.Keeps T) {c : Closure Value} (hc : d.Contains (.closure c)) :
    T.closure c := by
  rcases hc with ⟨v, hv, hc⟩ | ⟨v, hv, hc⟩ | ⟨env, henv, v, hv, hc⟩
  · exact h.env.only v hv c hc
  · exact h.returned v hv c hc
  · exact (h.saved env henv).only v hv c hc

theorem owns_of_mem_returned {v : Value} (h : v ∈ d.returned) : d.Owns v :=
  fun _ hc => .inr (.inl ⟨v, h, hc⟩)

/-- Values of the session have its trait. -/
theorem Keeps.owns (h : d.Keeps T) {v : Value} (hv : d.Owns v) : T.value v :=
  fun c hc => h.closure (hv c hc)

/-- A trait of closures is kept when every closure at the desk has it. -/
theorem keeps_ofClosures {P : Closure Value → Prop} :
    d.Keeps (.ofClosures P) ↔ ∀ c, d.Contains (.closure c) → P c := by
  constructor
  · intro h c hc
    exact h.closure hc
  · intro h
    refine ⟨?_, ?_, ?_⟩
    · exact Trait.environment_ofClosures.mpr fun c hc => h c (.inl hc)
    · exact fun v hv c hc => h c (.inr (.inl ⟨v, hv, hc⟩))
    · intro env henv
      exact Trait.environment_ofClosures.mpr fun c hc => h c (.inr (.inr ⟨env, henv, hc⟩))

/-- At first there are only the builtins. -/
theorem keeps_opened (settings : Settings) (randomness : Randomness) (host : σ)
    (h : T.builtins builtinFrame) : (opened settings randomness host).Keeps T := by
  refine ⟨⟨h, ?_⟩, List.forall_mem_nil _, List.forall_mem_nil _⟩
  rintro v ⟨frame, hframe, entry, hentry, rfl⟩
  rcases List.mem_cons.mp hframe with rfl | hframe
  · rcases List.mem_cons.mp hentry with rfl | hentry
    · exact Value.only_data rfl rfl
    · obtain ⟨b, -, rfl⟩ := List.mem_map.mp hentry
      exact Value.only_builtin b
  · obtain rfl := List.mem_singleton.mp hframe
    cases hentry

/-- What the machine of an act holds at first. -/
theorem Keeps.begin (h : d.Keeps T) (ha : a.Allowed d) (hb : a.Brings T)
    (hm : a.machine? d = some m) : m.Keeps T := by
  have hread : ∀ source, (∀ program, Program.read source = .ok program → ∀ e ∈ program, T.code e) →
      (d.session.machine d.host (.read source)).Keeps T := by
    intro source hsource
    refine ⟨⟨List.forall_mem_nil _, ?_, List.forall_mem_nil _, List.forall_mem_nil _⟩,
      List.forall_mem_nil _, h.env⟩
    show ∀ e ∈ (Control.read source).heldCode, T.code e
    rw [Control.heldCode]
    split
    · next program hprogram => exact hsource program hprogram
    · exact List.forall_mem_nil _
  cases a with
  | interpret source =>
      cases hm
      exact hread source hb
  | run source =>
      cases hm
      exact hread source hb
  | eval e =>
      cases hm
      exact ⟨Control.keeps_eval hb, List.forall_mem_nil _, h.env⟩
  | call f args line =>
      cases hm
      have hcall : (Control.call f args line).Keeps T :=
        Control.keeps_call (h.owns ha.1) (fun v hv => h.owns (ha.2 v hv))
          (List.forall_mem_singleton.mpr hb)
      exact ⟨hcall, List.forall_mem_nil _, h.env⟩
  | _ => cases hm

/-- A machine at rest holds what an act has made of a session and has given to
    the host. -/
structure Leaves (d : Desk σ) (m : Machine σ) (d' : Desk σ) : Prop where
  store : m.toStore = d'.session.store
  depth : m.depth = d'.session.depth
  returned : d'.returned = d.returned ++ m.control.heldValues
  saved : d'.saved = d.saved

/-- What the machine of an act holds at rest is the session's and the host's. -/
theorem Keeps.leaves (h : d.Keeps T) (hm : m.Keeps T) (hl : d.Leaves m d') : d'.Keeps T := by
  refine ⟨?_, ?_, ?_⟩
  · show T.Environment d'.session.store.env
    rw [← hl.store]
    exact hm.env
  · rw [hl.returned]
    exact List.forall_mem_append.mpr ⟨h.returned, hm.control.values⟩
  · rw [hl.saved]
    exact h.saved

variable [Host σ]

/-! ## Acts as runs of machines -/

theorem heldValues_finished (r : Except Error (List Value)) :
    (Control.finished r).heldValues = r.toOption.getD [] := by
  cases r <;> rfl

/-- The machine at rest holds the value that it came to. -/
theorem heldValues_ofResult (r : Except RuntimeError Value) :
    (Control.ofResult r).heldValues = r.toOption.toList := by
  cases r <;> rfl

theorem returned_run (s : Session) (host : σ) (source : String) :
    ((s.run source).run host).1.1 = ((s.interpret source).run host).1.1.toOption := by
  rw [Session.run, Dialogue.run_nest]
  rcases (s.interpret source).run host with ⟨⟨r, s'⟩, host'⟩
  cases r <;> rfl

/-- The machine that does an act comes to rest with what the act leaves. -/
theorem exists_leaves (h : a.machine? d = some m) :
    ∃ m', Machine.Reaches d.session.settings.maxDepth m m' ∧
      m'.step d.session.settings.maxDepth = none ∧ d.Leaves m' (d.act a) := by
  cases a with
  | interpret source =>
      cases h
      refine ⟨_, Session.reaches_interpret rfl, rfl, ⟨rfl, rfl, ?_, rfl⟩⟩
      exact congrArg _ (heldValues_finished _).symm
  | run source =>
      cases h
      have hsession := d.session.session_run d.host source
      refine ⟨_, Session.reaches_interpret rfl, rfl, ⟨?_, ?_, ?_, rfl⟩⟩
      · exact congrArg Session.store hsession.symm
      · exact congrArg (fun s : Session => (s.depth : Int)) hsession.symm
      · show d.returned ++ ((d.session.run source).run d.host).1.1.getD [] = _
        rw [returned_run]
        exact congrArg _ (heldValues_finished _).symm
  | eval e =>
      cases h
      refine ⟨_, Session.reaches_perform (.eval e) rfl [], Session.rests_ofResult _ _ _,
        ⟨rfl, rfl, ?_, rfl⟩⟩
      exact congrArg _ (heldValues_ofResult _).symm
  | call f args line =>
      cases h
      refine ⟨_, Session.reaches_perform (.call f args line) rfl [], Session.rests_ofResult _ _ _,
        ⟨rfl, rfl, ?_, rfl⟩⟩
      exact congrArg _ (heldValues_ofResult _).symm
  | _ => cases h

/-! ## What stays with a session -/

/-- All acts deal in values of the session, as it is when they are done. -/
def Allows (d : Desk σ) : List Act → Prop
  | [] => True
  | a :: as => a.Allowed d ∧ (d.act a).Allows as

/-- An act that takes no machine moves environments and values about. -/
theorem Keeps.idle (h : d.Keeps T) (ha : a.Allowed d) (hm : a.machine? d = none) :
    (d.act a).Keeps T := by
  cases a with
  | interpret | run | eval | call => cases hm
  | push => exact ⟨h.env.push, h.returned, h.saved⟩
  | pop => exact ⟨h.env.pop, h.returned, h.saved⟩
  | bind name v => exact ⟨h.env.bind name (h.owns ha), h.returned, h.saved⟩
  | save =>
      refine ⟨h.env, h.returned, List.forall_mem_append.mpr ⟨h.saved, ?_⟩⟩
      exact List.forall_mem_singleton.mpr h.env
  | restore i =>
      rw [act]
      split
      · next env henv => exact ⟨h.saved env (List.mem_of_getElem? henv), h.returned, h.saved⟩
      · exact h

/-- **One act keeps a trait** that functions hand on to their closures, if the
    code that it brings has it. -/
theorem Keeps.act (hT : T.Closes) (h : d.Keeps T) (ha : a.Allowed d) (hb : a.Brings T) :
    (d.act a).Keeps T := by
  cases hm : a.machine? d with
  | none => exact h.idle ha hm
  | some m =>
      obtain ⟨m', hr, -, hl⟩ := exists_leaves hm
      exact h.leaves ((h.begin ha hb hm).reaches hT hr) hl

/-- Any number of acts keep such a trait. -/
theorem Keeps.actAll {acts : List Act} (hT : T.Closes) (h : d.Keeps T) (ha : d.Allows acts)
    (hb : ∀ a ∈ acts, a.Brings T) : (d.actAll acts).Keeps T := by
  induction acts generalizing d with
  | nil => exact h
  | cons a as ih =>
      obtain ⟨hbring, hrest⟩ := List.forall_mem_cons.mp hb
      exact ih (h.act hT ha.1 hbring) ha.2 hrest

end Desk

end Scriptlet
