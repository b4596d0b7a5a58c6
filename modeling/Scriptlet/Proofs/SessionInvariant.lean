import Scriptlet.Proofs.Hosting
import Scriptlet.Proofs.Nodes

/-! # The session invariant

    Whatever a host does with a session, between two acts no call is open, every
    environment has a frame and stands over the session's own builtins, and every
    closure has a body.  That bodies and branches are not empty comes from
    reading; it is a trait that code hands on to closures (`Trait.filled`), and
    it keeps a run from ever evaluating an empty sequence. -/

namespace Scriptlet

/-! ## Filled code -/

/-- Every block in the expression, at any depth, has an expression. -/
def Expr.Filled (e : Expr) : Prop :=
  ∀ p : Expr, p.Within e → ∀ b ∈ p.blocks, b ≠ []

/-- The parts of an expression have blocks with expressions where it has. -/
theorem Expr.Filled.part {e p : Expr} (h : e.Filled) (hp : p ∈ e.parts) : p.Filled :=
  fun q hq => h q (.part hq hp)

theorem Expr.Filled.block_ne_nil {e : Expr} (h : e.Filled) : ∀ b ∈ e.blocks, b ≠ [] :=
  h e (.self e)

/-- What is read is filled. -/
theorem Program.filled_of_ofTokens {tokens : List Token} {program : Program} {e : Expr}
    (h : ofTokens tokens = .ok program) (he : program.HasNode e) : e.Filled :=
  fun _ hp _ hb => block_ne_nil h (he.within hp) hb

/-- Filled code, closures of it that have a body, and the builtins as they are
    at first. -/
def Trait.filled : Trait where
  closure c := c.body ≠ [] ∧ (∀ e ∈ c.body, e.Filled) ∧ c.scope.builtins = builtinFrame
  code := Expr.Filled
  block b := b ≠ []
  line _ := True
  builtins frame := frame = builtinFrame
  part h hp := h.part hp
  line_of_code _ := trivial
  block_of_code h := h.block_ne_nil
  block_rest _ := List.cons_ne_nil _ _
  body h := h.2.1
  block_of_closure h := h.1
  scope h := h.2.2

/-- Closures that are made of such code have such code. -/
theorem Trait.closes_filled : Trait.filled.Closes := by
  intro params body n env identity selfName? hcode henv
  refine ⟨?_, ?_, henv.builtins⟩
  · exact Expr.Filled.block_ne_nil hcode body (List.mem_singleton_self _)
  · exact fun e he => Expr.Filled.part hcode he

/-! ## Sessions -/

/-- An expression that the host evaluates was read from tokens. -/
def Act.Parsed : Act → Prop
  | .eval e => ∃ tokens program, Program.ofTokens tokens = .ok program ∧ program.HasNode e
  | _ => True

/-- What was read from a source is such code. -/
theorem Act.Parsed.brings {a : Act} (h : a.Parsed) : a.Brings .filled := by
  have hread : ∀ source program, Program.read source = .ok program → ∀ e ∈ program, e.Filled := by
    intro source program hprogram e he
    unfold Program.read at hprogram
    split at hprogram
    · exact Program.filled_of_ofTokens hprogram (.of_mem he)
    · cases hprogram
  cases a with
  | interpret source => exact hread source
  | run source => exact hread source
  | eval e =>
      obtain ⟨tokens, program, hprogram, he⟩ := h
      exact Program.filled_of_ofTokens hprogram he
  | _ => trivial

namespace Session

variable {σ : Type} [Host σ]

/-- Evaluating and calling leave the number of frames as it is. -/
theorem stable_frames (n : Nat) : Stable σ (·.env.depth = n) where
  eval s host e h := by
    have hbinds := Expr.binds_eval s.detached_enter e σ s.store host
    show (((s.perform (e.eval s.enter)).run host).1.2).env.depth = n
    rw [run_perform]
    show ((e.eval s.enter s.store).result host).1.2.env.outer.length + 1 = n
    rw [hbinds.outer]
    exact h
  call s host f args line h := by
    have henv := (Callable.detached_call s.detached_enter f args line).env_eq s.store host
    show (((s.perform (f.call s.enter args line)).run host).1.2).env.depth = n
    rw [run_perform]
    show ((f.call s.enter args line s.store).result host).1.2.env.depth = n
    rw [henv]
    exact h
  undo _ _ h _ := h

/-- Evaluating and calling leave no call open. -/
theorem stable_calls : Stable σ (·.depth = 0) where
  eval s host e h := by
    show ((s.perform (e.eval s.enter)).run host).1.2.depth = 0
    rw [run_perform]
    exact h
  call s host f args line h := by
    show ((s.perform (f.call s.enter args line)).run host).1.2.depth = 0
    rw [run_perform]
    exact h
  undo _ _ _ _ := rfl

end Session

namespace Desk

variable {σ : Type} {d : Desk σ} {a : Act} {m m' : Machine σ}

/-- The invariant of a session between two acts: no call is open; the live
    environment and those that the host has kept have a frame; and so has the
    environment of every closure in them, or in a value that was returned, over
    the builtins of a new session; and the closure has a body. -/
structure Sound (d : Desk σ) : Prop where
  calls : d.session.depth = 0
  frames : ∀ env ∈ d.session.env :: d.saved, 1 ≤ env.depth ∧ env.builtins = builtinFrame
  closures : ∀ c, d.Contains (.closure c) →
    1 ≤ c.scope.depth ∧ c.scope.builtins = builtinFrame ∧ c.body ≠ []

theorem one_le_depth (env : Env Value) : 1 ≤ env.depth :=
  Nat.succ_pos env.outer.length

/-- The trait, and no open call, are the invariant. -/
theorem Keeps.sound (h : d.Keeps .filled) (hdepth : d.session.depth = 0) : d.Sound := by
  refine ⟨hdepth, ?_, ?_⟩
  · intro env henv
    refine ⟨one_le_depth env, ?_⟩
    rcases List.mem_cons.mp henv with rfl | henv
    · exact h.env.builtins
    · exact (h.saved env henv).builtins
  · intro c hc
    have hclosure := h.closure hc
    exact ⟨one_le_depth c.scope, hclosure.2.2, hclosure.1⟩

variable [Host σ]

/-- No act leaves a call open. -/
theorem depth_act (h : d.session.depth = 0) (a : Act) : (d.act a).session.depth = 0 := by
  cases hm : a.machine? d with
  | some m => exact Session.stable_calls.act hm h
  | none =>
      cases a with
      | interpret | run | eval | call => cases hm
      | restore i =>
          rw [act]
          split <;> exact h
      | _ => exact h

theorem depth_actAll (h : d.session.depth = 0) (acts : List Act) :
    (d.actAll acts).session.depth = 0 := by
  induction acts generalizing d with
  | nil => exact h
  | cons a acts ih => exact ih (depth_act h a)

/-- **The session invariant.**  After any acts of its host, in which it evaluates
    what was read and deals in values of the session, a session that was new is
    sound.  A further act that evaluates or calls leaves the number of frames as
    it is; its machine never evaluates an empty sequence, whose value would be
    nil, and comes to rest with no call open. -/
theorem session_invariant (settings : Settings) (randomness : Randomness) (host : σ)
    (acts : List Act)
    (hallowed : (opened settings randomness host).Allows acts) (hparsed : ∀ a ∈ acts, a.Parsed) :
    let d := (opened settings randomness host).actAll acts
    d.Sound ∧ ∀ (a : Act) (m : Machine σ), a.Allowed d → a.Parsed → a.machine? d = some m →
      (d.act a).session.env.depth = d.session.env.depth ∧
      ∀ m', Machine.Reaches d.session.settings.maxDepth m m' →
        m'.control ≠ .evalSteps [] ∧
        (m'.step d.session.settings.maxDepth = none → m'.depth = 0) := by
  intro d
  have hkeeps : d.Keeps .filled :=
    (keeps_opened settings randomness host rfl).actAll Trait.closes_filled hallowed
      fun a ha => (hparsed a ha).brings
  have hdepth : d.session.depth = 0 := depth_actAll rfl acts
  refine ⟨hkeeps.sound hdepth, ?_⟩
  intro a m ha hp hm
  refine ⟨(Session.stable_frames d.session.env.depth).act hm rfl, ?_⟩
  intro m' hr
  constructor
  · intro hcontrol
    have hblocks := ((hkeeps.begin ha hp.brings hm).reaches Trait.closes_filled hr).control.blocks
    rw [hcontrol] at hblocks
    exact List.forall_mem_singleton.mp hblocks rfl
  · intro hrest
    obtain ⟨last, hlast, hstop, hleaves⟩ := exists_leaves hm
    obtain ⟨cs, hcs⟩ := Machine.exists_makes hr
    obtain rfl := Machine.rest_unique hcs hrest hlast hstop
    rw [hleaves.depth, depth_act hdepth a]
    rfl

/-- A function that is bound in a frame of the host, and kept in an environment
    that is put back, before it is called with itself. -/
theorem session_invariant_restored :
    let branches : Expr := .choice (.literal (.bool true) 1) [.symbol "x" 1] [.symbol "f" 1] 1
    let c : Closure Value := ⟨0, ["x"], [branches], .ofBuiltins builtinFrame, some "f"⟩
    let f : Value := .function (.closure c)
    let acts : List Act :=
      [.interpret "f = \\x \x7b if true \x7b x \x7d else \x7b f \x7d \x7d", .eval (.symbol "f" 1),
        .push, .bind "g" f, .save, .pop, .restore 0]
    let start := opened {} (fun _ => .always 0) ({} : Buffer)
    let d := start.actAll acts
    start.Allows acts ∧ (∀ a ∈ acts, a.Parsed) ∧ d.Sound ∧
      (d.act (.call (.closure c) [f] 1)).session.env.depth = d.session.env.depth ∧
      d.session.env.depth = 2 := by
  intro branches c f acts start d
  let d₁ := start.act
    (.interpret "f = \\x \x7b if true \x7b x \x7d else \x7b f \x7d \x7d")
  have hreturned : d₁.returned = [f] := rfl
  have hmem : f ∈ (d₁.act (.eval (.symbol "f" 1))).returned := by
    refine List.mem_append_left _ ?_
    rw [hreturned]
    exact List.mem_singleton_self _
  have hallowed : start.Allows acts :=
    ⟨trivial, trivial, trivial, owns_of_mem_returned hmem, trivial, trivial, trivial, trivial⟩
  have hparsed : ∀ a ∈ acts, a.Parsed := by
    simp only [acts, List.forall_mem_cons]
    have hsymbol : Act.Parsed (.eval (.symbol "f" 1)) :=
      ⟨[⟨.identifier "f", "f", 1⟩], [.symbol "f" 1], rfl, .of_mem (List.mem_singleton_self _)⟩
    exact ⟨trivial, hsymbol, trivial, trivial, trivial, trivial, trivial, List.forall_mem_nil _⟩
  obtain ⟨hsound, hact⟩ :=
    session_invariant {} (fun _ => .always 0) ({} : Buffer) acts hallowed hparsed
  have howns : d.Owns f := owns_of_mem_returned hmem
  have hcall := hact (.call (.closure c) [f] 1) _ ⟨howns, List.forall_mem_singleton.mpr howns⟩
    trivial rfl
  exact ⟨hallowed, hparsed, hsound, hcall.1, rfl⟩

end Desk

end Scriptlet
