import Scriptlet.Proofs.Identity

/-! # What a call starts from

    A call opens one frame over the environment that the closure has captured,
    and binds the name of the closure and its parameters there.  So a symbol
    means what `Closure.Resolves` says, which does not speak of bindings.

    While the call lasts, branches open frames over that frame, and further calls
    put another environment in place of the live one.  The environment of the
    call is what the live one becomes once all this is left (`Machine.unwound`).
    What a step does to the stack and to the live environment is said once
    (`Machine.Moves`), and it follows that the environment of a call changes by
    the definitions that its body makes outside of branches, in the new frame,
    and by nothing else (`Machine.Activation`).  So another call of the same
    closure, later or meanwhile, starts from what the first one started from. -/

namespace Scriptlet

/-! ## What a symbol means at the start of a call -/

/-- What a symbol means in an environment: its binding in the innermost frame
    that has one, else its builtin. -/
inductive Env.Means (env : Env Value) (name : String) : Option Value → Prop where
  | frame {inner outer : List (Frame Value)} {frame : Frame Value} {v : Value} :
      env.frames = inner ++ frame :: outer → (∀ f ∈ inner, f.get? name = none) →
      frame.get? name = some v → Means env name (some v)
  | builtin : (∀ f ∈ env.frames, f.get? name = none) → Means env name (env.builtins.get? name)

/-- What is looked up is what a symbol means. -/
theorem Env.means_lookup? (env : Env Value) (name : String) :
    env.Means name (env.lookup? name) := by
  unfold lookup?
  cases hfound : env.frames.findSome? (·.get? name) with
  | none => exact .builtin (List.findSome?_eq_none_iff.mp hfound)
  | some v =>
      obtain ⟨inner, frame, outer, hframes, hv, hinner⟩ := List.findSome?_eq_some_iff.mp hfound
      exact .frame hframes hinner hv

/-- What a symbol means at the start of a call: the argument at the last place
    where it is a parameter, else the closure, if that is its name, else what it
    means in the environment that the closure has captured. -/
inductive Closure.Resolves (c : Closure Value) (args : List Value) (name : String) :
    Option Value → Prop where
  | param {i : Nat} {v : Value} : c.params[i]? = some name →
      (∀ j, i < j → c.params[j]? ≠ some name) → args[i]? = some v →
      Resolves c args name (some v)
  | self : name ∉ c.params → c.selfName? = some name →
      Resolves c args name (some (.function (.closure c)))
  | captured {r : Option Value} : name ∉ c.params → c.selfName? ≠ some name →
      c.scope.Means name r → Resolves c args name r

section Parameters

variable {name : String} {params : List String} {args : List Value}

/-- Of several parameters with one name, the last one counts. -/
theorem exists_last_param (hlength : args.length = params.length) (h : name ∈ params) :
    ∃ (i : Nat) (v : Value), params[i]? = some name ∧ (∀ j, i < j → params[j]? ≠ some name) ∧
      args[i]? = some v ∧ (params.zip args).reverse.lookup name = some v := by
  induction params generalizing args with
  | nil => cases h
  | cons param params ih =>
      obtain ⟨arg, args, rfl⟩ := List.exists_cons_of_length_eq_add_one hlength
      have hlookup : ((param :: params).zip (arg :: args)).reverse.lookup name
          = ((params.zip args).reverse.lookup name).or ([(param, arg)].lookup name) := by
        rw [List.zip_cons_cons, List.reverse_cons, List.lookup_append]
      rw [hlookup]
      by_cases hlater : name ∈ params
      · obtain ⟨i, v, hi, hlast, hv, hfound⟩ := ih (Nat.succ.inj hlength) hlater
        refine ⟨i + 1, v, hi, ?_, hv, ?_⟩
        · intro j hj
          obtain ⟨j, rfl⟩ := Nat.exists_eq_succ_of_ne_zero (Nat.ne_zero_of_lt hj)
          exact hlast j (Nat.lt_of_succ_lt_succ hj)
        · rw [hfound]
          rfl
      · obtain rfl : name = param := (List.mem_cons.mp h).resolve_right hlater
        refine ⟨0, arg, rfl, ?_, rfl, ?_⟩
        · intro j hj hname
          obtain ⟨j, rfl⟩ := Nat.exists_eq_succ_of_ne_zero (Nat.ne_zero_of_lt hj)
          exact hlater (List.mem_of_getElem? hname)
        · rw [lookup_params_eq_none hlater, lookup_singleton, if_pos rfl]
          rfl

end Parameters

/-- In the environment that a closure is entered in, a symbol resolves to what is
    looked up. -/
theorem Closure.resolves_lookup? {c : Closure Value} {args : List Value}
    (h : args.length = c.params.length) (name : String) :
    c.Resolves args name ((c.callEnv args).lookup? name) := by
  rw [c.lookup?_callEnv]
  by_cases hparam : name ∈ c.params
  · obtain ⟨i, v, hi, hlast, hv, hfound⟩ := exists_last_param h hparam
    rw [hfound]
    exact .param hi hlast hv
  · rw [lookup_params_eq_none hparam, Option.none_or]
    by_cases hself : c.selfName? = some name
    · rw [if_pos hself]
      exact .self hparam hself
    · rw [if_neg hself]
      exact .captured hparam hself (c.scope.means_lookup? name)

/-! ## One frame over the closure -/

/-- The environment has one frame over what the closure has captured. -/
structure Closure.Underlies (c : Closure Value) (env : Env Value) : Prop where
  outer : env.outer = c.scope.frames
  builtins : env.builtins = c.scope.builtins

@[simp] theorem Env.outer_bindAll (env : Env Value) (entries : List (String × Value)) :
    (env.bindAll entries).outer = env.outer := by
  induction entries generalizing env with
  | nil => rfl
  | cons entry entries ih => exact ih (env.bind entry.1 entry.2)

namespace Closure.Underlies

variable {c : Closure Value} {env : Env Value}

/-- Binding symbols in the innermost frame leaves what is below it. -/
theorem bindAll (h : c.Underlies env) (entries : List (String × Value)) :
    c.Underlies (env.bindAll entries) where
  outer := (env.outer_bindAll entries).trans h.outer
  builtins := (env.builtins_bindAll entries).trans h.builtins

/-- A call has one frame more than the scope of its closure. -/
theorem depth_eq (h : c.Underlies env) : env.depth = c.scope.depth + 1 :=
  congrArg (fun outer => outer.length + 1) h.outer

theorem outer_ne_nil (h : c.Underlies env) : env.outer ≠ [] := by
  rw [h.outer]
  exact List.cons_ne_nil _ _

end Closure.Underlies

/-- A closure is entered over its scope. -/
theorem Closure.underlies_callEnv (c : Closure Value) (args : List Value) :
    c.Underlies (c.callEnv args) := by
  have hpush : c.Underlies c.scope.push := ⟨rfl, rfl⟩
  rw [c.callEnv_eq]
  exact hpush.bindAll _

/-- However the body ends, it has bound what it defines in the new frame; then the
    caller has its environment back. -/
theorem Closure.result_enter {σ : Type} [Host σ] (c : Closure Value) (args : List Value)
    (limit remaining line : Nat) (s : Store) (host : σ) :
    let body := (Expr.evalSteps (Closure.enter limit remaining) c.body
      { s with env := c.callEnv args }).result host
    (Closure.enter limit (remaining + 1) c args line s).result host
        = ((body.1.1, { body.1.2 with env := s.env }), body.2) ∧
      c.Underlies body.1.2.env ∧
      ∀ name, name ∉ Expr.targetsAll c.body →
        body.1.2.env.innermost.get? name = (c.callEnv args).innermost.get? name := by
  intro body
  have hbinds : Store.Binds (Expr.targetsAll c.body) { s with env := c.callEnv args } body.1.2 :=
    Expr.binds_evalSteps (fun e _ => Expr.binds_eval (Closure.detached_enter limit remaining) e)
      σ _ host
  have hstart := c.underlies_callEnv args
  exact ⟨rfl, ⟨hbinds.outer.trans hstart.outer, hbinds.builtins.trans hstart.builtins⟩,
    hbinds.others⟩

/-! ## What a step does to the stack and to the live environment -/

/-- What waits has put a frame or an environment of its own in place. -/
def Pending.opensScope : Pending → Bool
  | .branch | .caller _ => true
  | _ => false

/-- The live environment once this is left: the frame of a branch goes, and a
    caller gets its own environment back. -/
def Pending.leave (live : Env Value) : Pending → Env Value
  | .branch => live.pop
  | .caller env => env
  | _ => live

/-- What opens no scope gives back the live environment. -/
theorem Pending.leave_eq_self {k : Pending} (h : k.opensScope = false) (live : Env Value) :
    k.leave live = live := by
  cases k <;> first | rfl | cases h

namespace Machine

/-- The live environment once all this is left. -/
def unwound (live : Env Value) (ks : List Pending) : Env Value :=
  ks.foldl (fun live k => k.leave live) live

theorem unwound_cons (live : Env Value) (k : Pending) (ks : List Pending) :
    unwound live (k :: ks) = unwound (k.leave live) ks := rfl

/-- Where nothing has opened a scope, the live environment is the one underneath. -/
theorem unwound_eq_self {ks : List Pending} (h : ∀ k ∈ ks, k.opensScope = false)
    (live : Env Value) : unwound live ks = live := by
  induction ks with
  | nil => rfl
  | cons k ks ih =>
      obtain ⟨hk, hks⟩ := List.forall_mem_cons.mp h
      rw [unwound_cons, Pending.leave_eq_self hk]
      exact ih hks

/-- What is bound in a branch or in another call is not bound once that is left. -/
theorem unwound_bind {ks : List Pending} (h : ∃ k ∈ ks, k.opensScope = true) {live : Env Value}
    (hne : (unwound live ks).outer ≠ []) (name : String) (v : Value) :
    unwound (live.bind name v) ks = unwound live ks := by
  induction ks generalizing live with
  | nil =>
      obtain ⟨k, hk, -⟩ := h
      cases hk
  | cons k ks ih =>
      rw [unwound_cons] at hne
      rw [unwound_cons, unwound_cons]
      cases hopens : k.opensScope with
      | false =>
          rw [Pending.leave_eq_self hopens] at hne ⊢
          rw [Pending.leave_eq_self hopens]
          obtain ⟨k', hk', hopens'⟩ := h
          refine ih ⟨k', (List.mem_cons.mp hk').resolve_left ?_, hopens'⟩ hne
          rintro rfl
          rw [hopens] at hopens'
          cases hopens'
      | true =>
          cases k with
          | caller env => rfl
          | branch =>
              obtain ⟨innermost, outer, builtins⟩ := live
              cases outer with
              | cons frame outer => rfl
              | nil =>
                  -- the last frame is not dropped; but then another call is left as well
                  refine ih ?_ hne
                  by_contra hnone
                  have hlevel : ∀ k ∈ ks, k.opensScope = false := fun k hk =>
                    Bool.eq_false_iff.mpr fun hopens => hnone ⟨k, hk, hopens⟩
                  rw [unwound_eq_self hlevel] at hne
                  exact hne rfl
          | _ => cases hopens

variable {σ : Type}

/-- The definition that the next step makes: of a function, or of a value that was
    waited for. -/
def defined? (m : Machine σ) : Option (String × Value) :=
  match m.control, m.stack with
  | .eval (.define name (.function params body _) _), _ =>
    some (name, m.close params body (some name))
  | .value v, .define name :: _ => some (name, v)
  | _, _ => none

/-- The live environment with that definition. -/
def defining (m : Machine σ) : Env Value :=
  m.env.bindAll m.defined?.toList

/-- What a step does to the stack and to the live environment.  Whatever it takes
    off the stack or puts there, the environment that is left in the end differs
    by the definition only. -/
inductive Moves (m m' : Machine σ) : Prop where
  | stay : m'.stack = m.stack → m'.env = m.defining → Moves m m'
  | push {k : Pending} : m'.stack = k :: m.stack → k.leave m'.env = m.defining → Moves m m'
  | pop {k : Pending} : m.stack = k :: m'.stack → m'.env = k.leave m.defining → Moves m m'
  | swap {k k' : Pending} {ks : List Pending} : (∀ env, k ≠ .caller env) → m.stack = k :: ks →
      m'.stack = k' :: ks → k'.leave m'.env = k.leave m.defining → Moves m m'

theorem moves_startEval (m : Machine σ) {e : Expr} (h : m.control = .eval e) :
    Moves m (m.startEval e) := by
  obtain ⟨store, control, stack, depth, host⟩ := m
  cases h
  cases e with
  | literal | group | function => exact .stay rfl rfl
  | symbol name n =>
      rw [startEval]
      split <;> exact .stay rfl rfl
  | define name value n =>
      cases value with
      | function => exact .stay rfl rfl
      | _ => exact .push rfl rfl
  | list | unary | binary | choice | call => exact .push rfl rfl

theorem moves_resume {m m' : Machine σ} {k : Pending} {v : Value} {ks : List Pending}
    (hcontrol : m.control = .value v) (hstack : m.stack = k :: ks)
    (h : { m with stack := ks }.resume k v = some m') : Moves m m' := by
  obtain ⟨store, control, stack, depth, host⟩ := m
  cases hcontrol
  cases hstack
  have hnot : ∀ {k : Pending}, k.opensScope = false → ∀ env, k ≠ .caller env := by
    rintro k hopens env rfl
    cases hopens
  cases k with
  | list | args => cases h
  | left | right | test | callee | filtered =>
      simp only [resume] at h
      (repeat' split at h) <;> cases h <;>
        first | exact .pop rfl rfl | exact .swap (hnot rfl) rfl rfl rfl
  | _ =>
      cases h
      exact .pop rfl rfl

theorem moves_deliver {m m' : Machine σ} {k : Pending} {vs : List Value} {ks : List Pending}
    (hcontrol : m.control = .values vs) (hstack : m.stack = k :: ks)
    (h : { m with stack := ks }.deliver k vs = some m') : Moves m m' := by
  obtain ⟨store, control, stack, depth, host⟩ := m
  cases hcontrol
  cases hstack
  cases k with
  | list | args =>
      cases h
      exact .pop rfl rfl
  | _ => cases h

/-- An error that passes through what is pending. -/
theorem moves_unwind {m : Machine σ} {k : Pending} {err : RuntimeError} {ks : List Pending}
    (hcontrol : m.control = .fail err) (hstack : m.stack = k :: ks) :
    Moves m ({ m with stack := ks }.unwind k err) ∨
      ({ m with stack := ks }.unwind k err).stack = [] := by
  obtain ⟨store, control, stack, depth, host⟩ := m
  cases hcontrol
  cases hstack
  cases k with
  | unit => exact .inr rfl
  | _ => exact .inl (.pop rfl rfl)

variable [Host σ] {limit : Nat} {m m' : Machine σ}

/-- A detached step leaves the environment of the machine. -/
theorem env_perform (m : Machine σ) {x : Eval Value} (hx : Eval.Detached x) :
    (m.perform x).env = m.env :=
  hx.env_eq m.toStore m.host

theorem moves_startCall (m : Machine σ) {f : Callable Value} {args : List Value} {n : Nat}
    (h : m.control = .call f args n) : Moves m (m.startCall limit f args n) := by
  have hdefining : m.defining = m.env := by
    obtain ⟨store, control, stack, depth, host⟩ := m
    cases h
    rfl
  have hperform : ∀ x : Eval Value, Eval.Detached x → Moves m (m.perform x) := fun x hx =>
    .stay rfl ((m.env_perform hx).trans hdefining.symm)
  unfold startCall
  split
  · exact .stay rfl hdefining.symm
  · split
    · split
      · exact .stay rfl hdefining.symm
      · exact .push rfl hdefining.symm
    · split
      · exact .push rfl hdefining.symm
      · exact hperform _ (Builtin.detached_violation _ _ _)
    · split
      · exact .push rfl hdefining.symm
      · exact hperform _ (Builtin.detached_violation _ _ _)
    · exact hperform _ (Builtin.detached_plain _ _ _)

/-- Every step moves so, but for one that gives up a source unit. -/
theorem moves_step (h : m.step limit = some m') : Moves m m' ∨ m'.stack = [] := by
  obtain ⟨store, control, stack, depth, host⟩ := m
  cases control with
  | eval e =>
      cases h
      exact .inl (moves_startEval _ rfl)
  | call f args n =>
      cases h
      exact .inl (moves_startCall _ rfl)
  | evalAll done es =>
      cases es with
      | nil =>
          cases h
          exact .inl (.stay rfl rfl)
      | cons e es =>
          cases h
          exact .inl (.push rfl rfl)
  | evalSteps es =>
      match es with
      | [] | [_] =>
          cases h
          exact .inl (.stay rfl rfl)
      | _ :: _ :: _ =>
          cases h
          exact .inl (.push rfl rfl)
  | mapItems f n done vs =>
      cases vs with
      | nil =>
          cases h
          exact .inl (.stay rfl rfl)
      | cons v vs =>
          cases h
          exact .inl (.push rfl rfl)
  | filterItems f n done vs =>
      cases vs with
      | nil =>
          cases h
          exact .inl (.stay rfl rfl)
      | cons v vs =>
          cases h
          exact .inl (.push rfl rfl)
  | evalUnit done es =>
      cases es with
      | nil =>
          cases h
          exact .inl (.stay rfl rfl)
      | cons e es =>
          cases h
          exact .inl (.push rfl rfl)
  | value v =>
      cases stack with
      | nil => cases h
      | cons k ks => exact .inl (moves_resume rfl rfl h)
  | values vs =>
      cases stack with
      | nil => cases h
      | cons k ks => exact .inl (moves_deliver rfl rfl h)
  | fail err =>
      cases stack with
      | nil => cases h
      | cons k ks =>
          cases h
          exact moves_unwind rfl rfl
  | read source =>
      simp only [step] at h
      split at h <;> cases h <;> exact .inl (.stay rfl rfl)
  | finished r => cases h

/-! ## While a call lasts -/

omit [Host σ] in
/-- Seen from the start of a call, a step changes the environment by its definition
    only. -/
theorem Moves.unwound_eq (h : Moves m m') {env : Env Value} {ks above above' : List Pending}
    (hm : m.stack = above ++ .caller env :: ks) (hm' : m'.stack = above' ++ .caller env :: ks) :
    unwound m'.env above' = unwound m.defining above := by
  cases h with
  | stay hstack henv =>
      obtain rfl : above' = above := by
        rw [hm, hm'] at hstack
        exact List.append_cancel_right hstack
      rw [henv]
  | @push k hstack henv =>
      obtain rfl : above' = k :: above := by
        rw [hm, hm', ← List.cons_append] at hstack
        exact List.append_cancel_right hstack
      rw [unwound_cons, henv]
  | @pop k hstack henv =>
      obtain rfl : above = k :: above' := by
        rw [hm, hm', ← List.cons_append] at hstack
        exact List.append_cancel_right hstack
      rw [unwound_cons, henv]
  | @swap k k' rest hk hstack hstack' henv =>
      rw [hm] at hstack
      cases above with
      | nil =>
          cases hstack
          exact absurd rfl (hk env)
      | cons top above =>
          rw [List.cons_append] at hstack
          obtain ⟨rfl, rfl⟩ := List.cons.inj hstack
          obtain rfl : above' = k' :: above := by
            rw [hm', ← List.cons_append] at hstack'
            exact List.append_cancel_right hstack'
          rw [unwound_cons, unwound_cons, henv]

/-- The definition that the next step makes, if it stands neither in a branch nor
    in a further call of those above. -/
def ownDefinition? (m : Machine σ) (above : List Pending) : Option (String × Value) :=
  if ∀ k ∈ above, k.opensScope = false then m.defined? else none

omit [Host σ] in
/-- A definition shows in the environment underneath only if no scope was opened
    above it. -/
theorem unwound_defining {above : List Pending} (hne : (unwound m.env above).outer ≠ []) :
    unwound m.defining above
      = (unwound m.env above).bindAll (m.ownDefinition? above).toList := by
  unfold defining ownDefinition?
  split
  · next hlevel => rw [unwound_eq_self hlevel, unwound_eq_self hlevel]
  · next hopens =>
      cases m.defined? with
      | none => rfl
      | some entry =>
          refine unwound_bind ?_ hne entry.1 entry.2
          simpa using hopens

/-- A call of a closure is made in `m` and has its body begin in `m'`. -/
structure Enters (limit : Nat) (c : Closure Value) (args : List Value) (m m' : Machine σ) :
    Prop where
  called : ∃ n, m.control = .call (.closure c) args n
  step : m.step limit = some m'
  opened : m'.stack = .caller m.env :: m.stack

/-- Goes on without leaving the call that comes back to the top of `bottom`. -/
abbrev Inside (limit : Nat) (bottom : List Pending) : Machine σ → Machine σ → Prop :=
  Relation.ReflTransGen fun m m' => m.step limit = some m' ∧ bottom <:+ m'.stack

/-- A moment in a call of a closure.  The environment of the call is one frame over
    what the closure has captured, and the next step in the call changes it, in
    that frame, by a definition of its own, if it makes one. -/
structure Activation (limit : Nat) (c : Closure Value) (bottom above : List Pending)
    (m : Machine σ) : Prop where
  stack : m.stack = above ++ bottom
  underlies : c.Underlies (unwound m.env above)
  next : ∀ m' above', m.step limit = some m' → m'.stack = above' ++ bottom →
    unwound m'.env above' = (unwound m.env above).bindAll (m.ownDefinition? above).toList

section Call

variable {c : Closure Value} {args : List Value}

/-- Below the limit a closure is entered. -/
theorem exists_enters {n : Nat} (hcontrol : m.control = .call (.closure c) args n)
    (hlength : args.length = c.params.length) (hdepth : m.depth < limit) :
    ∃ m', Enters limit c args m m' := by
  obtain ⟨store, control, stack, depth, host⟩ := m
  cases hcontrol
  refine ⟨_, ⟨n, rfl⟩, rfl, ?_⟩
  have hcount : ¬ (Callable.closure c).arity ≠ args.length := fun hne => hne hlength.symm
  have hroom : ¬ (limit : Int) ≤ depth := Int.not_le.mpr hdepth
  unfold startCall
  rw [if_neg hcount]
  dsimp only
  rw [if_neg hroom]

/-- The body of a closure begins in the environment of the call. -/
theorem Enters.start (h : Enters limit c args m m') :
    m'.control = .evalSteps c.body ∧ m'.env = c.callEnv args := by
  obtain ⟨⟨n, hcontrol⟩, hstep, hopened⟩ := h
  refine (entered_step hstep hcontrol).resolve_left ?_
  rintro ⟨err, hfail⟩
  obtain ⟨store, control, stack, depth, host⟩ := m
  cases hcontrol
  cases hstep
  unfold startCall at hfail hopened
  split at hfail
  · next hcount =>
      rw [if_pos hcount] at hopened
      exact List.cons_ne_self _ _ hopened.symm
  · next hcount =>
      rw [if_neg hcount] at hopened
      dsimp only at hfail hopened
      split at hfail
      · next hroom =>
          rw [if_pos hroom] at hopened
          exact List.cons_ne_self _ _ hopened.symm
      · cases hfail

/-- What the closure has captured lies under the environment of the call, so the
    next step can only bind in the frame of the call. -/
theorem activation_of_underlies {env : Env Value} {ks above : List Pending}
    (hstack : m.stack = above ++ .caller env :: ks)
    (h : c.Underlies (unwound m.env above)) :
    Activation limit c (.caller env :: ks) above m := by
  refine ⟨hstack, h, ?_⟩
  intro m' above' hstep hstack'
  have hmoves : Moves m m' := by
    refine (moves_step hstep).resolve_right ?_
    rw [hstack']
    exact List.append_ne_nil_of_right_ne_nil _ (List.cons_ne_nil _ _)
  exact (hmoves.unwound_eq hstack hstack').trans (unwound_defining h.outer_ne_nil)

/-- Every moment from the start of a call on is one in the call. -/
theorem Enters.activation (h : Enters limit c args m m') {m₂ : Machine σ}
    (hin : Inside limit m'.stack m' m₂) :
    ∃ above, Activation limit c m'.stack above m₂ := by
  rw [h.opened] at hin ⊢
  induction hin with
  | refl =>
      refine ⟨[], activation_of_underlies h.opened ?_⟩
      rw [h.start.2]
      exact c.underlies_callEnv args
  | tail _ hs ih =>
      obtain ⟨above, hactive⟩ := ih
      obtain ⟨hstep, above', habove'⟩ := hs
      refine ⟨above', activation_of_underlies habove'.symm ?_⟩
      rw [hactive.next _ above' hstep habove'.symm]
      exact hactive.underlies.bindAll _

end Call

end Machine

/-! ## All calls of a session -/

namespace Desk

variable {σ : Type} [Host σ]

/-- During some acts, the body of the closure begins in this machine. -/
inductive Entered : Desk σ → List Act → Closure Value → List Value → Machine σ → Prop where
  | during {d : Desk σ} {a : Act} {acts : List Act} {c : Closure Value} {args : List Value}
      {m m₁ m₂ : Machine σ} : a.machine? d = some m →
      Machine.Reaches d.session.settings.maxDepth m m₁ →
      Machine.Enters d.session.settings.maxDepth c args m₁ m₂ → Entered d (a :: acts) c args m₂
  | later {d : Desk σ} {a : Act} {acts : List Act} {c : Closure Value} {args : List Value}
      {m : Machine σ} : Entered (d.act a) acts c args m → Entered d (a :: acts) c args m

variable {d : Desk σ} {acts : List Act} {c : Closure Value} {args : List Value} {m : Machine σ}

/-- What was entered existed. -/
theorem Entered.existed (h : d.Entered acts c args m) : d.Existed acts (.closure c) := by
  induction h with
  | @during d a acts c args m m₁ m₂ hm hr henters =>
      obtain ⟨n, hcontrol⟩ := henters.called
      refine .during hm hr (.inl ⟨.function (.closure c), ?_, .self _⟩)
      rw [hcontrol]
      exact List.mem_append_left _ List.mem_cons_self
  | later _ ih => exact .later ih

/-- A closure is entered in the environment of its call. -/
theorem Entered.env_eq (h : d.Entered acts c args m) : m.env = c.callEnv args := by
  induction h with
  | during _ _ henters => exact henters.start.2
  | later _ ih => exact ih

/-- Functions of a session that compare equal are the same in all parts. -/
theorem Logged.eq_of_equal {before : List (Closure Value)} (h : d.Logged before)
    (ha : d.Allows acts) {f g : Callable Value} (hf : d.Existed acts f) (hg : d.Existed acts g)
    (heq : (Value.function f).equal (.function g) = true) : f = g := by
  obtain ⟨made, hmade⟩ := d.exists_makes acts
  obtain ⟨o, ho⟩ := h.stems_of_existed ha hmade hf
  obtain ⟨p, hp⟩ := h.stems_of_existed ha hmade hg
  rw [equal_function] at heq
  obtain rfl := (ho.isSame_iff (h.makes ha hmade).numbered hp).mp heq
  exact ho.eq hp

/-- **Every call starts from the closure.**  With as many arguments as there are
    parameters, the environment of a call has one frame more than the closure
    has captured, and a symbol means there what it resolves to: its last
    parameter, else the closure itself, else what was captured.  However the
    body ends, and at every moment before, the definitions made in it are in
    that frame and nothing else of the environment has changed.  And over a
    whole session, all calls of one function start from one and the same closure,
    whatever was defined in earlier calls of it or in those that still last. -/
theorem calls_start_from_the_closure (settings : Settings) (randomness : Randomness) (host : σ)
    (acts : List Act) (h : (opened settings randomness host).Allows acts) :
    (∀ (c : Closure Value) (args : List Value), args.length = c.params.length →
      (c.callEnv args).depth = c.scope.depth + 1 ∧
      (∀ name, c.Resolves args name ((c.callEnv args).lookup? name)) ∧
      (∀ (limit remaining line : Nat) (s : Store) (host : σ),
        let body := (Expr.evalSteps (Closure.enter limit remaining) c.body
          { s with env := c.callEnv args }).result host
        (Closure.enter limit (remaining + 1) c args line s).result host
            = ((body.1.1, { body.1.2 with env := s.env }), body.2) ∧
          c.Underlies body.1.2.env ∧
          ∀ name, name ∉ Expr.targetsAll c.body →
            body.1.2.env.innermost.get? name = (c.callEnv args).innermost.get? name) ∧
      ∀ (limit n : Nat) (m : Machine σ), m.control = .call (.closure c) args n →
        m.depth < limit → ∃ m', Machine.Enters limit c args m m') ∧
    (∀ (limit : Nat) (c : Closure Value) (args : List Value) (m m' : Machine σ),
      Machine.Enters limit c args m m' →
        m'.control = .evalSteps c.body ∧ m'.env = c.callEnv args ∧
        ∀ m₂, Machine.Inside limit m'.stack m' m₂ →
          ∃ above, Machine.Activation limit c m'.stack above m₂) ∧
    ∀ (c c' : Closure Value) (args args' : List Value) (m m' : Machine σ),
      (opened settings randomness host).Entered acts c args m →
      (opened settings randomness host).Entered acts c' args' m' →
      (Value.function (.closure c)).equal (.function (.closure c')) = true →
        c' = c ∧ m.env = c.callEnv args ∧ m'.env = c.callEnv args' := by
  refine ⟨?_, ?_, ?_⟩
  · intro c args hlength
    refine ⟨(c.underlies_callEnv args).depth_eq, Closure.resolves_lookup? hlength, ?_, ?_⟩
    · exact c.result_enter args
    · intro limit n m hcontrol hdepth
      exact Machine.exists_enters hcontrol hlength hdepth
  · intro limit c args m m' henters
    obtain ⟨hcontrol, henv⟩ := henters.start
    exact ⟨hcontrol, henv, fun m₂ hin => henters.activation hin⟩
  · intro c c' args args' m m' hentered hentered' heq
    have hopened := logged_opened settings randomness host
    have hsame := hopened.eq_of_equal h hentered.existed hentered'.existed heq
    obtain rfl : c = c' := Callable.closure.inj hsame
    exact ⟨rfl, hentered.env_eq, hentered'.env_eq⟩

/-- A function that has two parameters of one name and defines that name anew, so
    that nothing is left of its arguments; called again, it is given them as
    before. -/
theorem calls_start_from_the_closure_repeated :
    let body : List Expr := [.define "x" (.symbol "f" 1) 1, .symbol "x" 1]
    let c : Closure Value := ⟨0, ["x", "x"], body, .ofBuiltins builtinFrame, some "f"⟩
    let args : List Value := [.bool true, .bool false]
    let acts : List Act :=
      [.interpret "f = \\x, x \x7b x = f x \x7d", .call (.closure c) args 1,
        .call (.closure c) args 1]
    let d := opened { maxDepth := 2 } (fun _ => .always 0) ({} : Buffer)
    d.Allows acts ∧ ∃ m m' : Machine Buffer, d.Entered acts c args m ∧ d.Entered acts c args m' ∧
      m.env = c.callEnv args ∧ m'.env = c.callEnv args ∧
      m'.env.lookup? "x" = some (.bool false) := by
  intro body c args acts d
  let first := d.act (.interpret "f = \\x, x \x7b x = f x \x7d")
  let second := first.act (.call (.closure c) args 1)
  have hfirst : first.returned = [.function (.closure c)] := rfl
  have hsecond : second.returned = [.function (.closure c), .function (.closure c)] := rfl
  have howns : ∀ e : Desk Buffer, .function (.closure c) ∈ e.returned →
      (Act.call (.closure c) args 1).Allowed e := by
    intro e hmem
    refine ⟨owns_of_mem_returned hmem, ?_⟩
    intro v hv c' hc'
    simp only [args, List.mem_cons, List.not_mem_nil, or_false] at hv
    rcases hv with rfl | rfl <;> cases hc'
  have hallows : d.Allows acts := by
    refine ⟨trivial, howns first ?_, howns second ?_, trivial⟩
    · rw [hfirst]
      exact List.mem_cons_self
    · rw [hsecond]
      exact List.mem_cons_self
  obtain ⟨hcalls, -, hsame⟩ :=
    calls_start_from_the_closure { maxDepth := 2 } (fun _ => .always 0) ({} : Buffer) acts hallows
  have henters : ∀ e : Desk Buffer, e.session.depth < e.session.settings.maxDepth →
      ∃ m', Machine.Enters e.session.settings.maxDepth c args
        (e.session.machine e.host (.call (.closure c) args 1)) m' := fun e hdepth =>
    (hcalls c args rfl).2.2.2 _ 1 _ rfl (Int.ofNat_lt.mpr hdepth)
  obtain ⟨m, hm⟩ := henters first (by decide)
  obtain ⟨m', hm'⟩ := henters second (by decide)
  have hentered : d.Entered acts c args m := .later (.during rfl .refl hm)
  have hentered' : d.Entered acts c args m' := .later (.later (.during rfl .refl hm'))
  have hequal : (Value.function (.closure c)).equal (.function (.closure c)) = true :=
    equal_function _ _
  obtain ⟨-, henv, henv'⟩ := hsame c c args args m m' hentered hentered' hequal
  refine ⟨hallows, m, m', hentered, hentered', henv, henv', ?_⟩
  rw [henv']
  rfl

end Desk

end Scriptlet
