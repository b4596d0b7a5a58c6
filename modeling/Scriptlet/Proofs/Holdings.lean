import Scriptlet.Proofs.Likeness
import Scriptlet.Proofs.Machine

/-! # What a run deals with

    All that a machine holds between two steps: values, code, lines and
    environments, in its control, on its stack and in the live environment.  A
    step only passes these on.  Values come from values, code from code that it
    was part of or from the body of a closure, lines from code; and the only new
    closure is the one that a function makes when it is evaluated
    (`Machine.made?`).

    So a property of closures and code that is handed down to what they are made
    of (`Trait`) stays with a machine: one step keeps it (`Machine.Keeps.step`)
    if the closure that it makes has it, and a whole run does
    (`Machine.Keeps.reaches`) if functions pass it on to their closures. -/

namespace Scriptlet

/-! ## Functions in values -/

/-- A function is in a value: it is the value, or is in an item of a list, or in
    the environment of a closure. -/
inductive Value.Contains : Value → Callable Value → Prop where
  | self (f : Callable Value) : Contains (.function f) f
  | item {items : Items Value} {v : Value} {f : Callable Value} :
      v ∈ items.toList → Contains v f → Contains (.list items) f
  | captured {c : Closure Value} {v : Value} {f : Callable Value} :
      c.scope.Holds v → Contains v f → Contains (.function (.closure c)) f

/-- A function is in a value that the environment holds. -/
def Env.Contains (env : Env Value) (f : Callable Value) : Prop :=
  ∃ v, env.Holds v ∧ v.Contains f

/-- Every closure in the value is of a kind. -/
def Value.Only (P : Closure Value → Prop) (v : Value) : Prop :=
  ∀ c, v.Contains (.closure c) → P c

/-- Every closure in the environment is of a kind. -/
def Env.Only (P : Closure Value → Prop) (env : Env Value) : Prop :=
  ∀ v, env.Holds v → v.Only P

section Only

variable {P : Closure Value → Prop}

namespace Value

/-- Data has no closures in it. -/
theorem only_data {v : Value} (hf : v.function? = none) (hl : v.list? = none) : v.Only P := by
  intro c hc
  cases hc with
  | self | captured => cases hf
  | item => cases hl

/-- A builtin holds no closure. -/
theorem only_builtin (b : Builtin) : (Value.function (.builtin b)).Only P := by
  intro c hc
  cases hc

/-- A list holds what its items hold. -/
theorem only_list {items : Items Value} :
    (Value.list items).Only P ↔ ∀ v ∈ items.toList, v.Only P := by
  constructor
  · intro h v hv c hc
    exact h c (.item hv hc)
  · intro h c hc
    cases hc with
    | item hv hc => exact h _ hv c hc

/-- A closure holds itself and what is bound in its scope. -/
theorem only_closure {c : Closure Value} :
    (Value.function (.closure c)).Only P ↔ P c ∧ c.scope.Only P := by
  constructor
  · intro h
    exact ⟨h c (.self _), fun v hv d hd => h d (.captured hv hd)⟩
  · rintro ⟨hc, hscope⟩ d hd
    cases hd with
    | self => exact hc
    | captured hv hd => exact hscope _ hv d hd

theorem only_ofLiteral (value : Literal) : (Value.ofLiteral value).Only P := by
  cases value <;> exact only_data rfl rfl

end Value

namespace Env

variable {env : Env Value}

/-- A new frame holds nothing. -/
theorem holds_push {v : Value} (h : env.push.Holds v) : env.Holds v := by
  obtain ⟨frame, hframe, entry, hentry, rfl⟩ := h
  rcases List.mem_cons.mp hframe with rfl | hframe
  · exact ⟨_, List.mem_cons_self .., entry, hentry, rfl⟩
  · rcases List.mem_cons.mp hframe with rfl | hframe
    · cases hentry
    · exact ⟨frame, List.mem_cons_of_mem _ hframe, entry, hentry, rfl⟩

/-- Dropping a frame adds nothing; the last frame stays. -/
theorem holds_pop {v : Value} (h : env.pop.Holds v) : env.Holds v := by
  obtain ⟨innermost, outer, builtins⟩ := env
  cases outer with
  | nil => exact h
  | cons frame outer =>
      obtain ⟨other, hother, entry, hentry, rfl⟩ := h
      rcases List.mem_cons.mp hother with rfl | hother
      · exact ⟨_, List.mem_cons_self .., entry, hentry, rfl⟩
      · exact ⟨other, List.mem_cons_of_mem _ (List.mem_cons_of_mem _ hother), entry, hentry, rfl⟩

/-- What a frame has after a symbol was set in it is the new value or was there before. -/
theorem mem_entries_set {frame : Frame Value} {name : String} {a : Value}
    {entry : String × Value} (h : entry ∈ (frame.set name a).entries) :
    entry.2 = a ∨ entry ∈ frame.entries := by
  unfold Frame.set at h
  split at h
  · obtain ⟨old, hold, rfl⟩ := List.mem_map.mp h
    split
    · exact Or.inl rfl
    · exact Or.inr hold
  · rcases List.mem_cons.mp h with rfl | h
    · exact Or.inl rfl
    · exact Or.inr h

/-- A binding adds nothing but what is bound. -/
theorem holds_bind {name : String} {a v : Value} (h : (env.bind name a).Holds v) :
    v = a ∨ env.Holds v := by
  obtain ⟨frame, hframe, entry, hentry, rfl⟩ := h
  rcases List.mem_cons.mp hframe with rfl | hframe
  · exact Or.inr ⟨_, List.mem_cons_self .., entry, hentry, rfl⟩
  · rcases List.mem_cons.mp hframe with rfl | hframe
    · refine (mem_entries_set hentry).imp id fun hold => ?_
      exact ⟨env.innermost, List.mem_cons_of_mem _ (List.mem_cons_self ..), entry, hold, rfl⟩
    · have hmem : frame ∈ env.frames := List.mem_cons_of_mem _ hframe
      exact Or.inr ⟨frame, List.mem_cons_of_mem _ hmem, entry, hentry, rfl⟩

theorem Only.push (h : env.Only P) : env.push.Only P :=
  fun v hv => h v (holds_push hv)

theorem Only.pop (h : env.Only P) : env.pop.Only P :=
  fun v hv => h v (holds_pop hv)

/-- A value that may be held can be bound. -/
theorem Only.bind (h : env.Only P) (name : String) {a : Value} (ha : a.Only P) :
    (env.bind name a).Only P := by
  intro v hv
  rcases holds_bind hv with rfl | hv
  · exact ha
  · exact h v hv

/-- Values that may be held can be bound one after the other. -/
theorem Only.bindAll {entries : List (String × Value)} (h : env.Only P)
    (hentries : ∀ entry ∈ entries, entry.2.Only P) : (env.bindAll entries).Only P := by
  induction entries generalizing env with
  | nil => exact h
  | cons entry entries ih =>
      obtain ⟨hentry, hrest⟩ := List.forall_mem_cons.mp hentries
      exact ih (h.bind entry.1 hentry) hrest

/-- Looking up gives what is held. -/
theorem Only.lookup? (h : env.Only P) {name : String} {v : Value}
    (hv : env.lookup? name = some v) : v.Only P :=
  h v (holds_of_lookup? hv)

@[simp] theorem builtins_push (env : Env Value) : env.push.builtins = env.builtins := rfl

@[simp] theorem builtins_pop (env : Env Value) : env.pop.builtins = env.builtins := by
  unfold pop
  split <;> rfl

@[simp] theorem builtins_bindAll (env : Env Value) (entries : List (String × Value)) :
    (env.bindAll entries).builtins = env.builtins := by
  induction entries generalizing env with
  | nil => rfl
  | cons entry entries ih => exact ih (env.bind entry.1 entry.2)

end Env

end Only

/-! ## What a machine holds -/

/-- The values in a control. -/
def Control.heldValues : Control → List Value
  | .evalAll done _ | .evalUnit done _ => done
  | .call f args _ => .function f :: args
  | .mapItems f _ done vs | .filterItems f _ done vs => .function f :: (done ++ vs)
  | .value v => [v]
  | .values vs | .finished (.ok vs) => vs
  | _ => []

/-- The code in a control; a source that is still to be read counts as the
    program it will be read as. -/
def Control.heldCode : Control → List Expr
  | .eval e => [e]
  | .evalAll _ es | .evalSteps es | .evalUnit _ es => es
  | .read source =>
    match Program.read source with
    | .ok program => program
    | .error _ => []
  | _ => []

/-- The lines of a call or of an error during evaluation. -/
def Control.heldLines : Control → List Nat
  | .call _ _ n | .mapItems _ n _ _ | .filterItems _ n _ _ => [n]
  | .fail err | .finished (.error (.runtime err)) => [err.line]
  | _ => []

/-- The sequence that a control evaluates. -/
def Control.heldBlocks : Control → List (List Expr)
  | .evalSteps es => [es]
  | _ => []

/-- The values that wait to be used. -/
def Pending.heldValues : Pending → List Value
  | .item done _ | .unit _ done _ => done
  | .right _ l _ _ _ => [l]
  | .args f _ => [.function f]
  | .mapped f _ done rest => .function f :: (done ++ rest)
  | .filtered f _ v done rest => .function f :: v :: (done ++ rest)
  | _ => []

/-- The code that waits to be evaluated. -/
def Pending.heldCode : Pending → List Expr
  | .item _ rest | .steps rest | .unit _ _ rest => rest
  | .left _ _ rhs _ => [rhs]
  | .test _ yes no _ => yes ++ no
  | .callee _ es _ => es
  | _ => []

/-- The lines that an error may name later. -/
def Pending.heldLines : Pending → List Nat
  | .unary _ _ n | .left _ _ _ n | .right _ _ _ _ n | .test _ _ _ n | .callee _ _ n | .args _ n
  | .mapped _ n _ _ | .filtered _ n _ _ _ => [n]
  | _ => []

/-- The sequences that wait to be evaluated. -/
def Pending.heldBlocks : Pending → List (List Expr)
  | .test _ yes no _ => [yes, no]
  | .steps rest => [rest]
  | _ => []

/-- The environments that wait to become live again. -/
def Pending.heldEnvs : Pending → List (Env Value)
  | .caller env | .unit env _ _ => [env]
  | _ => []

namespace Machine

variable {σ : Type}

/-- A function is somewhere in a machine. -/
def Contains (m : Machine σ) (f : Callable Value) : Prop :=
  (∃ v ∈ m.control.heldValues ++ m.stack.flatMap Pending.heldValues, v.Contains f) ∨
    ∃ env ∈ m.env :: m.stack.flatMap Pending.heldEnvs, env.Contains f

/-- The closure that the next step makes: one that evaluates a function, which
    stands alone or is the value of a definition, in the live environment. -/
def made? (m : Machine σ) : Option (Closure Value) :=
  match m.control with
  | .eval (.function params body _) => some ⟨m.nextIdentity, params, body, m.env, none⟩
  | .eval (.define name (.function params body _) _) =>
    some ⟨m.nextIdentity, params, body, m.env, some name⟩
  | _ => none

end Machine

/-! ## Traits -/

/-- A property that closures and code hand down to what they are made of: code to
    its parts, its blocks and its line, a block to what is left of it after a
    step, and a closure to its body and to the builtins that it sees. -/
structure Trait where
  closure : Closure Value → Prop
  code : Expr → Prop
  block : List Expr → Prop
  line : Nat → Prop
  builtins : Frame Value → Prop
  part : ∀ {e p}, code e → p ∈ e.parts → code p
  line_of_code : ∀ {e}, code e → line e.line
  block_of_code : ∀ {e}, code e → ∀ b ∈ e.blocks, block b
  block_rest : ∀ {e f es}, block (e :: f :: es) → block (f :: es)
  body : ∀ {c}, closure c → ∀ e ∈ c.body, code e
  block_of_closure : ∀ {c}, closure c → block c.body
  scope : ∀ {c}, closure c → builtins c.scope.builtins

namespace Trait

/-- The closures in the value have the trait. -/
def value (T : Trait) (v : Value) : Prop :=
  v.Only T.closure

/-- The builtins of the environment and the closures in it have the trait. -/
structure Environment (T : Trait) (env : Env Value) : Prop where
  builtins : T.builtins env.builtins
  only : env.Only T.closure

/-- The closures in a result have the trait, or the line of an error has. -/
def result (T : Trait) : Except RuntimeError Value → Prop
  | .ok v => T.value v
  | .error err => T.line err.line

/-- Functions with the trait make closures with the trait. -/
def Closes (T : Trait) : Prop :=
  ∀ {params : List String} {body : List Expr} {n : Nat} {env : Env Value} (identity : Nat)
    (selfName? : Option String), T.code (.function params body n) → T.Environment env →
    T.closure ⟨identity, params, body, env, selfName?⟩

variable {T : Trait}

theorem Environment.push {env : Env Value} (h : T.Environment env) : T.Environment env.push :=
  ⟨h.builtins, h.only.push⟩

theorem Environment.pop {env : Env Value} (h : T.Environment env) : T.Environment env.pop :=
  ⟨by rw [Env.builtins_pop]; exact h.builtins, h.only.pop⟩

/-- Binding a value with the trait keeps the trait of the environment. -/
theorem Environment.bind {env : Env Value} (h : T.Environment env) (name : String) {v : Value}
    (hv : T.value v) : T.Environment (env.bind name v) :=
  ⟨h.builtins, h.only.bind name hv⟩

/-- The environment of a call: the closure's own, with its name and arguments. -/
theorem Environment.callEnv {c : Closure Value} (hc : T.value (.function (.closure c)))
    {args : List Value} (hargs : ∀ v ∈ args, T.value v) : T.Environment (c.callEnv args) := by
  obtain ⟨hclosure, hscope⟩ := Value.only_closure.mp hc
  rw [Closure.callEnv_eq]
  constructor
  · rw [Env.builtins_bindAll, Env.builtins_push]
    exact T.scope hclosure
  · refine hscope.push.bindAll fun entry hentry => ?_
    rcases List.mem_append.mp hentry with hself | hparam
    · obtain ⟨name, -, rfl⟩ := Option.map_eq_some_iff.mp (Option.mem_toList.mp hself)
      exact hc
    · exact hargs _ (List.of_mem_zip hparam).2

end Trait

/-! ## Operators and builtins -/

namespace Trait

variable {T : Trait} {n : Nat}

/-- A unary operator gives data, or an error on its own line. -/
theorem result_unary (op : UnaryOp) (v : Value) (e : Expr) (hn : T.line n) :
    T.result (op.apply v e n) := by
  have hg := op.gives_apply v e n
  generalize op.apply v e n = r at hg
  cases hg with
  | negate | not => exact Value.only_data rfl rfl
  | notNumber | notBool => exact hn

/-- A binary operator gives data or what its operands are made of, or an error on
    its own line. -/
theorem result_binary (op : BinaryOp) {l r : Value} (hl : T.value l) (hr : T.value r) (e : Expr)
    (hn : T.line n) : T.result (op.apply l r e n) := by
  have hg := op.gives_apply l r e n
  generalize op.apply l r e n = out at hg
  cases hg with
  | cons v items =>
      exact Value.only_list.mpr (List.forall_mem_cons.mpr ⟨hl, Value.only_list.mp hr⟩)
  | divideByZero | mismatch => exact hn
  | _ => exact Value.only_data rfl rfl

/-- A step that comes to such a result, and changes nothing in the store but the
    random numbers. -/
def Plain {α : Type} (T : Trait) (value : α → Prop) (x : Eval α) : Prop :=
  ∀ (σ : Type) [Host σ] (s : Store) (host : σ),
    (match ((x s).result host).1.1 with
      | .ok a => value a
      | .error err => T.line err.line) ∧
    ∃ random, ((x s).result host).1.2 = { s with random }

section Plain

variable {α β : Type} {value : α → Prop} {value' : β → Prop}

theorem plain_pure {a : α} (h : value a) : T.Plain value (pure a) :=
  fun _ _ s _ => ⟨h, s.random, rfl⟩

/-- The host answers with data, of which nothing is asked. -/
theorem plain_ask (q : Request α) : T.Plain (fun _ => True) (Eval.ask q) :=
  fun _ _ s _ => ⟨trivial, s.random, rfl⟩

theorem plain_randomNumber : T.Plain (fun _ => True) Eval.randomNumber :=
  fun _ _ s _ => ⟨trivial, s.random.next.2, rfl⟩

/-- A complaint about a call is on the line of the call. -/
theorem plain_violation (b : Builtin) (details : String) (hn : T.line n) :
    T.Plain value (b.violation details n) :=
  fun _ _ s _ => ⟨hn, s.random, rfl⟩

theorem Plain.bind {x : Eval α} {f : α → Eval β} (hx : T.Plain value x)
    (hf : ∀ a, value a → T.Plain value' (f a)) : T.Plain value' (x >>= f) := by
  intro σ _ s host
  obtain ⟨hr, random, hs⟩ := hx σ s host
  rw [Eval.result_bind]
  generalize (x s).result host = out at hr hs ⊢
  obtain ⟨⟨r, s'⟩, host'⟩ := out
  obtain rfl : s' = { s with random } := hs
  cases r with
  | error err => exact ⟨hr, random, rfl⟩
  | ok a =>
      obtain ⟨hr', random', hs'⟩ := hf a hr σ { s with random } host'
      exact ⟨hr', random', hs'⟩

end Plain

/-- A value that is neither a function nor a list holds nothing. -/
theorem plain_data {v : Value} (hf : v.function? = none) (hl : v.list? = none) :
    T.Plain T.value (pure v) :=
  plain_pure (Value.only_data hf hl)

theorem plain_printAll (vs : List Value) :
    T.Plain (fun _ => True) (Builtin.printAll vs) := by
  induction vs with
  | nil => exact plain_pure trivial
  | cons v vs ih => exact (plain_ask _).bind fun _ _ => ih

/-- Functions of a number give a number. -/
theorem plain_real (b : Builtin) (f : Float → Float) (args : List Value) (hn : T.line n) :
    T.Plain T.value (b.real f args n) := by
  unfold Builtin.real
  split
  · exact plain_data rfl rfl
  · exact plain_violation b _ hn
  · exact plain_violation b _ hn

/-- A part of a list holds no more than the list. -/
theorem plain_ofItems (b : Builtin) {part? : Items Value → Option Value} {args : List Value}
    (hpart : ∀ items v, T.value (.list items) → part? items = some v → T.value v)
    (hargs : ∀ v ∈ args, T.value v) (hn : T.line n) :
    T.Plain T.value (b.ofItems part? args n) := by
  unfold Builtin.ofItems
  split
  · next items =>
      split
      · exact plain_violation b _ hn
      · split
        · next v hv => exact plain_pure (hpart items v (hargs _ (List.mem_singleton_self _)) hv)
        · exact plain_violation b _ hn
  · exact plain_violation b _ hn
  · exact plain_violation b _ hn

/-- The first item and the rest of a list hold no more than the list. -/
theorem value_first? {items : Items Value} {v : Value} (h : T.value (.list items))
    (hv : items.first? = some v) : T.value v :=
  Value.only_list.mp h v (List.mem_of_mem_head? hv)

theorem value_rest? {items : Items Value} {v : Value} (h : T.value (.list items))
    (hv : items.rest?.map Value.list = some v) : T.value v := by
  obtain ⟨tail, htail, rfl⟩ := Option.map_eq_some_iff.mp hv
  obtain ⟨as, size⟩ := items
  cases as with
  | nil => cases htail
  | cons a as =>
      cases htail
      exact Value.only_list.mpr (List.forall_mem_cons.mp (Value.only_list.mp h)).2

/-- A list of numbers holds nothing. -/
theorem value_countTo (x : Float) : T.value (.ofList (Builtin.countTo x)) := by
  refine Value.only_list.mpr fun v hv => ?_
  unfold Builtin.countTo at hv
  split at hv
  · obtain ⟨i, -, rfl⟩ := List.mem_map.mp hv
    exact Value.only_data rfl rfl
  · cases hv

/-- A builtin that calls nothing back makes its result of its arguments, and an
    error of it is on the line of the call. -/
theorem plain_builtin (b : Builtin) {args : List Value} (hargs : ∀ v ∈ args, T.value v)
    (hn : T.line n) : T.Plain T.value (b.plain args n) := by
  cases b with
  | print => exact (plain_printAll args).bind fun _ _ => plain_data rfl rfl
  | println =>
      refine (plain_printAll args).bind fun _ _ => ?_
      exact (plain_ask _).bind fun _ _ => plain_data rfl rfl
  | input => exact (plain_ask _).bind fun _ _ => plain_data rfl rfl
  | epoch =>
      refine (plain_ask _).bind fun milliseconds _ => ?_
      split
      · exact plain_violation _ _ hn
      · exact plain_data rfl rfl
  | random => exact plain_randomNumber.bind fun _ _ => plain_data rfl rfl
  | exp => exact plain_real _ _ args hn
  | sin => exact plain_real _ _ args hn
  | cos => exact plain_real _ _ args hn
  | first => exact plain_ofItems _ (fun _ _ h => value_first? h) hargs hn
  | rest => exact plain_ofItems _ (fun _ _ h => value_rest? h) hargs hn
  | parseNumber =>
      simp only [Builtin.plain]
      split
      · refine plain_pure ?_
        cases Number.readTrimmed? _ <;> exact Value.only_data rfl rfl
      · exact plain_violation _ _ hn
      · exact plain_violation _ _ hn
  | iota =>
      simp only [Builtin.plain]
      split
      · exact plain_pure (value_countTo _)
      · exact plain_violation _ _ hn
      · exact plain_violation _ _ hn
  | toString | length | map | filter =>
      simp only [Builtin.plain]
      split
      all_goals first | exact plain_data rfl rfl | exact plain_violation _ _ hn

end Trait

/-! ## One step -/

/-- All that a control holds has the trait. -/
structure Control.Keeps (T : Trait) (c : Control) : Prop where
  values : ∀ v ∈ c.heldValues, T.value v
  code : ∀ e ∈ c.heldCode, T.code e
  blocks : ∀ b ∈ c.heldBlocks, T.block b
  lines : ∀ n ∈ c.heldLines, T.line n

/-- All that waits has the trait. -/
structure Pending.Keeps (T : Trait) (k : Pending) : Prop where
  values : ∀ v ∈ k.heldValues, T.value v
  code : ∀ e ∈ k.heldCode, T.code e
  blocks : ∀ b ∈ k.heldBlocks, T.block b
  lines : ∀ n ∈ k.heldLines, T.line n
  envs : ∀ env ∈ k.heldEnvs, T.Environment env

/-- All that a machine holds has the trait. -/
structure Machine.Keeps {σ : Type} (T : Trait) (m : Machine σ) : Prop where
  control : m.control.Keeps T
  stack : ∀ k ∈ m.stack, k.Keeps T
  env : T.Environment m.env

section Keeps

variable {T : Trait}

namespace Control

theorem keeps_eval {e : Expr} (h : T.code e) : (Control.eval e).Keeps T :=
  ⟨List.forall_mem_nil _, List.forall_mem_singleton.mpr h, List.forall_mem_nil _,
    List.forall_mem_nil _⟩

/-- Steps with the trait that may stand as a body. -/
theorem keeps_evalSteps {es : List Expr} (h : ∀ e ∈ es, T.code e) (hb : T.block es) :
    (Control.evalSteps es).Keeps T :=
  ⟨List.forall_mem_nil _, h, List.forall_mem_singleton.mpr hb, List.forall_mem_nil _⟩

theorem keeps_evalAll {done : List Value} {es : List Expr} (hdone : ∀ v ∈ done, T.value v)
    (h : ∀ e ∈ es, T.code e) : (Control.evalAll done es).Keeps T :=
  ⟨hdone, h, List.forall_mem_nil _, List.forall_mem_nil _⟩

theorem keeps_value {v : Value} (h : T.value v) : (Control.value v).Keeps T :=
  ⟨List.forall_mem_singleton.mpr h, List.forall_mem_nil _, List.forall_mem_nil _,
    List.forall_mem_nil _⟩

theorem keeps_values {vs : List Value} (h : ∀ v ∈ vs, T.value v) : (Control.values vs).Keeps T :=
  ⟨h, List.forall_mem_nil _, List.forall_mem_nil _, List.forall_mem_nil _⟩

theorem keeps_fail {err : RuntimeError} (h : T.line err.line) : (Control.fail err).Keeps T :=
  ⟨List.forall_mem_nil _, List.forall_mem_nil _, List.forall_mem_nil _,
    List.forall_mem_singleton.mpr h⟩

/-- A call of a function with the trait, on a line with it. -/
theorem keeps_call {f : Callable Value} {args : List Value} {n : Nat} (hf : T.value (.function f))
    (hargs : ∀ v ∈ args, T.value v) (hn : ∀ k ∈ [n], T.line k) : (Control.call f args n).Keeps T :=
  ⟨List.forall_mem_cons.mpr ⟨hf, hargs⟩, List.forall_mem_nil _, List.forall_mem_nil _, hn⟩

/-- A value with the trait, or an error on a line with it. -/
theorem keeps_ofResult {r : Except RuntimeError Value} (h : T.result r) :
    (Control.ofResult r).Keeps T := by
  cases r with
  | ok v => exact keeps_value h
  | error err => exact keeps_fail h

end Control

/-- What waits without a value, an environment or a sequence. -/
theorem Pending.keeps_code {k : Pending} (hvalues : k.heldValues = []) (henvs : k.heldEnvs = [])
    (hblocks : k.heldBlocks = []) (hcode : ∀ e ∈ k.heldCode, T.code e)
    (hlines : ∀ n ∈ k.heldLines, T.line n) : k.Keeps T := by
  refine ⟨?_, hcode, ?_, hlines, ?_⟩
  · rw [hvalues]
    exact List.forall_mem_nil _
  · rw [hblocks]
    exact List.forall_mem_nil _
  · rw [henvs]
    exact List.forall_mem_nil _

namespace Machine

variable {σ : Type} {m m' : Machine σ}

/-- Going on with something else that has the trait. -/
theorem Keeps.goto {control : Control} (h : m.Keeps T) (hc : control.Keeps T) :
    (m.goto control).Keeps T :=
  ⟨hc, h.stack, h.env⟩

/-- Going on with something that has the trait, for something else that waits for it. -/
theorem Keeps.defer {control : Control} {k : Pending} (h : m.Keeps T) (hc : control.Keeps T)
    (hk : k.Keeps T) : (m.defer control k).Keeps T :=
  ⟨hc, List.forall_mem_cons.mpr ⟨hk, h.stack⟩, h.env⟩

/-- Beginning to evaluate an expression.  What is made of it has to have the
    trait. -/
theorem Keeps.startEval {e : Expr} (h : m.Keeps T) (he : T.code e)
    (hmade : ∀ c, (m.goto (.eval e)).made? = some c → T.closure c) : (m.startEval e).Keeps T := by
  have hline : T.line e.line := T.line_of_code he
  have hlines : ∀ n ∈ [e.line], T.line n := List.forall_mem_singleton.mpr hline
  have hpart : ∀ p ∈ e.parts, T.code p := fun p hp => T.part he hp
  cases e with
  | literal value n => exact h.goto (Control.keeps_value (Value.only_ofLiteral value))
  | list items n =>
      exact h.defer (Control.keeps_evalAll (List.forall_mem_nil _) hpart)
        (Pending.keeps_code rfl rfl rfl (List.forall_mem_nil _) (List.forall_mem_nil _))
  | symbol name n =>
      rw [Machine.startEval]
      split
      · next v hv => exact h.goto (Control.keeps_value (h.env.only.lookup? hv))
      · exact h.goto (Control.keeps_fail hline)
  | group inner n => exact h.goto (Control.keeps_eval (hpart _ (List.mem_singleton_self _)))
  | unary op operand n =>
      exact h.defer (Control.keeps_eval (hpart _ (List.mem_singleton_self _)))
        (Pending.keeps_code rfl rfl rfl (List.forall_mem_nil _) hlines)
  | binary op lhs rhs n =>
      obtain ⟨hl, hr⟩ := List.forall_mem_cons.mp hpart
      exact h.defer (Control.keeps_eval hl) (Pending.keeps_code rfl rfl rfl hr hlines)
  | choice test yes no n =>
      obtain ⟨ht, hbranches⟩ := List.forall_mem_cons.mp hpart
      exact h.defer (Control.keeps_eval ht)
        ⟨List.forall_mem_nil _, hbranches, T.block_of_code he, hlines, List.forall_mem_nil _⟩
  | call callee args n =>
      obtain ⟨hc, hargs⟩ := List.forall_mem_cons.mp hpart
      exact h.defer (Control.keeps_eval hc) (Pending.keeps_code rfl rfl rfl hargs hlines)
  | function params body n =>
      have hvalue : T.value (m.close params body none) :=
        Value.only_closure.mpr ⟨hmade _ rfl, h.env.only⟩
      exact ⟨Control.keeps_value hvalue, h.stack, h.env⟩
  | define name value n =>
      cases value with
      | function params body k =>
          have hvalue : T.value (m.close params body (some name)) :=
            Value.only_closure.mpr ⟨hmade _ rfl, h.env.only⟩
          exact ⟨Control.keeps_value hvalue, h.stack, h.env.bind name hvalue⟩
      | _ =>
          exact h.defer (Control.keeps_eval (hpart _ (List.mem_singleton_self _)))
            (Pending.keeps_code rfl rfl rfl (List.forall_mem_nil _) (List.forall_mem_nil _))

/-- Handing a value to what waits for it. -/
theorem Keeps.resume {k : Pending} {v : Value} (h : m.Keeps T) (hk : k.Keeps T) (hv : T.value v)
    (hs : m.resume k v = some m') : m'.Keeps T := by
  cases k with
  | item done rest =>
      cases hs
      exact h.goto (Control.keeps_evalAll (List.forall_mem_cons.mpr ⟨hv, hk.values⟩) hk.code)
  | list | args => cases hs
  | define name =>
      cases hs
      exact ⟨Control.keeps_value hv, h.stack, h.env.bind name hv⟩
  | unary op operand n =>
      cases hs
      have hn : T.line n := List.forall_mem_singleton.mp hk.lines
      exact h.goto (Control.keeps_ofResult (Trait.result_unary op v _ hn))
  | left op lhs rhs n =>
      have hn : T.line n := List.forall_mem_singleton.mp hk.lines
      have hdefer : (m.defer (.eval rhs) (.right op v lhs rhs n)).Keeps T := by
        refine h.defer (Control.keeps_eval (List.forall_mem_singleton.mp hk.code)) ?_
        exact ⟨List.forall_mem_singleton.mpr hv, List.forall_mem_nil _, List.forall_mem_nil _,
          hk.lines, List.forall_mem_nil _⟩
      simp only [Machine.resume] at hs
      split at hs
      · split at hs
        · split at hs
          · cases hs
            exact h.goto (Control.keeps_value hv)
          · cases hs
            exact hdefer
        · cases hs
          exact h.goto (Control.keeps_fail hn)
      · cases hs
        exact hdefer
  | right op l lhs rhs n =>
      have hn : T.line n := List.forall_mem_singleton.mp hk.lines
      simp only [Machine.resume] at hs
      split at hs
      · split at hs
        · cases hs
          exact h.goto (Control.keeps_value hv)
        · cases hs
          exact h.goto (Control.keeps_fail hn)
      · cases hs
        have hl : T.value l := List.forall_mem_singleton.mp hk.values
        exact h.goto (Control.keeps_ofResult (Trait.result_binary op hl hv _ hn))
  | test test yes no n =>
      obtain ⟨hyes, hno⟩ := List.forall_mem_append.mp hk.code
      simp only [Machine.resume] at hs
      split at hs
      · next b =>
          cases hs
          have hbranch : (Control.evalSteps (if b then yes else no)).Keeps T := by
            obtain ⟨hyesBlock, hnoBlock⟩ := List.forall_mem_cons.mp hk.blocks
            cases b with
            | true => exact Control.keeps_evalSteps hyes hyesBlock
            | false => exact Control.keeps_evalSteps hno (List.forall_mem_singleton.mp hnoBlock)
          refine ⟨hbranch, List.forall_mem_cons.mpr ⟨?_, h.stack⟩, h.env.push⟩
          exact Pending.keeps_code rfl rfl rfl (List.forall_mem_nil _) (List.forall_mem_nil _)
      · cases hs
        exact h.goto (Control.keeps_fail (List.forall_mem_singleton.mp hk.lines))
  | branch =>
      cases hs
      exact ⟨Control.keeps_value hv, h.stack, h.env.pop⟩
  | callee callee args n =>
      have hn : T.line n := List.forall_mem_singleton.mp hk.lines
      simp only [Machine.resume] at hs
      split at hs
      · split at hs
        · cases hs
          exact h.goto (Control.keeps_fail hn)
        · cases hs
          refine h.defer (Control.keeps_evalAll (List.forall_mem_nil _) hk.code) ?_
          exact ⟨List.forall_mem_singleton.mpr hv, List.forall_mem_nil _, List.forall_mem_nil _,
            hk.lines, List.forall_mem_nil _⟩
      · cases hs
        exact h.goto (Control.keeps_fail hn)
  | steps rest =>
      cases hs
      exact h.goto (Control.keeps_evalSteps hk.code (List.forall_mem_singleton.mp hk.blocks))
  | caller env =>
      cases hs
      exact ⟨Control.keeps_value hv, h.stack, List.forall_mem_singleton.mp hk.envs⟩
  | mapped f n done rest =>
      cases hs
      obtain ⟨hf, hvalues⟩ := List.forall_mem_cons.mp hk.values
      refine h.goto ⟨?_, List.forall_mem_nil _, List.forall_mem_nil _, hk.lines⟩
      exact List.forall_mem_cons.mpr ⟨hf, List.forall_mem_cons.mpr ⟨hv, hvalues⟩⟩
  | filtered f n item done rest =>
      obtain ⟨hf, hvalues⟩ := List.forall_mem_cons.mp hk.values
      obtain ⟨hitem, hvalues⟩ := List.forall_mem_cons.mp hvalues
      simp only [Machine.resume] at hs
      split at hs
      · next keep =>
          cases hs
          refine h.goto ⟨?_, List.forall_mem_nil _, List.forall_mem_nil _, hk.lines⟩
          cases keep with
          | true => exact List.forall_mem_cons.mpr ⟨hf, List.forall_mem_cons.mpr ⟨hitem, hvalues⟩⟩
          | false => exact List.forall_mem_cons.mpr ⟨hf, hvalues⟩
      · cases hs
        exact h.goto (Control.keeps_fail (List.forall_mem_singleton.mp hk.lines))
  | unit env done rest =>
      cases hs
      exact h.goto ⟨List.forall_mem_cons.mpr ⟨hv, hk.values⟩, hk.code, List.forall_mem_nil _,
        List.forall_mem_nil _⟩

/-- Handing values to what waits for them. -/
theorem Keeps.deliver {k : Pending} {vs : List Value} (h : m.Keeps T) (hk : k.Keeps T)
    (hvs : ∀ v ∈ vs, T.value v) (hs : m.deliver k vs = some m') : m'.Keeps T := by
  cases k with
  | list =>
      cases hs
      exact h.goto (Control.keeps_value (Value.only_list.mpr hvs))
  | args f n =>
      cases hs
      have hf : T.value (.function f) := List.forall_mem_singleton.mp hk.values
      exact h.goto (Control.keeps_call hf hvs hk.lines)
  | _ => cases hs

/-- Handing an error to what waits. -/
theorem Keeps.unwind {k : Pending} {err : RuntimeError} (h : m.Keeps T) (hk : k.Keeps T)
    (herr : T.line err.line) : (m.unwind k err).Keeps T := by
  cases k with
  | branch => exact ⟨Control.keeps_fail herr, h.stack, h.env.pop⟩
  | caller env =>
      exact ⟨Control.keeps_fail herr, h.stack, List.forall_mem_singleton.mp hk.envs⟩
  | unit env done rest =>
      refine ⟨⟨List.forall_mem_nil _, List.forall_mem_nil _, List.forall_mem_nil _, ?_⟩,
        List.forall_mem_nil _, List.forall_mem_singleton.mp hk.envs⟩
      exact List.forall_mem_singleton.mpr herr
  | _ => exact h.goto (Control.keeps_fail herr)

variable [Host σ] {limit : Nat}

/-- A plain step keeps the trait of the machine. -/
theorem Keeps.perform {x : Eval Value} (h : m.Keeps T) (hx : T.Plain T.value x) :
    (m.perform x).Keeps T := by
  obtain ⟨hr, random, hs⟩ := hx σ m.toStore m.host
  have henv : ((x m.toStore).result m.host).1.2.env = m.env := by rw [hs]
  refine ⟨Control.keeps_ofResult ?_, h.stack, ?_⟩
  · generalize ((x m.toStore).result m.host).1.1 = r at hr
    cases r <;> exact hr
  · show T.Environment ((x m.toStore).result m.host).1.2.env
    rw [henv]
    exact h.env

/-- Beginning a call. -/
theorem Keeps.startCall {f : Callable Value} {args : List Value} {n : Nat} (h : m.Keeps T)
    (hf : T.value (.function f)) (hargs : ∀ v ∈ args, T.value v) (hn : T.line n) :
    (m.startCall limit f args n).Keeps T := by
  -- a builtin that calls back goes through the items of its second argument
  have overItems : ∀ {g : Callable Value} {items : Items Value} {control : Control},
      args = [.function g, .list items] → control.heldValues = .function g :: ([] ++ items.toList) →
      control.heldCode = [] → control.heldBlocks = [] → control.heldLines = [n] →
      (m.defer control .list).Keeps T := by
    rintro g items control rfl hvalues hcode hblocks hlines
    obtain ⟨hg, hlist⟩ := List.forall_mem_cons.mp hargs
    refine h.defer ⟨?_, ?_, ?_, ?_⟩
      (Pending.keeps_code rfl rfl rfl (List.forall_mem_nil _) (List.forall_mem_nil _))
    · rw [hvalues]
      exact List.forall_mem_cons.mpr ⟨hg, Value.only_list.mp (List.forall_mem_singleton.mp hlist)⟩
    · rw [hcode]
      exact List.forall_mem_nil _
    · rw [hblocks]
      exact List.forall_mem_nil _
    · rw [hlines]
      exact List.forall_mem_singleton.mpr hn
  unfold Machine.startCall
  split
  · exact h.goto (Control.keeps_fail hn)
  · split
    · next c args =>
        split
        · exact h.goto (Control.keeps_fail hn)
        · have hc : T.closure c := (Value.only_closure.mp hf).1
          refine ⟨Control.keeps_evalSteps (T.body hc) (T.block_of_closure hc), ?_,
            Trait.Environment.callEnv hf hargs⟩
          refine List.forall_mem_cons.mpr ⟨?_, h.stack⟩
          exact ⟨List.forall_mem_nil _, List.forall_mem_nil _, List.forall_mem_nil _,
            List.forall_mem_nil _, List.forall_mem_singleton.mpr h.env⟩
    · split
      · exact overItems rfl rfl rfl rfl rfl
      · exact h.perform (Trait.plain_violation _ _ hn)
    · split
      · exact overItems rfl rfl rfl rfl rfl
      · exact h.perform (Trait.plain_violation _ _ hn)
    · exact h.perform (Trait.plain_builtin _ hargs hn)

/-- **One step passes on what a machine holds.**  If all of it has a trait, and
    the closure that the step makes has it too, then all of it has the trait
    after the step. -/
theorem Keeps.step (h : m.Keeps T) (hmade : ∀ c, m.made? = some c → T.closure c)
    (hs : m.step limit = some m') : m'.Keeps T := by
  obtain ⟨store, control, stack, depth, host⟩ := m
  have hvalues := h.control.values
  have hcode := h.control.code
  have hlines := h.control.lines
  cases control with
  | eval e =>
      cases hs
      exact Keeps.startEval h (List.forall_mem_singleton.mp hcode) hmade
  | evalAll done es =>
      cases es with
      | nil =>
          cases hs
          exact h.goto (Control.keeps_values fun v hv => hvalues v (List.mem_reverse.mp hv))
      | cons e es =>
          cases hs
          obtain ⟨he, hes⟩ := List.forall_mem_cons.mp hcode
          exact h.defer (Control.keeps_eval he)
            ⟨hvalues, hes, List.forall_mem_nil _, List.forall_mem_nil _, List.forall_mem_nil _⟩
  | evalSteps es =>
      match es with
      | [] =>
          cases hs
          exact h.goto (Control.keeps_value (Value.only_data rfl rfl))
      | [e] =>
          cases hs
          exact h.goto (Control.keeps_eval (List.forall_mem_singleton.mp hcode))
      | e :: f :: es =>
          cases hs
          obtain ⟨he, hes⟩ := List.forall_mem_cons.mp hcode
          have hrest : T.block (f :: es) :=
            T.block_rest (List.forall_mem_singleton.mp h.control.blocks)
          exact h.defer (Control.keeps_eval he)
            ⟨List.forall_mem_nil _, hes, List.forall_mem_singleton.mpr hrest,
              List.forall_mem_nil _, List.forall_mem_nil _⟩
  | call f args n =>
      cases hs
      obtain ⟨hf, hargs⟩ := List.forall_mem_cons.mp hvalues
      exact Keeps.startCall h hf hargs (List.forall_mem_singleton.mp hlines)
  | mapItems f n done vs =>
      obtain ⟨hf, hall⟩ := List.forall_mem_cons.mp hvalues
      obtain ⟨hdone, hvs⟩ := List.forall_mem_append.mp hall
      cases vs with
      | nil =>
          cases hs
          exact h.goto (Control.keeps_values fun v hv => hdone v (List.mem_reverse.mp hv))
      | cons v vs =>
          cases hs
          obtain ⟨hv, hrest⟩ := List.forall_mem_cons.mp hvs
          have hcall : (Control.call f [v] n).Keeps T :=
            Control.keeps_call hf (List.forall_mem_singleton.mpr hv) hlines
          refine h.defer hcall ?_
          exact ⟨List.forall_mem_cons.mpr ⟨hf, List.forall_mem_append.mpr ⟨hdone, hrest⟩⟩,
            List.forall_mem_nil _, List.forall_mem_nil _, hlines, List.forall_mem_nil _⟩
  | filterItems f n done vs =>
      obtain ⟨hf, hall⟩ := List.forall_mem_cons.mp hvalues
      obtain ⟨hdone, hvs⟩ := List.forall_mem_append.mp hall
      cases vs with
      | nil =>
          cases hs
          exact h.goto (Control.keeps_values fun v hv => hdone v (List.mem_reverse.mp hv))
      | cons v vs =>
          cases hs
          obtain ⟨hv, hrest⟩ := List.forall_mem_cons.mp hvs
          have hcall : (Control.call f [v] n).Keeps T :=
            Control.keeps_call hf (List.forall_mem_singleton.mpr hv) hlines
          refine h.defer hcall ?_
          have hkept := List.forall_mem_cons.mpr ⟨hv, List.forall_mem_append.mpr ⟨hdone, hrest⟩⟩
          exact ⟨List.forall_mem_cons.mpr ⟨hf, hkept⟩, List.forall_mem_nil _, List.forall_mem_nil _,
            hlines, List.forall_mem_nil _⟩
  | value v =>
      cases stack with
      | nil => cases hs
      | cons k ks =>
          obtain ⟨hk, hks⟩ := List.forall_mem_cons.mp h.stack
          have hrest : Keeps T (⟨store, .value v, ks, depth, host⟩ : Machine σ) :=
            ⟨h.control, hks, h.env⟩
          exact hrest.resume hk (List.forall_mem_singleton.mp hvalues) hs
  | values vs =>
      cases stack with
      | nil => cases hs
      | cons k ks =>
          obtain ⟨hk, hks⟩ := List.forall_mem_cons.mp h.stack
          have hrest : Keeps T (⟨store, .values vs, ks, depth, host⟩ : Machine σ) :=
            ⟨h.control, hks, h.env⟩
          exact hrest.deliver hk hvalues hs
  | fail err =>
      cases stack with
      | nil => cases hs
      | cons k ks =>
          cases hs
          obtain ⟨hk, hks⟩ := List.forall_mem_cons.mp h.stack
          have hrest : Keeps T (⟨store, .fail err, ks, depth, host⟩ : Machine σ) :=
            ⟨h.control, hks, h.env⟩
          exact hrest.unwind hk (List.forall_mem_singleton.mp hlines)
  | read source =>
      simp only [Control.heldCode] at hcode
      simp only [Machine.step] at hs
      split at hs
      · next program hread =>
          cases hs
          rw [hread] at hcode
          exact h.goto ⟨List.forall_mem_nil _, hcode, List.forall_mem_nil _, List.forall_mem_nil _⟩
      · cases hs
        exact h.goto ⟨List.forall_mem_nil _, List.forall_mem_nil _, List.forall_mem_nil _,
          List.forall_mem_nil _⟩
  | evalUnit done es =>
      cases es with
      | nil =>
          cases hs
          exact h.goto ⟨fun v hv => hvalues v (List.mem_reverse.mp hv), List.forall_mem_nil _,
            List.forall_mem_nil _, List.forall_mem_nil _⟩
      | cons e es =>
          cases hs
          obtain ⟨he, hes⟩ := List.forall_mem_cons.mp hcode
          exact h.defer (Control.keeps_eval he)
            ⟨hvalues, hes, List.forall_mem_nil _, List.forall_mem_nil _,
              List.forall_mem_singleton.mpr h.env⟩
  | finished r => cases hs

/-! ## Whole runs -/

/-- A run, with the closures that are made on the way, in order. -/
inductive Makes (limit : Nat) : Machine σ → List (Closure Value) → Machine σ → Prop where
  | here (m : Machine σ) : Makes limit m [] m
  | step {m m' m'' : Machine σ} {cs : List (Closure Value)} : m.step limit = some m' →
      Makes limit m' cs m'' → Makes limit m (m.made?.toList ++ cs) m''

/-- Every run makes some closures. -/
theorem exists_makes (h : Reaches limit m m') : ∃ cs, Makes limit m cs m' := by
  induction h using Relation.ReflTransGen.head_induction_on with
  | refl => exact ⟨[], .here m'⟩
  | head hs _ ih =>
      obtain ⟨cs, hcs⟩ := ih
      exact ⟨_, .step hs hcs⟩

/-- There is only one way for a machine to go on, so a run to its rest passes
    every state that the machine can reach. -/
theorem Makes.split {m'' : Machine σ} {cs : List (Closure Value)} (h : Makes limit m cs m'')
    (hrest : m''.step limit = none) (hr : Reaches limit m m') :
    ∃ cs₀ cs₁, cs = cs₀ ++ cs₁ ∧ Makes limit m cs₀ m' ∧ Makes limit m' cs₁ m'' := by
  induction h with
  | here m =>
      rcases Relation.ReflTransGen.cases_head hr with rfl | ⟨next, hs, -⟩
      · exact ⟨[], [], rfl, .here _, .here _⟩
      · rw [hrest] at hs
        cases hs
  | @step m next m'' cs hs hrun ih =>
      rcases Relation.ReflTransGen.cases_head hr with rfl | ⟨next', hs', hr'⟩
      · exact ⟨[], _, rfl, .here _, .step hs hrun⟩
      · obtain rfl : next = next' := Option.some.inj (hs.symm.trans hs')
        obtain ⟨cs₀, cs₁, rfl, h₀, h₁⟩ := ih hrest hr'
        exact ⟨m.made?.toList ++ cs₀, cs₁, (List.append_assoc ..).symm, .step hs h₀, h₁⟩

/-- A machine comes to rest in one state only. -/
theorem rest_unique {m₁ m₂ : Machine σ} {cs : List (Closure Value)} (h₁ : Makes limit m cs m₁)
    (hrest₁ : m₁.step limit = none) (h₂ : Reaches limit m m₂) (hrest₂ : m₂.step limit = none) :
    m₁ = m₂ := by
  obtain ⟨_, _, _, _, hlast⟩ := h₁.split hrest₁ h₂
  cases hlast with
  | here => rfl
  | step hs _ =>
      rw [hrest₂] at hs
      cases hs

omit [Host σ] in
/-- A closure has the trait when the function that it is made of does and the
    environment that it is made in. -/
theorem Keeps.closure_of_made (hT : T.Closes) (h : m.Keeps T) {c : Closure Value}
    (hc : m.made? = some c) : T.closure c := by
  have hcode := h.control.code
  unfold made? at hc
  split at hc
  · next hcontrol =>
      cases hc
      rw [hcontrol] at hcode
      exact hT _ _ (List.forall_mem_singleton.mp hcode) h.env
  · next hcontrol =>
      cases hc
      rw [hcontrol] at hcode
      have hdefine := List.forall_mem_singleton.mp hcode
      exact hT _ _ (T.part hdefine (List.mem_singleton_self _)) h.env
  · cases hc

/-- Where functions make closures with the trait, whole runs keep it. -/
theorem Keeps.reaches (hT : T.Closes) (h : m.Keeps T) (hr : Reaches limit m m') : m'.Keeps T := by
  induction hr with
  | refl => exact h
  | tail _ hs ih => exact ih.step (fun _ hc => ih.closure_of_made hT hc) hs

end Machine

end Keeps

/-! ## Traits of closures alone -/

/-- The trait of some closures, whatever code they are made of. -/
def Trait.ofClosures (P : Closure Value → Prop) : Trait where
  closure := P
  code _ := True
  block _ := True
  line _ := True
  builtins _ := True
  part _ _ := trivial
  line_of_code _ := trivial
  block_of_code _ _ _ := trivial
  block_rest _ := trivial
  body _ _ _ := trivial
  block_of_closure _ := trivial
  scope _ := trivial

/-- An environment has the trait when all closures in it do. -/
theorem Trait.environment_ofClosures {P : Closure Value → Prop} {env : Env Value} :
    (Trait.ofClosures P).Environment env ↔ ∀ c, env.Contains (.closure c) → P c := by
  constructor
  · rintro h c ⟨v, hv, hc⟩
    exact h.only v hv c hc
  · intro h
    exact ⟨trivial, fun v hv c hc => h c ⟨v, hv, hc⟩⟩

/-- Every closure in a machine is of a kind. -/
theorem Machine.keeps_ofClosures {σ : Type} {P : Closure Value → Prop} {m : Machine σ} :
    m.Keeps (.ofClosures P) ↔ ∀ c, m.Contains (.closure c) → P c := by
  constructor
  · rintro h c (⟨v, hv, hc⟩ | ⟨env, henv, hc⟩)
    · rcases List.mem_append.mp hv with hv | hv
      · exact h.control.values v hv c hc
      · obtain ⟨k, hk, hv⟩ := List.mem_flatMap.mp hv
        exact (h.stack k hk).values v hv c hc
    · rcases List.mem_cons.mp henv with rfl | henv
      · exact Trait.environment_ofClosures.mp h.env c hc
      · obtain ⟨k, hk, henv⟩ := List.mem_flatMap.mp henv
        exact Trait.environment_ofClosures.mp ((h.stack k hk).envs env henv) c hc
  · intro h
    have hvalue : ∀ v ∈ m.control.heldValues ++ m.stack.flatMap Pending.heldValues,
        v.Only P := fun v hv c hc => h c (Or.inl ⟨v, hv, hc⟩)
    have henv : ∀ env ∈ m.env :: m.stack.flatMap Pending.heldEnvs,
        (Trait.ofClosures P).Environment env := fun env henv =>
      Trait.environment_ofClosures.mpr fun c hc => h c (Or.inr ⟨env, henv, hc⟩)
    obtain ⟨hcontrol, hstack⟩ := List.forall_mem_append.mp hvalue
    obtain ⟨hlive, hwaiting⟩ := List.forall_mem_cons.mp henv
    refine ⟨⟨hcontrol, fun _ _ => trivial, fun _ _ => trivial, fun _ _ => trivial⟩, ?_, hlive⟩
    intro k hk
    exact ⟨fun v hv => hstack v (List.mem_flatMap.mpr ⟨k, hk, hv⟩), fun _ _ => trivial,
      fun _ _ => trivial, fun _ _ => trivial,
      fun env he => hwaiting env (List.mem_flatMap.mpr ⟨k, hk, he⟩)⟩

end Scriptlet
