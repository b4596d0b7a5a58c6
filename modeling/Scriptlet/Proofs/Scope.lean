import Scriptlet.Proofs.Trees
import Scriptlet.Session

/-! # Scopes are kept

    Two facts about the live environment.

    A call does not look at it: the closure's own environment takes its place
    for the time of the call, and builtins have no use for one.  So a call
    comes to the same in every environment, and leaves each as it was
    (`Eval.Detached`).

    Evaluating an expression changes nothing but the innermost frame, and
    there only the symbols that the expression defines outside of functions
    and branches (`Store.Binds`), however the evaluation ends. -/

namespace Scriptlet

/-! ## Calls are detached from the environment -/

namespace Eval

variable {α β : Type}

/-- A step that neither looks at the live environment nor changes it. -/
def Detached (x : Eval α) : Prop :=
  ∀ (σ : Type) [Host σ] (s : Store) (env : Env Value) (host : σ),
    (x { s with env }).result host
      = ((((x s).result host).1.1, { ((x s).result host).1.2 with env }), ((x s).result host).2)

theorem detached_pure (a : α) : Detached (pure a : Eval α) :=
  fun _ _ _ _ _ => rfl

theorem detached_fail (e : RuntimeError) : Detached (fail e : Eval α) :=
  fun _ _ _ _ _ => rfl

theorem detached_ofExcept (r : Except RuntimeError α) : Detached (ofExcept r) :=
  fun _ _ _ _ _ => rfl

/-- The host does not know the environment. -/
theorem detached_ask (q : Request α) : Detached (ask q) :=
  fun _ _ _ _ _ => rfl

theorem detached_randomNumber : Detached randomNumber :=
  fun _ _ _ _ _ => rfl

/-- Whatever is done in another environment is detached from this one. -/
theorem detached_inEnv (env : Env Value) (x : Eval α) : Detached (inEnv env x) :=
  fun _ _ _ _ _ => rfl

/-- What a step and then another one come to. -/
theorem result_bind {σ : Type} [Host σ] (x : Eval α) (f : α → Eval β) (s : Store) (host : σ) :
    ((x >>= f) s).result host =
      match (x s).result host with
      | ((.ok a, s'), host') => (f a s').result host'
      | ((.error e, s'), host') => ((.error e, s'), host') := by
  show ((andThen x f) s).result host = _
  rw [andThen, Dialogue.result]
  obtain ⟨⟨r, s'⟩, host'⟩ := (x s).result host
  cases r <;> rfl

theorem Detached.bind {x : Eval α} {f : α → Eval β} (hx : Detached x)
    (hf : ∀ a, Detached (f a)) : Detached (x >>= f) := by
  intro σ _ s env host
  rw [result_bind, result_bind, hx σ s env host]
  obtain ⟨⟨r, s'⟩, host'⟩ := (x s).result host
  cases r with
  | error e => rfl
  | ok a => exact hf a σ s' env host'

/-- A detached step leaves the environment as it was. -/
theorem Detached.env_eq {σ : Type} [Host σ] {x : Eval α} (hx : Detached x) (s : Store) (host : σ) :
    ((x s).result host).1.2.env = s.env :=
  congrArg (fun r => r.1.2.env) (hx σ s s.env host)

end Eval

namespace Builtin

open Eval

theorem detached_violation {α : Type} (b : Builtin) (details : String) (line : Nat) :
    Detached (b.violation details line : Eval α) :=
  detached_fail _

/-- Printing looks at the values alone. -/
theorem detached_printAll (vs : List Value) : Detached (printAll vs) := by
  induction vs with
  | nil => exact detached_pure ()
  | cons v vs ih => exact (detached_ask _).bind fun _ => ih

/-- Functions of a number look at the number alone. -/
theorem detached_real (b : Builtin) (f : Float → Float) (args : List Value) (line : Nat) :
    Detached (b.real f args line) := by
  unfold real
  split
  · exact detached_pure _
  · exact detached_violation b _ line
  · exact detached_violation b _ line

/-- Parts of a list look at the list alone. -/
theorem detached_ofItems (b : Builtin) (part? : Items Value → Option Value) (args : List Value)
    (line : Nat) : Detached (b.ofItems part? args line) := by
  unfold ofItems
  split
  · split
    · exact detached_violation b _ line
    · split
      · exact detached_pure _
      · exact detached_violation b _ line
  · exact detached_violation b _ line
  · exact detached_violation b _ line

/-- A builtin that calls nothing back is detached. -/
theorem detached_plain (b : Builtin) (args : List Value) (line : Nat) :
    Detached (b.plain args line) := by
  cases b with
  | print => exact (detached_printAll args).bind fun _ => detached_pure _
  | println =>
      exact (detached_printAll args).bind fun _ => (detached_ask _).bind fun _ => detached_pure _
  | input => exact (detached_ask _).bind fun _ => detached_pure _
  | epoch =>
      refine (detached_ask _).bind fun milliseconds => ?_
      split
      · exact detached_violation _ _ line
      · exact detached_pure _
  | random => exact detached_randomNumber.bind fun _ => detached_pure _
  | exp => exact detached_real _ _ args line
  | sin => exact detached_real _ _ args line
  | cos => exact detached_real _ _ args line
  | first => exact detached_ofItems _ _ args line
  | rest => exact detached_ofItems _ _ args line
  | toString | parseNumber | length | iota | map | filter =>
      simp only [plain]
      split
      all_goals first | exact detached_pure _ | exact detached_violation _ _ line

variable {enter : Enter}

/-- What is called back is detached when entering a closure is. -/
theorem detached_callOne (he : ∀ c args line, Detached (enter c args line)) (f : Callable Value)
    (line : Nat) (v : Value) : Detached (callOne enter f line v) := by
  cases f with
  | builtin b => exact detached_plain b [v] line
  | closure c => exact he c [v] line

theorem detached_mapItems {f : Value → Eval Value} (hf : ∀ v, Detached (f v)) (vs : List Value) :
    Detached (mapItems f vs) := by
  induction vs with
  | nil => exact detached_pure _
  | cons v vs ih => exact (hf v).bind fun _ => ih.bind fun _ => detached_pure _

theorem detached_filterItems {f : Value → Eval Value} (hf : ∀ v, Detached (f v)) (line : Nat)
    (vs : List Value) : Detached (filterItems f line vs) := by
  induction vs with
  | nil => exact detached_pure _
  | cons v vs ih =>
      refine (hf v).bind fun answer => ?_
      cases answer with
      | bool keep => exact ih.bind fun _ => detached_pure _
      | _ => exact detached_violation _ _ line

/-- Every builtin is detached when entering a closure is. -/
theorem detached_call (he : ∀ c args line, Detached (enter c args line)) (b : Builtin)
    (args : List Value) (line : Nat) : Detached (b.call enter args line) := by
  unfold call
  split
  · split
    · exact (detached_mapItems (detached_callOne he _ line) _).bind fun _ => detached_pure _
    · exact detached_violation _ _ line
  · split
    · exact (detached_filterItems (detached_callOne he _ line) line _).bind
        fun _ => detached_pure _
    · exact detached_violation _ _ line
  · exact detached_plain _ _ line

end Builtin

/-- **Entering a closure is detached**, however deep its calls go: its own
    environment takes the place of the live one. -/
theorem Closure.detached_enter (limit remaining : Nat) (c : Closure Value) (args : List Value)
    (line : Nat) : Eval.Detached (Closure.enter limit remaining c args line) := by
  cases remaining with
  | zero => exact Eval.detached_fail _
  | succ remaining => exact Eval.detached_inEnv _ _

/-- A call of any function is detached. -/
theorem Callable.detached_call {enter : Enter}
    (he : ∀ c args line, Eval.Detached (enter c args line)) (f : Callable Value)
    (args : List Value) (line : Nat) : Eval.Detached (f.call enter args line) := by
  unfold Callable.call
  split
  · exact Eval.detached_fail _
  · cases f with
    | builtin b => exact Builtin.detached_call he b args line
    | closure c => exact he c args line

/-! ## Evaluation binds in the innermost frame -/

namespace Expr

mutual

/-- The symbols that an expression defines outside of functions and
    branches. -/
def targets : Expr → List String
  | .literal .. | .symbol .. | .function .. => []
  | .list items _ => targetsAll items
  | .define name value _ => name :: value.targets
  | .group inner _ => inner.targets
  | .unary _ operand _ => operand.targets
  | .binary _ lhs rhs _ => lhs.targets ++ rhs.targets
  | .choice test _ _ _ => test.targets
  | .call callee args _ => callee.targets ++ targetsAll args

/-- The symbols that one of several expressions defines. -/
def targetsAll : List Expr → List String
  | [] => []
  | e :: es => e.targets ++ targetsAll es

end

end Expr

namespace Frame

variable {α : Type}

/-- Replacing the value of a symbol does not touch the others. -/
theorem lookup_replace_other (entries : List (String × α)) {name other : String} (a : α)
    (h : other ≠ name) :
    (entries.map fun entry => if entry.1 = name then (name, a) else entry).lookup other
      = entries.lookup other := by
  induction entries with
  | nil => rfl
  | cons entry entries ih =>
      obtain ⟨key, v⟩ := entry
      rw [List.map_cons]
      by_cases hk : key = name
      · rw [if_pos hk, List.lookup_cons, List.lookup_cons, hk, beq_eq_false_iff_ne.mpr h]
        exact ih
      · rw [if_neg hk, List.lookup_cons, List.lookup_cons, ih]

/-- A symbol has the value that has replaced its old one. -/
theorem lookup_replace_self (entries : List (String × α)) (name : String) (a : α)
    (h : (entries.lookup name).isSome = true) :
    (entries.map fun entry => if entry.1 = name then (name, a) else entry).lookup name
      = some a := by
  induction entries with
  | nil => exact nomatch h
  | cons entry entries ih =>
      obtain ⟨key, v⟩ := entry
      rw [List.map_cons]
      by_cases hk : key = name
      · rw [if_pos hk, List.lookup_cons, beq_self_eq_true]
      · rw [if_neg hk, List.lookup_cons, beq_eq_false_iff_ne.mpr (Ne.symm hk)]
        rw [List.lookup_cons, beq_eq_false_iff_ne.mpr (Ne.symm hk)] at h
        exact ih h

/-- Binding a symbol changes what it is bound to, and nothing else. -/
theorem get?_set (f : Frame α) (name other : String) (a : α) :
    (f.set name a).get? other = if other = name then some a else f.get? other := by
  unfold Frame.set
  by_cases hb : (f.get? name).isSome = true
  · rw [if_pos hb]
    by_cases ho : other = name
    · rw [if_pos ho, ho]
      exact lookup_replace_self f.entries name a hb
    · rw [if_neg ho]
      exact lookup_replace_other f.entries a ho
  · rw [if_neg hb]
    simp only [Frame.get?, List.lookup_cons]
    by_cases ho : other = name
    · rw [if_pos ho, ho, beq_self_eq_true]
    · rw [if_neg ho, beq_eq_false_iff_ne.mpr ho]

end Frame

/-- Only the innermost frame differs, no symbol is lost from it, and none but
    the given ones is bound anew. -/
structure Store.Binds (names : List String) (s s' : Store) : Prop where
  builtins : s'.env.builtins = s.env.builtins
  outer : s'.env.outer = s.env.outer
  kept : ∀ name, (s.env.innermost.get? name).isSome = true →
    (s'.env.innermost.get? name).isSome = true
  others : ∀ name, name ∉ names → s'.env.innermost.get? name = s.env.innermost.get? name

namespace Store.Binds

variable {names more : List String} {s s' s'' : Store}

/-- An environment that is left alone is one in which nothing was bound. -/
theorem of_env_eq (h : s'.env = s.env) : Store.Binds names s s' := by
  constructor
  · rw [h]
  · rw [h]
  · intro name hn
    rw [h]
    exact hn
  · intro name _
    rw [h]

/-- Two changes in a row, to the same symbols. -/
theorem trans (h : Store.Binds names s s') (h' : Store.Binds names s' s'') :
    Store.Binds names s s'' where
  builtins := h'.builtins.trans h.builtins
  outer := h'.outer.trans h.outer
  kept name hn := h'.kept name (h.kept name hn)
  others name hn := (h'.others name hn).trans (h.others name hn)

theorem mono (h : Store.Binds names s s') (hsub : names ⊆ more) : Store.Binds more s s' where
  builtins := h.builtins
  outer := h.outer
  kept := h.kept
  others name hn := h.others name fun hm => hn (hsub hm)

/-- Dropping the frame that was opened gives the environment back. -/
theorem pop_eq (h : Store.Binds names { s with env := s.env.push } s') :
    s'.env.pop = s.env := by
  obtain ⟨⟨innermost, outer, builtins⟩, random, identity⟩ := s'
  have hb : builtins = s.env.builtins := h.builtins
  have ho : outer = s.env.innermost :: s.env.outer := h.outer
  subst hb ho
  rfl

end Store.Binds

namespace Eval

variable {α β : Type}

/-- A step that binds only the given symbols, however it ends. -/
def Binds (names : List String) (x : Eval α) : Prop :=
  ∀ (σ : Type) [Host σ] (s : Store) (host : σ),
    Store.Binds names s ((x s).result host).1.2

variable {names more : List String}

/-- A detached step binds nothing. -/
theorem Detached.binds {x : Eval α} (h : Detached x) : Binds names x :=
  fun _ _ s host => .of_env_eq (h.env_eq s host)

theorem Binds.mono {x : Eval α} (h : Binds names x) (hsub : names ⊆ more) : Binds more x :=
  fun σ _ s host => (h σ s host).mono hsub

/-- Steps that bind some symbols, one after the other. -/
theorem Binds.bind {x : Eval α} {f : α → Eval β} (hx : Binds names x)
    (hf : ∀ a, Binds names (f a)) : Binds names (x >>= f) := by
  intro σ _ s host
  have h := hx σ s host
  rw [result_bind]
  -- the outcome is split, not the dialogue: an error keeps what was bound so far
  generalize (x s).result host = outcome at h ⊢
  obtain ⟨⟨r, s'⟩, host'⟩ := outcome
  cases r with
  | error e => exact h
  | ok a => exact h.trans (hf a σ s' host')

/-- What is bound in a frame of its own goes with it. -/
theorem Binds.inFrame {x : Eval α} (h : Binds more x) : Binds names (inFrame x) :=
  fun σ _ s host => .of_env_eq (h σ { s with env := s.env.push } host).pop_eq

theorem binds_lookup (name : String) (line : Nat) : Binds names (lookup name line) := by
  intro σ _ s host
  unfold lookup
  split <;> exact .of_env_eq rfl

/-- Making a closure binds nothing; it is the definition around it that does. -/
theorem binds_close (params : List String) (body : List Expr) (selfName? : Option String) :
    Binds names (close params body selfName?) :=
  fun _ _ _ _ => .of_env_eq rfl

/-- A definition binds its symbol. -/
theorem binds_define {name : String} (hn : name ∈ names) (v : Value) :
    Binds names (define name v) := by
  intro σ _ s host
  refine ⟨rfl, rfl, ?_, ?_⟩
  · intro other ho
    show ((s.env.innermost.set name v).get? other).isSome = true
    rw [Frame.get?_set]
    split
    · rfl
    · exact ho
  · intro other ho
    show (s.env.innermost.set name v).get? other = _
    rw [Frame.get?_set, if_neg]
    rintro rfl
    exact ho hn

end Eval

namespace Expr

open Eval

variable {enter : Enter}

/-- Items and arguments bind what each of them defines. -/
theorem binds_evalAll {es : List Expr} (h : ∀ e ∈ es, Binds e.targets (e.eval enter)) :
    Binds (targetsAll es) (evalAll enter es) := by
  induction es with
  | nil => exact (detached_pure _).binds
  | cons e es ih =>
      obtain ⟨he, hes⟩ := List.forall_mem_cons.mp h
      rw [evalAll, targetsAll]
      refine (he.mono (List.subset_append_left ..)).bind fun v => ?_
      refine ((ih hes).mono (List.subset_append_right ..)).bind fun vs => ?_
      exact (detached_pure _).binds

/-- Steps bind what each of them defines, up to the one that fails. -/
theorem binds_evalSteps {es : List Expr} (h : ∀ e ∈ es, Binds e.targets (e.eval enter)) :
    Binds (targetsAll es) (evalSteps enter es) := by
  induction es with
  | nil => exact (detached_pure _).binds
  | cons e es ih =>
      obtain ⟨he, hes⟩ := List.forall_mem_cons.mp h
      cases es with
      | nil =>
          rw [evalSteps, targetsAll]
          exact he.mono (List.subset_append_left ..)
      | cons f es =>
          rw [evalSteps, targetsAll]
          refine (he.mono (List.subset_append_left ..)).bind fun _ => ?_
          exact (ih hes).mono (List.subset_append_right ..)

/-- Evaluating an expression binds only what the expression defines. -/
theorem binds_eval (he : ∀ c args line, Detached (enter c args line)) (e : Expr) :
    Binds e.targets (e.eval enter) := by
  induction e using Expr.induction with
  | literal value n => rw [eval]; exact (detached_pure _).binds
  | list items n ih =>
      rw [eval]
      exact (binds_evalAll ih).bind fun _ => (detached_pure _).binds
  | symbol name n => rw [eval]; exact binds_lookup name n
  | define name value n ih =>
      unfold eval
      have bindAndReturn : ∀ v, Binds (name :: value.targets)
          (do Eval.define name v; pure v : Eval Value) := fun v =>
        (binds_define (List.mem_cons_self ..) v).bind fun _ => (detached_pure _).binds
      rw [targets]
      dsimp only
      -- a function is not evaluated but closed over, under its own name
      split
      · exact (binds_close _ _ _).bind bindAndReturn
      · exact (ih.mono (List.subset_cons_self ..)).bind bindAndReturn
  | group inner n ih => rw [eval]; exact ih
  | unary op operand n ih =>
      rw [eval]
      exact ih.bind fun v => (detached_ofExcept _).binds
  | binary op lhs rhs n ihl ihr =>
      rw [eval, targets]
      have hr := ihr.mono (List.subset_append_right lhs.targets _)
      refine (ihl.mono (List.subset_append_left ..)).bind fun l => ?_
      split
      · exact hr.bind fun r => (detached_ofExcept _).binds
      · split
        · exact (detached_pure _).binds
        · refine hr.bind fun r => ?_
          split
          · exact (detached_pure _).binds
          · exact (detached_fail _).binds
      · exact (detached_fail _).binds
  | choice test yes no n iht ihy ihn =>
      rw [eval, targets]
      refine iht.bind fun v => ?_
      -- the definitions of a branch go with its frame, so only the test counts
      split
      · exact (binds_evalSteps ihy).inFrame
      · exact (binds_evalSteps ihn).inFrame
      · exact (detached_fail _).binds
  | function params body n ih => rw [eval]; exact binds_close _ _ _
  | call callee args n ihc iha =>
      rw [eval, targets]
      refine (ihc.mono (List.subset_append_left ..)).bind fun v => ?_
      split
      · next f =>
          split
          · exact (detached_fail _).binds
          · refine ((binds_evalAll iha).mono (List.subset_append_right ..)).bind fun vs => ?_
            exact (f.detached_call he vs n).binds
      · exact (detached_fail _).binds

end Expr

/-- What may be done to the live environment between two calls. -/
inductive EnvEdit where
  /-- A symbol is bound, or bound anew. -/
  | bind (name : String) (v : Value)
  | push
  | pop
  /-- Another environment, say one kept from before, takes its place. -/
  | restore (env : Env Value)

/-- The environment after an edit. -/
def EnvEdit.apply (env : Env Value) : EnvEdit → Env Value
  | .bind name v => env.bind name v
  | .push => env.push
  | .pop => env.pop
  | .restore other => other

namespace Session

/-- Entering a closure in a session is detached. -/
theorem detached_enter (s : Session) (c : Closure Value) (args : List Value) (line : Nat) :
    Eval.Detached (s.enter c args line) :=
  Closure.detached_enter _ _ c args line

/-- A step done in a session touches nothing but the store. -/
theorem run_perform {σ α : Type} [Host σ] (s : Session) (x : Eval α) (host : σ) :
    (s.perform x).run host
      = ((((x s.store).result host).1.1, { s with store := ((x s.store).result host).1.2 }),
          ((x s.store).result host).2) := by
  rw [Dialogue.run_eq_result]
  rfl

/-- A detached step gives the same in another environment, and gives that one
    back. -/
theorem run_perform_withEnv {σ α : Type} [Host σ] (s : Session) {x : Eval α}
    (hx : Eval.Detached x) (env : Env Value) (host : σ) :
    ((s.withEnv env).perform x).run host
      = ((((s.perform x).run host).1.1, ((s.perform x).run host).1.2.withEnv env),
          ((s.perform x).run host).2) := by
  have h := hx σ s.store env host
  rw [run_perform, run_perform, withEnv, h]
  rfl

/-- A call gives the same in another environment, and gives that one back. -/
theorem run_call_withEnv {σ : Type} [Host σ] (s : Session) (f : Callable Value)
    (args : List Value) (line : Nat) (env : Env Value) (host : σ) :
    ((s.withEnv env).call f args line).run host
      = ((((s.call f args line).run host).1.1, ((s.call f args line).run host).1.2.withEnv env),
          ((s.call f args line).run host).2) :=
  s.run_perform_withEnv (f.detached_call s.detached_enter args line) env host

/-- However a call ends, the environment is as before. -/
theorem env_call {σ : Type} [Host σ] (s : Session) (host : σ) (f : Callable Value)
    (args : List Value) (line : Nat) : ((s.call f args line).run host).1.2.env = s.env := by
  rw [call, run_perform]
  exact (f.detached_call s.detached_enter args line).env_eq s.store host

/-- **Scoping is lexical.**  What a call gives does not depend on the
    environment it is made in: in two sessions that differ in nothing else, it
    ends with the same value or error, the host and the rest of the session
    are left the same, and either environment is as before.  So nothing that
    is done to the live environment later changes what a function does. -/
theorem call_ignores_env {σ : Type} [Host σ] (s : Session) (f : Callable Value)
    (args : List Value) (line : Nat) (host : σ) :
    (∀ env₁ env₂ : Env Value,
      let r₁ := ((s.withEnv env₁).call f args line).run host
      let r₂ := ((s.withEnv env₂).call f args line).run host
      r₁.1.1 = r₂.1.1 ∧ r₁.2 = r₂.2 ∧ r₁.1.2.withEnv env₂ = r₂.1.2
        ∧ r₁.1.2.env = env₁ ∧ r₂.1.2.env = env₂) ∧
    (∀ edits : List EnvEdit,
      let env := edits.foldl EnvEdit.apply s.env
      let before := (s.call f args line).run host
      let later := ((s.withEnv env).call f args line).run host
      later.1.1 = before.1.1 ∧ later.2 = before.2 ∧ later.1.2 = before.1.2.withEnv env) := by
  constructor
  · intro env₁ env₂
    rw [run_call_withEnv, run_call_withEnv]
    exact ⟨rfl, rfl, rfl, rfl, rfl⟩
  · intro edits env before later
    have h : later = _ := s.run_call_withEnv f args line env host
    rw [h]
    exact ⟨rfl, rfl, rfl⟩

end Session

end Scriptlet
