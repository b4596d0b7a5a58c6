import Scriptlet.Proofs.Machine

/-! # Functions that are called back

    `map` and `filter` call a function on the items of a list by a loop of their
    own.  Mapping a function does what the list of its calls does, written out and
    evaluated where names stand for the function and for the items
    (`Expr.on_evalAll_of_calls`).

    What a loop comes to is told by the calls that it makes, one after the other
    (`Session.Answers`).  Filtering goes through the items as mapping does, up to the
    first call that fails or does not answer with a truth value
    (`Session.Filters`). -/

namespace Scriptlet

/-! ## Mapping is the list of the calls -/

namespace Eval

variable {σ α β : Type} [Host σ] {S : State σ}

/-- Steps that come to the same, followed by steps that come to the same after
    that. -/
theorem on_bind_congr {x y : Eval α} {k l : α → Eval β} (hxy : x.on S = y.on S)
    (hkl : ∀ a S', y.on S = (.ok a, S') → (k a).on S' = (l a).on S') :
    (x >>= k).on S = (y >>= l).on S := by
  rcases hy : y.on S with ⟨r, S'⟩
  cases r with
  | error err => rw [on_bind_error (hxy.trans hy), on_bind_error hy]
  | ok a => rw [on_bind_ok (hxy.trans hy), on_bind_ok hy, hkl a S' hy]

theorem Detached.env_of_on {x : Eval α} (hx : Detached x) {r : Except RuntimeError α}
    {S' : State σ} (h : x.on S = (r, S')) : S'.env = S.env := by
  obtain ⟨-, rfl⟩ := Prod.mk.inj h
  exact hx.env_eq S.toStore S.host

end Eval

namespace Expr

variable {σ : Type} [Host σ] {enter : Enter} {f : Callable Value} {g : String} {n : Nat}

/-- A call of a function by its name on a value by its name is a call of the
    function on the value. -/
theorem on_call_of_names {S : State σ} {y : String} {x : Value} (hf : f.arity = 1)
    (hg : S.env.lookup? g = some (.function f)) (hy : S.env.lookup? y = some x) :
    ((Expr.call (.symbol g n) [.symbol y n] n).eval enter).on S = (f.call enter [x] n).on S := by
  have hargs : (evalAll enter [.symbol y n]).on S = (.ok [x], S) := by
    rw [evalAll, eval, Eval.on_bind_ok (Eval.on_lookup_some hy n)]
    rfl
  have hcount : ¬ f.arity ≠ [Expr.symbol y n].length := not_not_intro hf
  rw [eval, eval, Eval.on_bind_ok (Eval.on_lookup_some hg n)]
  dsimp only
  rw [if_neg hcount, Eval.on_bind_ok hargs]

/-- The values of calls by names are what the function is mapped to.  No call
    touches the environment, so the names mean the same for the next one. -/
theorem on_evalAll_of_calls (he : ∀ c args line, Eval.Detached (enter c args line))
    (hf : f.arity = 1) {ys : List String} {xs : List Value} (S : State σ)
    (hg : S.env.lookup? g = some (.function f))
    (hys : ys.map S.env.lookup? = xs.map some) :
    (evalAll enter (ys.map fun y => .call (.symbol g n) [.symbol y n] n)).on S
      = (Builtin.mapItems (fun v => f.call enter [v] n) xs).on S := by
  induction ys generalizing xs S with
  | nil =>
      cases xs with
      | nil => rw [List.map_nil, evalAll, Builtin.mapItems]
      | cons x xs => cases hys
  | cons y ys ih =>
      cases xs with
      | nil => cases hys
      | cons x xs =>
          obtain ⟨hy, hys⟩ := List.cons.inj hys
          rw [List.map_cons, evalAll, Builtin.mapItems]
          refine Eval.on_bind_congr (on_call_of_names hf hg hy) fun w S' hcall => ?_
          have henv : S'.env = S.env := (f.detached_call he [x] n).env_of_on hcall
          rw [← henv] at hg hys
          exact Eval.on_bind_congr (ih S' hg hys) fun ws S'' _ => rfl

end Expr

namespace Session

variable {σ : Type} [Host σ]

/-- Steps that come to the same in the state of a session are done alike. -/
theorem run_perform_congr {α : Type} {s : Session} {host : σ} {x y : Eval α}
    (h : x.on (s.state host) = y.on (s.state host)) :
    (s.perform x).run host = (s.perform y).run host := by
  obtain ⟨hr, hstate⟩ := Prod.mk.inj h
  obtain ⟨hstore, -, hhost⟩ := State.mk.inj hstate
  have hresult : (x s.store).result host = (y s.store).result host :=
    Prod.ext (Prod.ext hr hstore) hhost
  rw [run_perform, run_perform, hresult]

/-! ## The calls of a loop -/

/-- Called on these values, one after the other from a session and a host, a function
    answers with those, and this is the session and the host afterwards. -/
inductive Answers (f : Callable Value) (line : Nat) :
    Session → σ → List Value → List Value → Session → σ → Prop where
  | done {s : Session} {host : σ} : Answers f line s host [] [] s host
  | next {s s₁ s' : Session} {host host₁ host' : σ} {x w : Value} {xs ws : List Value} :
      (s.call f [x] line).run host = ((.ok w, s₁), host₁) →
      Answers f line s₁ host₁ xs ws s' host' →
      Answers f line s host (x :: xs) (w :: ws) s' host'

/-- The values that were answered with true. -/
def chosen (xs : List Value) (answers : List Bool) : List Value :=
  ((xs.zip answers).filter (·.2)).map (·.1)

/-- `Filters f line s host xs called r s' host'` when filtering `xs` by `f` calls it on
    the values `called`, comes to `r`, and leaves this session and host. -/
inductive Filters (f : Callable Value) (line : Nat) (s : Session) (host : σ) :
    (xs called : List Value) → Except RuntimeError (List Value) → Session → σ → Prop where
  /-- Every call answers with a truth value. -/
  | all {xs : List Value} {answers : List Bool} {s' : Session} {host' : σ} :
      Answers f line s host xs (answers.map .bool) s' host' →
      Filters f line s host xs xs (.ok (chosen xs answers)) s' host'
  /-- A call fails. -/
  | fails {before after : List Value} {x : Value} {answers : List Bool} {s₁ s' : Session}
      {host₁ host' : σ} {err : RuntimeError} :
      Answers f line s host before (answers.map .bool) s₁ host₁ →
      (s₁.call f [x] line).run host₁ = ((.error err, s'), host') →
      Filters f line s host (before ++ x :: after) (before ++ [x]) (.error err) s' host'
  /-- A call answers with something else. -/
  | notBool {before after : List Value} {x w : Value} {answers : List Bool} {s₁ s' : Session}
      {host₁ host' : σ} :
      Answers f line s host before (answers.map .bool) s₁ host₁ →
      (s₁.call f [x] line).run host₁ = ((.ok w, s'), host') → w.bool? = none →
      Filters f line s host (before ++ x :: after) (before ++ [x])
        (.error (.contractViolation "filter"
          ("expected a boolean from the predicate, found " ++ w.typeName) line)) s' host'

variable {α β : Type} {s s₁ s' : Session} {host host₁ host' : σ} {x : Eval α}
  {f : Callable Value} {line : Nat}

/-- Steps one after the other, done in a session: the later ones in the session that
    the earlier ones leave, unless these fail. -/
theorem run_perform_bind (s : Session) (host : σ) (x : Eval α) (k : α → Eval β) :
    (s.perform (x >>= k)).run host =
      match (s.perform x).run host with
      | ((.ok a, s₁), host₁) => (s₁.perform (k a)).run host₁
      | ((.error err, s₁), host₁) => ((.error err, s₁), host₁) := by
  rw [run_perform, run_perform, Eval.result_bind]
  rcases (x s.store).result host with ⟨⟨r, store⟩, host₁⟩
  cases r with
  | error err => rfl
  | ok a => exact (run_perform { s with store := store } (k a) host₁).symm

theorem run_perform_bind_ok {a : α} (h : (s.perform x).run host = ((.ok a, s₁), host₁))
    (k : α → Eval β) : (s.perform (x >>= k)).run host = (s₁.perform (k a)).run host₁ := by
  rw [run_perform_bind, h]

theorem run_perform_bind_error {err : RuntimeError}
    (h : (s.perform x).run host = ((.error err, s₁), host₁)) (k : α → Eval β) :
    (s.perform (x >>= k)).run host = ((.error err, s₁), host₁) := by
  rw [run_perform_bind, h]

theorem run_perform_map (s : Session) (host : σ) (x : Eval α) (k : α → β) :
    (s.perform (x >>= fun a => pure (k a))).run host
      = ((((s.perform x).run host).1.1.map k, ((s.perform x).run host).1.2),
          ((s.perform x).run host).2) := by
  rcases h : (s.perform x).run host with ⟨⟨r, s₁⟩, host₁⟩
  cases r with
  | error err => rw [run_perform_bind_error h]; rfl
  | ok a => rw [run_perform_bind_ok h]; rfl

/-- After a call, closures are entered as before. -/
theorem enter_of_call {args : List Value} {r : Except RuntimeError Value}
    (h : (s.call f args line).run host = ((r, s₁), host₁)) : s₁.enter = s.enter := by
  rw [call, run_perform] at h
  obtain ⟨hrs, -⟩ := Prod.mk.inj h
  obtain ⟨-, rfl⟩ := Prod.mk.inj hrs
  rfl

/-- The loops with calls like those of the session. -/
theorem call_map (s : Session) (hf : f.arity = 1) (items : Items Value) (line : Nat) :
    s.call (.builtin .map) [.function f, .list items] line
      = s.perform (Builtin.mapItems (fun v => f.call s.enter [v] line) items.toList
          >>= fun vs => pure (.ofList vs)) := by
  rw [call, Callable.call_builtin rfl, ← Builtin.callOne_eq hf]
  exact congrArg s.perform (if_pos hf)

theorem call_filter (s : Session) (hf : f.arity = 1) (items : Items Value) (line : Nat) :
    s.call (.builtin .filter) [.function f, .list items] line
      = s.perform (Builtin.filterItems (fun v => f.call s.enter [v] line) line items.toList
          >>= fun vs => pure (.ofList vs)) := by
  rw [call, Callable.call_builtin rfl, ← Builtin.callOne_eq hf]
  exact congrArg s.perform (if_pos hf)

/-- Mapping goes on behind the calls that have answered. -/
theorem Answers.run_mapItems {before ws : List Value}
    (h : Answers f line s host before ws s' host') (after : List Value) :
    let rest := (s'.perform (Builtin.mapItems (fun v => f.call s'.enter [v] line) after)).run host'
    (s.perform (Builtin.mapItems (fun v => f.call s.enter [v] line) (before ++ after))).run host
      = ((rest.1.1.map (ws ++ ·), rest.1.2), rest.2) := by
  induction h with
  | @done s host =>
      intro rest
      have hid : ∀ r : Except RuntimeError (List Value), r.map ([] ++ ·) = r := by
        intro r
        cases r <;> rfl
      rw [hid, List.nil_append]
  | @next s s₁ s' host host₁ host' x w xs ws hcall hxs ih =>
      intro rest
      rw [List.cons_append, Builtin.mapItems, run_perform_bind_ok hcall, run_perform_map,
        ← enter_of_call hcall, ih]
      have hcons : ∀ r : Except RuntimeError (List Value),
          (r.map (ws ++ ·)).map (w :: ·) = r.map (w :: ws ++ ·) := by
        intro r
        cases r <;> rfl
      rw [hcons]

/-! ## Filtering -/

variable {xs called : List Value} {r : Except RuntimeError (List Value)}

/-- Filtering makes the same calls as mapping what it calls on, and they leave the
    session and the host alike. -/
theorem Filters.run_mapItems (h : Filters f line s host xs called r s' host') :
    let mapped := (s.perform (Builtin.mapItems (fun v => f.call s.enter [v] line) called)).run host
    mapped.1.2 = s' ∧ mapped.2 = host' := by
  intro mapped
  cases h with
  | all hall =>
      have hrun := hall.run_mapItems []
      rw [List.append_nil] at hrun
      have hmap : mapped = _ := hrun
      rw [hmap]
      exact ⟨rfl, rfl⟩
  | fails hbefore hcall =>
      have hmap : mapped = _ := hbefore.run_mapItems _
      rw [hmap, Builtin.mapItems, run_perform_bind_error hcall]
      exact ⟨rfl, rfl⟩
  | notBool hbefore hcall _ =>
      have hmap : mapped = _ := hbefore.run_mapItems _
      rw [hmap, Builtin.mapItems, run_perform_bind_ok hcall]
      exact ⟨rfl, rfl⟩

/-- One more call in front that answers with a truth value. -/
theorem Filters.next {x : Value} {keep : Bool}
    (hcall : (s.call f [x] line).run host = ((.ok (.bool keep), s₁), host₁))
    (h : Filters f line s₁ host₁ xs called r s' host') :
    Filters f line s host (x :: xs) (x :: called)
      (r.map fun kept => if keep then x :: kept else kept) s' host' := by
  cases h with
  | @all _ answers _ _ hall =>
      have hchosen : chosen (x :: xs) (keep :: answers)
          = if keep then x :: chosen xs answers else chosen xs answers := by
        cases keep <;> rfl
      rw [Except.map, ← hchosen]
      exact .all (.next hcall hall)
  | @fails _ _ _ answers _ _ _ _ _ hbefore hfail =>
      have hnext : Answers f line s host _ ((keep :: answers).map .bool) _ _ :=
        .next hcall hbefore
      exact .fails hnext hfail
  | @notBool _ _ _ _ answers _ _ _ _ hbefore hanswer hw =>
      have hnext : Answers f line s host _ ((keep :: answers).map .bool) _ _ :=
        .next hcall hbefore
      exact .notBool hnext hanswer hw

/-- What filtering comes to, whatever the calls do. -/
theorem exists_filters (s : Session) (host : σ) (f : Callable Value) (line : Nat)
    (xs : List Value) :
    let out := (s.perform
      (Builtin.filterItems (fun v => f.call s.enter [v] line) line xs)).run host
    ∃ called, Filters f line s host xs called out.1.1 out.1.2 out.2 := by
  induction xs generalizing s host with
  | nil =>
      have hnone : Answers f line s host [] (([] : List Bool).map .bool) s host := .done
      exact ⟨[], .all hnone⟩
  | cons x xs ih =>
      intro out
      have hnone : Answers f line s host [] (([] : List Bool).map .bool) s host := .done
      rcases hcall : (s.call f [x] line).run host with ⟨⟨r, s₁⟩, host₁⟩
      cases r with
      | error err =>
          have hout : out = ((.error err, s₁), host₁) := run_perform_bind_error hcall _
          rw [hout]
          have hfails : Filters f line s host ([] ++ x :: xs) ([] ++ [x]) (.error err) s₁ host₁ :=
            .fails hnone hcall
          exact ⟨[x], hfails⟩
      | ok w =>
          have hout : out = _ := run_perform_bind_ok hcall _
          cases w with
          | bool keep =>
              obtain ⟨called, hrest⟩ := ih s₁ host₁
              rw [hout, run_perform_map, ← enter_of_call hcall]
              exact ⟨x :: called, hrest.next hcall⟩
          | _ =>
              rw [hout]
              have hviolates : Filters f line s host ([] ++ x :: xs) ([] ++ [x]) _ s₁ host₁ :=
                .notBool hnone hcall rfl
              exact ⟨[x], hviolates⟩

/-- **Functions are called back as they are called.**  Mapping a function of one
    argument over a list comes to the same value or error as the list of its calls,
    written on the same line and evaluated in any environment in which names stand for
    the function and for the items, and it leaves the host and the session alike.
    Filtering calls the function on the items in order, once each, and stops at the
    first call that fails, with its error, or that answers with no truth value, which
    violates the contract; else it gives the items that were answered with true.  What
    it does to the session and to the host is what mapping the items does that it has
    called the function on.  Both leave the environment as it was, whatever they are
    called with, and every call that was counted in is counted out. -/
theorem callbacks_are_calls (s : Session) (host : σ) (f : Callable Value) (hf : f.arity = 1)
    (items : Items Value) (line : Nat) :
    let mapped := (s.call (.builtin .map) [.function f, .list items] line).run host
    let filtered := (s.call (.builtin .filter) [.function f, .list items] line).run host
    (∀ (scope : Env Value) (g : String) (ys : List String),
      scope.lookup? g = some (.function f) → ys.map scope.lookup? = items.toList.map some →
      ((s.withEnv scope).eval
          (.list (ys.map fun y => .call (.symbol g line) [.symbol y line] line) line)).run host
        = ((mapped.1.1, mapped.1.2.withEnv scope), mapped.2)) ∧
    (∃ called r, Filters f line s host items.toList called r filtered.1.2 filtered.2
      ∧ filtered.1.1 = r.map .ofList
      ∧ let front := (s.call (.builtin .map) [.function f, .ofList called] line).run host
        front.1.2 = filtered.1.2 ∧ front.2 = filtered.2) ∧
    (∀ b : Builtin, b = .map ∨ b = .filter → ∀ args : List Value,
      let out := (s.call (.builtin b) args line).run host
      out.1.2.env = s.env ∧ s.CountedOut host (.call (.builtin b) args line) out) := by
  intro mapped filtered
  refine ⟨?_, ?_, ?_⟩
  · intro scope g ys hg hys
    have hcalls : ((s.withEnv scope).eval
          (.list (ys.map fun y => .call (.symbol g line) [.symbol y line] line) line)).run host
        = ((s.withEnv scope).call (.builtin .map) [.function f, .list items] line).run host := by
      rw [eval, Expr.eval, call_map _ hf]
      refine run_perform_congr (Eval.on_bind_congr ?_ fun _ _ _ => rfl)
      exact Expr.on_evalAll_of_calls s.detached_enter hf _ hg hys
    rw [hcalls, run_call_withEnv]
  · obtain ⟨called, hfilters⟩ := exists_filters s host f line items.toList
    have hfiltered : filtered = _ :=
      (congrArg (Dialogue.run · host) (call_filter s hf items line)).trans
        (run_perform_map s host _ _)
    refine ⟨called, _, ?_, congrArg (·.1.1) hfiltered, ?_⟩
    · rw [hfiltered]
      exact hfilters
    · intro front
      have hfront : front = _ :=
        (congrArg (Dialogue.run · host) (call_map s hf (.ofList called) line)).trans
          (run_perform_map s host _ _)
      rw [hfront, hfiltered]
      exact hfilters.run_mapItems
  · intro b _ args
    exact ⟨s.env_call host (.builtin b) args line, s.countedOut_call host (.builtin b) args line⟩

/-- A function that gives its argument back, on a truth value, nil and a truth value:
    it can be mapped, but filtering stops in the middle. -/
theorem callbacks_are_calls_identity :
    let s := Session.new { maxDepth := 2 } fun _ => .always 0
    let host : Buffer := {}
    let f : Callable Value := .closure ⟨0, ["x"], [.symbol "x" 1], s.env, none⟩
    let items : Items Value := .ofList [.bool true, .nil, .bool true]
    let ys := ["a", "b", "a"]
    let scope := s.env.bindAll [("g", .function f), ("a", .bool true), ("b", .nil)]
    f.arity = 1
      ∧ scope.lookup? "g" = some (.function f)
      ∧ ys.map scope.lookup? = items.toList.map some
      ∧ ((s.withEnv scope).eval
          (.list (ys.map fun y => .call (.symbol "g" 1) [.symbol y 1] 1) 1)).run host
        = ((.ok (.list items), s.withEnv scope), host)
      ∧ (∃ called r, Filters f 1 s host items.toList called r s host
        ∧ r.map Value.ofList = .error (.contractViolation "filter"
          "expected a boolean from the predicate, found nil" 1))
      ∧ ((s.call (.builtin .map) [] 1).run host).1.2.env = s.env := by
  intro s host f items ys scope
  have hf : f.arity = 1 := rfl
  have hg : scope.lookup? "g" = some (.function f) := rfl
  have hys : ys.map scope.lookup? = items.toList.map some := rfl
  obtain ⟨hmap, ⟨called, r, hfilters, hr, -⟩, hkept⟩ := callbacks_are_calls s host f hf items 1
  exact ⟨hf, hg, hys, hmap scope "g" ys hg hys, ⟨called, r, hfilters, hr.symm⟩,
    (hkept .map (.inl rfl) []).1⟩

end Session

end Scriptlet
