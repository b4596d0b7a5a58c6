import Scriptlet.Proofs.TwoRuns

/-! # Evaluation depends on the names that the code mentions

    An environment is looked at through the symbols of the code only: those of
    the expression, and those in the bodies of the functions it calls.  A
    closure keeps a whole environment, so two runs in different environments make
    different values; but the closures differ in bindings only that their bodies
    do not mention, and so on inside what these bindings hold
    (`Closure.Related`).  Related environments may have other frames, and any
    other bindings. -/

namespace Scriptlet

namespace Expr

mutual

/-- The identifiers that occur in an expression. -/
def names : Expr → List String
  | .literal .. => []
  | .list items _ => namesAll items
  | .symbol name _ => [name]
  | .define name value _ => name :: value.names
  | .group inner _ => inner.names
  | .unary _ operand _ => operand.names
  | .binary _ lhs rhs _ => lhs.names ++ rhs.names
  | .choice test yes no _ => test.names ++ (namesAll yes ++ namesAll no)
  | .function params body _ => params ++ namesAll body
  | .call callee args _ => callee.names ++ namesAll args

/-- The identifiers that occur in one of several expressions. -/
def namesAll : List Expr → List String
  | [] => []
  | e :: es => e.names ++ namesAll es

end

theorem names_subset_namesAll {e : Expr} {es : List Expr} (h : e ∈ es) :
    e.names ⊆ namesAll es := by
  induction es with
  | nil => cases h
  | cons f es ih =>
      rw [namesAll]
      rcases List.mem_cons.mp h with rfl | h
      · exact List.subset_append_left ..
      · exact List.Subset.trans (ih h) (List.subset_append_right ..)

/-- What occurs in a part occurs in the whole. -/
theorem names_subset_of_mem_parts {e p : Expr} (h : p ∈ e.parts) : p.names ⊆ e.names := by
  cases e with
  | literal value n => cases h
  | symbol name n => cases h
  | list items n => exact names_subset_namesAll h
  | define name value n =>
      rw [List.mem_singleton.mp h]
      exact List.subset_cons_self ..
  | group inner n =>
      rw [List.mem_singleton.mp h]
      exact fun _ hx => hx
  | unary op operand n =>
      rw [List.mem_singleton.mp h]
      exact fun _ hx => hx
  | binary op lhs rhs n =>
      rw [names]
      rcases List.mem_pair.mp h with rfl | rfl
      · exact List.subset_append_left ..
      · exact List.subset_append_right ..
  | choice test yes no n =>
      rw [names]
      rcases List.mem_cons.mp h with rfl | h
      · exact List.subset_append_left ..
      · refine List.Subset.trans ?_ (List.subset_append_right ..)
        rcases List.mem_append.mp h with h | h
        · exact List.Subset.trans (names_subset_namesAll h) (List.subset_append_left ..)
        · exact List.Subset.trans (names_subset_namesAll h) (List.subset_append_right ..)
  | function params body n =>
      exact List.Subset.trans (names_subset_namesAll h) (List.subset_append_right ..)
  | call callee args n =>
      rw [names]
      rcases List.mem_cons.mp h with rfl | h
      · exact List.subset_append_left ..
      · exact List.Subset.trans (names_subset_namesAll h) (List.subset_append_right ..)

end Expr

/-! ## Related closures and environments -/

/-- The same closure, over environments that give related values, or both
    nothing, to every identifier in its body. -/
inductive Closure.Related : Closure Value → Closure Value → Prop where
  | mk {c d : Closure Value} : c.identity = d.identity → c.params = d.params → c.body = d.body →
      c.selfName? = d.selfName? →
      (∀ name ∈ Expr.namesAll c.body,
        Option.Rel (Value.Like Related) (c.scope.lookup? name) (d.scope.lookup? name)) →
      Related c d

/-- The same data, with related closures in the same places. -/
abbrev Value.Related : Value → Value → Prop :=
  Value.Like Closure.Related

/-- The environments give related values, or both nothing, to each of the
    names. -/
def Env.RelatedOn (names : List String) (a b : Env Value) : Prop :=
  ∀ name ∈ names, Option.Rel Value.Related (a.lookup? name) (b.lookup? name)

/-- Every value is related to itself. -/
theorem Value.Related.refl (v : Value) : v.Related v := by
  refine Value.Like.refl (fun c hc => .mk rfl rfl rfl rfl fun name _ => ?_) v
  cases hv : c.scope.lookup? name with
  | none => exact .none
  | some v => exact .some (hc v (Env.holds_of_lookup? hv))

/-- Environments in which some names mean the same. -/
theorem Env.relatedOn_of_eq {names : List String} {a b : Env Value}
    (h : ∀ name ∈ names, a.lookup? name = b.lookup? name) : Env.RelatedOn names a b := by
  intro name hname
  rw [h name hname]
  cases b.lookup? name with
  | none => exact .none
  | some v => exact .some (.refl v)

/-- The same code, in environments that are related on the names in it. -/
def Likeness.mentions : Likeness where
  View := List String
  line := Eq
  text := Eq
  excused _ := False
  closure := Closure.Related
  env := Env.RelatedOn
  expr names e f := e = f ∧ e.names ⊆ names
  text_refl _ := rfl
  text_expr h := congrArg Expr.text h.1
  layer := by
    rintro names e _ ⟨rfl, hsub⟩
    exact .self fun p hp => ⟨rfl, List.Subset.trans (Expr.names_subset_of_mem_parts hp) hsub⟩
  lookup := by
    rintro names a b name m n ⟨-, hsub⟩ henv
    exact henv name (hsub (List.mem_singleton_self name))
  push h := h
  bind := by
    intro names a b v w henv hv name other hother
    rw [Env.lookup?_bind, Env.lookup?_bind]
    split
    · exact .some hv
    · exact henv other hother
  head := by
    rintro c d ⟨hid, hparams, -, hself, -⟩
    exact ⟨hid, hparams, hself⟩
  body := by
    rintro c d ⟨-, -, hbody, -, hscope⟩
    refine ⟨Expr.namesAll c.body, hscope, ?_⟩
    rw [← hbody]
    exact List.forall₂_same.mpr fun e he => ⟨rfl, Expr.names_subset_namesAll he⟩
  close := by
    rintro names a b params body body' m n henv ⟨heq, hsub⟩ identity selfName?
    cases heq
    refine .mk rfl rfl rfl rfl fun name hname => henv name (hsub ?_)
    exact List.mem_append_right params hname

/-! ## Coincidence -/

namespace Session

variable {σ : Type}

/-- Related values or the same error, the same host, environments related on the
    names, and everything else in the sessions the same. -/
structure Coincide (names : List String) (out out' : (Except RuntimeError Value × Session) × σ) :
    Prop where
  result : ExceptLike Eq Value.Related out.1.1 out'.1.1
  host : out.2 = out'.2
  env : Env.RelatedOn names out.1.2.env out'.1.2.env
  others : out.1.2.withEnv out'.1.2.env = out'.1.2

theorem coincide_of_outcome {names : List String} {limit : Nat}
    {out out' : (Except RuntimeError Value × Session) × σ}
    (h : Likeness.mentions.Outcome (Likeness.mentions.Sessions names limit limit)
      Value.Related out out') : Coincide names out out' := by
  cases h with
  | excused he => exact he.elim
  | @alike r q s t host hr hst =>
      refine ⟨?_, rfl, hst.store.env, ?_⟩
      · cases hr with
        | ok hv => exact .ok hv
        | error he => exact .error he.eq
      · obtain ⟨⟨limit₁, seed₁⟩, ⟨env₁, random₁, identity₁⟩, depth₁⟩ := s
        obtain ⟨⟨limit₂, seed₂⟩, ⟨env₂, random₂, identity₂⟩, depth₂⟩ := t
        obtain ⟨⟨-, hrandom, hidentity⟩, hdepth, hseed, hleft, hright⟩ := hst
        dsimp only at hrandom hidentity hdepth hseed hleft hright
        subst hrandom hidentity hdepth hseed hleft hright
        rfl

/-- **Evaluation depends on the environment through the names in the code.**  In
    two environments that are related on the identifiers of an expression, it
    comes to related values or to the same error, leaves the host and the rest
    of the session the same, and leaves the environments related on these
    identifiers again.  In particular, a name that does not occur in the
    expression may be added, removed or bound anew. -/
theorem eval_coincides [Host σ] (s : Session) (host : σ) (e : Expr) :
    (∀ env env' : Env Value, Env.RelatedOn e.names env env' →
      Coincide e.names (((s.withEnv env).eval e).run host) (((s.withEnv env').eval e).run host)) ∧
    (∀ (env env' : Env Value) (name : String), name ∉ e.names →
      (∀ other, other ≠ name → env.lookup? other = env'.lookup? other) →
      Coincide e.names (((s.withEnv env).eval e).run host)
        (((s.withEnv env').eval e).run host)) := by
  have general : ∀ env env' : Env Value, Env.RelatedOn e.names env env' →
      Coincide e.names (((s.withEnv env).eval e).run host)
        (((s.withEnv env').eval e).run host) := by
    intro env env' henv
    have hsessions : Likeness.mentions.Sessions e.names s.settings.maxDepth s.settings.maxDepth
        (s.withEnv env) (s.withEnv env') := ⟨⟨henv, rfl, rfl⟩, rfl, rfl, rfl, rfl⟩
    exact coincide_of_outcome (hsessions.eval_alike (Or.inl rfl) ⟨rfl, fun _ hx => hx⟩ host)
  refine ⟨general, fun env env' name hname hothers => general env env' ?_⟩
  refine Env.relatedOn_of_eq fun other hother => hothers other ?_
  rintro rfl
  exact hname hother

/-- A function that mentions `k`, called where it was made beside `k` alone and
    where it was made beside `z` too, in another number of frames. -/
theorem eval_coincides_captured :
    let s := Session.new {} fun _ => .always 0
    let closure (scope : Env Value) : Value :=
      .function (.closure ⟨0, [], [.symbol "k" 1], scope, none⟩)
    let scope : Env Value := { innermost := ⟨[("k", .nil)]⟩ }
    let env : Env Value := { innermost := ⟨[("f", closure scope)]⟩ }
    let env' : Env Value :=
      { innermost := ⟨[("z", .nil)]⟩, outer := [⟨[("f", closure (scope.bind "z" (.bool true)))]⟩] }
    let e : Expr := .call (.symbol "f" 1) [] 1
    Env.RelatedOn e.names env env' ∧
      Coincide e.names (((s.withEnv env).eval e).run ({} : Buffer))
        (((s.withEnv env').eval e).run ({} : Buffer)) ∧
      Coincide e.names (((s.withEnv env).eval e).run ({} : Buffer))
        (((s.withEnv (env.bind "z" .nil)).eval e).run ({} : Buffer)) := by
  intro s closure scope env env' e
  have hrelated : Env.RelatedOn e.names env env' := by
    intro name hname
    obtain rfl : name = "f" := List.mem_singleton.mp hname
    refine .some (.closure (.mk rfl rfl rfl rfl fun other hother => ?_))
    obtain rfl : other = "k" := List.mem_singleton.mp hother
    exact .some .nil
  have hothers : ∀ other, other ≠ "z" → env.lookup? other = (env.bind "z" .nil).lookup? other := by
    intro other hne
    rw [Env.lookup?_bind, if_neg hne]
  have hcoincides := eval_coincides s ({} : Buffer) e
  exact ⟨hrelated, hcoincides.1 env env' hrelated,
    hcoincides.2 env (env.bind "z" .nil) "z" (by decide) hothers⟩

end Session

end Scriptlet
