import Scriptlet.Proofs.Lines
import Scriptlet.Proofs.TwoRuns

/-! # Sessions that differ in function bodies

    Source texts that differ in some respect, in their lines for instance, make
    functions with different bodies.  So the sessions they are evaluated in
    differ as well: they bind the same names, frame by frame, to values that are
    the same but for the bodies of functions (`Closure.SameBut`), and so on in
    the environments that these functions keep.

      * `Env.Like`: environments of one shape, with alike values,
      * `CodeLikeness`: a relation between expressions that extends to all that
        evaluation deals with (`CodeLikeness.run_evalProgram`),
      * `CodeLikeness.lines`: the one of expressions that differ in lines. -/

namespace Scriptlet

/-! ## Environments of one shape -/

section Shape

variable {α β : Type}

/-- One name, bound to alike values. -/
inductive Frame.LikeEntry (R : α → β → Prop) : String × α → String × β → Prop where
  | mk (name : String) {a : α} {b : β} : R a b → LikeEntry R (name, a) (name, b)

/-- The same names in the same order, bound to alike values. -/
inductive Frame.Like (R : α → β → Prop) : Frame α → Frame β → Prop where
  | mk {entries : List (String × α)} {entries' : List (String × β)} :
      List.Forall₂ (Frame.LikeEntry R) entries entries' → Like R ⟨entries⟩ ⟨entries'⟩

/-- As many frames, and alike ones. -/
inductive Env.Like (R : α → β → Prop) : Env α → Env β → Prop where
  | mk {innermost builtins : Frame α} {innermost' builtins' : Frame β} {outer : List (Frame α)}
      {outer' : List (Frame β)} :
      Frame.Like R innermost innermost' → List.Forall₂ (Frame.Like R) outer outer' →
      Frame.Like R builtins builtins' →
      Like R ⟨innermost, outer, builtins⟩ ⟨innermost', outer', builtins'⟩

variable {R : α → β → Prop}

/-- A symbol has values that are alike, or none, in frames that are alike. -/
theorem Frame.Like.get? {f : Frame α} {g : Frame β} (h : Frame.Like R f g) (name : String) :
    Option.Rel R (f.get? name) (g.get? name) := by
  obtain ⟨h⟩ := h
  induction h with
  | nil => exact .none
  | cons he _ ih =>
      obtain ⟨other, hab⟩ := he
      simp only [Frame.get?, List.lookup_cons] at ih ⊢
      split
      · exact .some hab
      · exact ih

theorem Frame.Like.isSome_get? {f : Frame α} {g : Frame β} (h : Frame.Like R f g)
    (name : String) : (f.get? name).isSome = (g.get? name).isSome := by
  generalize f.get? name = x, g.get? name = y, h.get? name = hxy
  cases hxy <;> rfl

/-- Setting a symbol to values that are alike. -/
theorem Frame.Like.set {f : Frame α} {g : Frame β} (h : Frame.Like R f g) (name : String) {a : α}
    {b : β} (hab : R a b) : Frame.Like R (f.set name a) (g.set name b) := by
  rw [Frame.set, Frame.set, h.isSome_get? name]
  obtain ⟨h⟩ := h
  split
  · refine .mk ?_
    rw [List.forall₂_map_left_iff, List.forall₂_map_right_iff]
    refine h.imp ?_
    rintro _ _ ⟨other, hother⟩
    dsimp only
    split
    · exact .mk name hab
    · exact .mk other hother
  · exact .mk (.cons (.mk name hab) h)

/-- A symbol means the like in environments that are alike. -/
theorem Env.Like.lookup? {a : Env α} {b : Env β} (h : Env.Like R a b) (name : String) :
    Option.Rel R (a.lookup? name) (b.lookup? name) := by
  have hor : ∀ {x x' : Option α} {y y' : Option β}, Option.Rel R x y → Option.Rel R x' y' →
      Option.Rel R (x.or x') (y.or y') := by
    rintro _ _ _ _ (hab | -) h'
    · exact .some hab
    · exact h'
  have hfind : ∀ {fs : List (Frame α)} {gs : List (Frame β)}, List.Forall₂ (Frame.Like R) fs gs →
      Option.Rel R (fs.findSome? (·.get? name)) (gs.findSome? (·.get? name)) := by
    intro fs gs h
    induction h with
    | nil => exact .none
    | cons hf _ ih =>
        rw [List.findSome?_cons, List.findSome?_cons]
        generalize Frame.get? _ name = x, Frame.get? _ name = y, hf.get? name = hxy
        cases hxy with
        | some hab => exact .some hab
        | none => exact ih
  obtain ⟨hinner, houter, hbuiltins⟩ := h
  exact hor (hfind (.cons hinner houter)) (hbuiltins.get? name)

theorem Env.Like.push {a : Env α} {b : Env β} (h : Env.Like R a b) :
    Env.Like R a.push b.push := by
  obtain ⟨hinner, houter, hbuiltins⟩ := h
  exact .mk (.mk .nil) (.cons hinner houter) hbuiltins

/-- Binding a symbol to values that are alike. -/
theorem Env.Like.bind {a : Env α} {b : Env β} (h : Env.Like R a b) (name : String) {v : α} {w : β}
    (hvw : R v w) : Env.Like R (a.bind name v) (b.bind name w) := by
  obtain ⟨hinner, houter, hbuiltins⟩ := h
  exact .mk (hinner.set name hvw) houter hbuiltins

/-- An environment is like itself, if all that it holds is. -/
theorem Env.Like.refl {S : α → α → Prop} {env : Env α} (h : ∀ a, env.Holds a → S a a) :
    Env.Like S env env := by
  have hframe : ∀ frame ∈ env.builtins :: env.frames, Frame.Like S frame frame := by
    intro frame hframe
    refine .mk (List.forall₂_same.mpr ?_)
    rintro ⟨name, a⟩ hentry
    exact .mk name (h a ⟨frame, hframe, _, hentry, rfl⟩)
  obtain ⟨hbuiltins, hframes⟩ := List.forall_mem_cons.mp hframe
  obtain ⟨hinner, houter⟩ := List.forall_mem_cons.mp hframes
  exact .mk hinner (List.forall₂_same.mpr houter) hbuiltins

end Shape

/-! ## Related code -/

/-- The same function but for its body, where expressions are related, and for
    the bodies of functions in its environment. -/
inductive Closure.SameBut (expr : Expr → Expr → Prop) : Closure Value → Closure Value → Prop where
  | mk {c d : Closure Value} : c.identity = d.identity → c.params = d.params →
      c.selfName? = d.selfName? → List.Forall₂ expr c.body d.body →
      Env.Like (Value.Like (SameBut expr)) c.scope d.scope → SameBut expr c d

/-- A way in which code may differ: layer by layer, and in the lines and texts
    that errors quote. -/
structure CodeLikeness where
  line : Nat → Nat → Prop
  text : String → String → Prop
  expr : Expr → Expr → Prop
  text_refl : ∀ s, text s s
  text_expr : ∀ {e f}, expr e f → text e.text f.text
  layer : ∀ {e f}, expr e f → Expr.Layer line expr e f

/-- Two runs of alike code, in environments that hold alike code. -/
def CodeLikeness.likeness (K : CodeLikeness) : Likeness where
  View := Unit
  line := K.line
  text := K.text
  excused _ := False
  closure := Closure.SameBut K.expr
  env _ := Env.Like (Value.Like (Closure.SameBut K.expr))
  expr _ := K.expr
  text_refl := K.text_refl
  text_expr := K.text_expr
  layer := K.layer
  lookup _ h := h.lookup? _
  push h := h.push
  bind h hv name := h.bind name hv
  head := by
    rintro c d ⟨hid, hparams, hself, -, -⟩
    exact ⟨hid, hparams, hself⟩
  body := by
    rintro c d ⟨-, -, -, hbody, hscope⟩
    exact ⟨(), hscope, hbody⟩
  close := by
    intro _ a b params body body' m n henv h identity selfName?
    cases K.layer h with
    | function _ hbody => exact .mk rfl rfl rfl hbody henv

/-- Where every expression is related to itself, so is every value ... -/
theorem Value.sameBut_self {expr : Expr → Expr → Prop} (h : ∀ e, expr e e) (v : Value) :
    Value.Like (Closure.SameBut expr) v v := by
  refine Value.Like.refl (fun c hc => ?_) v
  exact .mk rfl rfl rfl (List.forall₂_same.mpr fun e _ => h e) (.refl hc)

/-- ... and every environment. -/
theorem Env.sameBut_self {expr : Expr → Expr → Prop} (h : ∀ e, expr e e) (env : Env Value) :
    Env.Like (Value.Like (Closure.SameBut expr)) env env :=
  .refl fun v _ => Value.sameBut_self h v

/-- The same session but for the bodies of functions. -/
structure Session.SameBut (expr : Expr → Expr → Prop) (s t : Session) : Prop where
  settings : s.settings = t.settings
  env : Env.Like (Value.Like (Closure.SameBut expr)) s.env t.env
  random : s.store.random = t.store.random
  nextIdentity : s.store.nextIdentity = t.store.nextIdentity
  depth : s.depth = t.depth

/-- Alike programs in two such sessions come to the same, but for the bodies of
    functions. -/
theorem CodeLikeness.run_evalProgram (K : CodeLikeness) {σ : Type} [Host σ] {s t : Session}
    (h : Session.SameBut K.expr s t) {p q : Program} (hpq : List.Forall₂ K.expr p q) (host : σ) :
    let out := (s.evalProgram [] p).run host
    let out' := (t.evalProgram [] q).run host
    ExceptLike (RuntimeError.Like K.text K.line)
        (List.Forall₂ (Value.Like (Closure.SameBut K.expr))) out.1.1 out'.1.1
      ∧ Session.SameBut K.expr out.1.2 out'.1.2 ∧ out.2 = out'.2 := by
  intro out out'
  have hlimit := congrArg Settings.maxDepth h.settings
  have hsessions : K.likeness.Sessions () s.settings.maxDepth s.settings.maxDepth s t :=
    ⟨⟨h.env, h.random, h.nextIdentity⟩, h.depth, congrArg Settings.seed? h.settings, rfl,
      hlimit.symm⟩
  have hout : K.likeness.Outcome _ _ out out' :=
    hsessions.evalProgram_alike (Or.inl rfl) hpq .nil host
  generalize out = x, out' = y at hout ⊢
  cases hout with
  | excused he => exact he.elim
  | alike hr hst =>
      exact ⟨hr, ⟨hst.settings_eq, hst.store.env, hst.store.random, hst.store.nextIdentity,
        hst.depth⟩, rfl⟩

/-! ## Code on other lines -/

namespace Expr

/-- Expressions that differ in lines only. -/
def Relined (e f : Expr) : Prop :=
  e.onLine 0 = f.onLine 0

theorem Relined.refl (e : Expr) : e.Relined e :=
  rfl

/-- Moving an expression to other lines is relining it. -/
theorem relined_mapLine (f : Nat → Nat) (e : Expr) : e.Relined (e.mapLine f) :=
  (onLine_mapLine f 0 e).symm

/-- The text of an expression does not show its lines. -/
theorem Relined.text_eq {e f : Expr} (h : e.Relined f) : e.text = f.text := by
  have htext : ∀ e : Expr, (e.onLine 0).text = e.text := by
    intro e
    rw [text, onLine_eq_mapLine, write_mapLine, text]
  rw [← htext e, ← htext f, h]

theorem isFunction_onLine (n : Nat) (e : Expr) : (e.onLine n).isFunction = e.isFunction := by
  cases e <;> rfl

/-- Lines do not make a function literal. -/
theorem Relined.isFunction_eq {e f : Expr} (h : e.Relined f) : e.isFunction = f.isFunction := by
  rw [← isFunction_onLine 0 e, ← isFunction_onLine 0 f, h]

/-- Expressions that are the same on one line are the same one by one. -/
theorem forall₂_relined {es fs : List Expr} (h : onLineAll 0 es = onLineAll 0 fs) :
    List.Forall₂ Relined es fs := by
  rw [onLineAll_eq_map, onLineAll_eq_map, ← List.forall₂_eq_eq_eq, List.forall₂_map_left_iff,
    List.forall₂_map_right_iff] at h
  exact h

/-- Layer by layer, nothing but the lines differs. -/
theorem Relined.layer {e f : Expr} (h : e.Relined f) :
    Layer (fun _ _ => True) Relined e f := by
  cases e with
  | literal value m =>
      cases f with
      | literal value' n =>
          obtain ⟨rfl, -⟩ := Expr.literal.inj h
          exact .literal value m n
      | _ => cases h
  | list items m =>
      cases f with
      | list items' n => exact .list (forall₂_relined (Expr.list.inj h).1)
      | _ => cases h
  | symbol name m =>
      cases f with
      | symbol name' n =>
          obtain ⟨rfl, -⟩ := Expr.symbol.inj h
          exact .symbol name trivial
      | _ => cases h
  | define name value m =>
      cases f with
      | define name' value' n =>
          obtain ⟨rfl, hvalue, -⟩ := Expr.define.inj h
          exact .define name (Relined.isFunction_eq hvalue) hvalue
      | _ => cases h
  | group inner m =>
      cases f with
      | group inner' n => exact .group (Expr.group.inj h).1
      | _ => cases h
  | unary op operand m =>
      cases f with
      | unary op' operand' n =>
          obtain ⟨rfl, hoperand, -⟩ := Expr.unary.inj h
          exact .unary op trivial hoperand
      | _ => cases h
  | binary op lhs rhs m =>
      cases f with
      | binary op' lhs' rhs' n =>
          obtain ⟨rfl, hlhs, hrhs, -⟩ := Expr.binary.inj h
          exact .binary op trivial hlhs hrhs
      | _ => cases h
  | choice test yes no m =>
      cases f with
      | choice test' yes' no' n =>
          obtain ⟨htest, hyes, hno, -⟩ := Expr.choice.inj h
          exact .choice trivial htest (forall₂_relined hyes) (forall₂_relined hno)
      | _ => cases h
  | function params body m =>
      cases f with
      | function params' body' n =>
          obtain ⟨rfl, hbody, -⟩ := Expr.function.inj h
          exact .function params (forall₂_relined hbody)
      | _ => cases h
  | call callee args m =>
      cases f with
      | call callee' args' n =>
          obtain ⟨hcallee, hargs, -⟩ := Expr.call.inj h
          exact .call trivial hcallee (forall₂_relined hargs)
      | _ => cases h

end Expr

/-- The same code on other lines. -/
def CodeLikeness.lines : CodeLikeness where
  line _ _ := True
  text := Eq
  expr := Expr.Relined
  text_refl _ := rfl
  text_expr := Expr.Relined.text_eq
  layer := Expr.Relined.layer

/-- Errors that differ in lines only. -/
theorem RuntimeError.Like.mapLine_eq {e f : RuntimeError}
    (h : RuntimeError.Like CodeLikeness.lines.text CodeLikeness.lines.line e f) (n : Nat) :
    e.mapLine (fun _ => n) = f.mapLine fun _ => n := by
  cases h with
  | uncallableValue ht _ | incompatibleTypes ht _ | divisionByZero ht _ | argumentCount ht _ =>
      cases ht
      rfl
  | _ => rfl

/-- The same value, but for lines in the bodies of functions. -/
abbrev Value.Relined : Value → Value → Prop :=
  Value.Like (Closure.SameBut Expr.Relined)

end Scriptlet
