import Scriptlet.Proofs.Likeness
import Scriptlet.Proofs.Units

/-! # Two runs side by side

    Evaluation keeps to a likeness: started alike, two runs end alike
    (`Likeness.Agree`), for one expression (`eval_agrees`), for the closures that
    it enters (`enter_agrees`), and for the programs of two sessions
    (`evalProgram_alike`).

    The induction over expressions goes through in any view of the environments,
    given that closures are entered alike; that they are is by induction on the
    number of calls that the first run may still open. -/

namespace Scriptlet

namespace Eval

variable {σ α : Type} [Host σ]

/-- A step in a frame of its own, with the frame dropped however it ends. -/
theorem result_inFrame (x : Eval α) (s : Store) (host : σ) :
    (inFrame x s).result host
      = (let out := (x { s with env := s.env.push }).result host
        ((out.1.1, { out.1.2 with env := out.1.2.env.pop }), out.2)) := rfl

/-- A step in another environment, with the old one put back however it ends. -/
theorem result_inEnv (env : Env Value) (x : Eval α) (s : Store) (host : σ) :
    (inEnv env x s).result host
      = (let out := (x { s with env }).result host
        ((out.1.1, { out.1.2 with env := s.env }), out.2)) := rfl

end Eval

namespace Likeness

variable {L : Likeness} {view : L.View} {α β γ δ σ : Type} [Host σ]

/-! ## Alike outcomes -/

/-- Alike environments, and the same to come of random numbers and identities. -/
structure Stores (L : Likeness) (view : L.View) (s t : Store) : Prop where
  env : L.env view s.env t.env
  random : s.random = t.random
  nextIdentity : s.nextIdentity = t.nextIdentity

/-- Both runs come to alike results in alike states and leave the host the same,
    unless the first one ends with an error that is excused. -/
inductive Outcome {S T : Type} (L : Likeness) (state : S → T → Prop) (value : α → β → Prop) :
    (Except RuntimeError α × S) × σ → (Except RuntimeError β × T) × σ → Prop where
  | alike {r : Except RuntimeError α} {q : Except RuntimeError β} {s : S} {t : T} {host : σ} :
      ExceptLike L.error value r q → state s t →
      Outcome L state value ((r, s), host) ((q, t), host)
  | excused {e : RuntimeError} {s : S} {host : σ} {other : (Except RuntimeError β × T) × σ} :
      L.excused e → Outcome L state value ((.error e, s), host) other

/-- Started in alike stores, two steps have alike outcomes. -/
def Agree (L : Likeness) (view : L.View) (value : α → β → Prop) (x : Eval α) (y : Eval β) : Prop :=
  ∀ (σ : Type) [Host σ] (s t : Store) (host : σ), L.Stores view s t →
    L.Outcome (L.Stores view) value ((x s).result host) ((y t).result host)

/-- Two results that are alike, already known. -/
theorem agree_ofExcept {value : α → β → Prop} {r : Except RuntimeError α}
    {q : Except RuntimeError β} (h : ExceptLike L.error value r q) :
    L.Agree view value (Eval.ofExcept r) (Eval.ofExcept q) :=
  fun _ _ _ _ _ hst => .alike h hst

theorem agree_pure {value : α → β → Prop} {a : α} {b : β} (h : value a b) :
    L.Agree view value (pure a) (pure b) :=
  agree_ofExcept (.ok h)

theorem agree_fail {value : α → β → Prop} {e f : RuntimeError} (h : L.error e f) :
    L.Agree view value (Eval.fail e) (Eval.fail f) :=
  agree_ofExcept (.error h)

/-- After an error that is excused in the first run, the second one may do anything. -/
theorem agree_fail_excused {value : α → β → Prop} {e : RuntimeError} (h : L.excused e)
    (y : Eval β) : L.Agree view value (Eval.fail e) y :=
  fun _ _ _ _ _ _ => .excused h

/-- Both runs ask the same question of the same host, so they get the same answer. -/
theorem agree_ask (q : Request α) : L.Agree view Eq (Eval.ask q) (Eval.ask q) :=
  fun _ _ _ _ _ hst => .alike (.ok rfl) hst

/-- Both runs draw from the same random numbers. -/
theorem agree_randomNumber : L.Agree view Eq Eval.randomNumber Eval.randomNumber := by
  intro σ _ s t host hst
  obtain ⟨env, random, identity⟩ := s
  obtain ⟨env', random', identity'⟩ := t
  obtain ⟨henv, hrandom, hid⟩ := hst
  obtain rfl : random = random' := hrandom
  exact .alike (.ok rfl) ⟨henv, rfl, hid⟩

/-- Two steps that agree, followed by steps that agree on what is alike. -/
theorem Agree.bind {value : α → β → Prop} {value' : γ → δ → Prop} {x : Eval α} {y : Eval β}
    {f : α → Eval γ} {g : β → Eval δ} (hxy : L.Agree view value x y)
    (hfg : ∀ a b, value a b → L.Agree view value' (f a) (g b)) :
    L.Agree view value' (x >>= f) (y >>= g) := by
  intro σ _ s t host hst
  have h := hxy σ s t host hst
  rw [Eval.result_bind, Eval.result_bind]
  generalize (x s).result host = left at h ⊢
  generalize (y t).result host = right at h ⊢
  cases h with
  | excused he => exact .excused he
  | alike hr hst' =>
      cases hr with
      | ok hab => exact hfg _ _ hab σ _ _ _ hst'
      | error he => exact .alike (.error he) hst'

/-- In frames of their own: whatever was bound there goes with them, so the
    environments are alike again. -/
theorem Agree.inFrame {value : α → β → Prop} {x : Eval α} {y : Eval β} {names names' : List String}
    (hx : Eval.Binds names x) (hy : Eval.Binds names' y) (h : L.Agree view value x y) :
    L.Agree view value (Eval.inFrame x) (Eval.inFrame y) := by
  intro σ _ s t host hst
  have hout := h σ { s with env := s.env.push } { t with env := t.env.push } host
    ⟨L.push hst.env, hst.random, hst.nextIdentity⟩
  have hbx := (hx σ { s with env := s.env.push } host).pop_eq
  have hby := (hy σ { t with env := t.env.push } host).pop_eq
  rw [Eval.result_inFrame, Eval.result_inFrame]
  generalize (x _).result host = left at hout hbx ⊢
  generalize (y _).result host = right at hout hby ⊢
  cases hout with
  | excused he => exact .excused he
  | alike hr hst' =>
      have henv : L.env view _ _ := hst.env
      rw [← hbx, ← hby] at henv
      exact .alike hr ⟨henv, hst'.random, hst'.nextIdentity⟩

/-- In other environments, which may be seen in another view. -/
theorem Agree.inEnv {value : α → β → Prop} {x : Eval α} {y : Eval β} {inner : L.View}
    {a b : Env Value} (hab : L.env inner a b) (h : L.Agree inner value x y) :
    L.Agree view value (Eval.inEnv a x) (Eval.inEnv b y) := by
  intro σ _ s t host hst
  have hout := h σ { s with env := a } { t with env := b } host
    ⟨hab, hst.random, hst.nextIdentity⟩
  rw [Eval.result_inEnv, Eval.result_inEnv]
  generalize (x _).result host = left at hout ⊢
  generalize (y _).result host = right at hout ⊢
  cases hout with
  | excused he => exact .excused he
  | alike hr hst' => exact .alike hr ⟨hst.env, hst'.random, hst'.nextIdentity⟩

/-! ## Symbols and closures -/

/-- A symbol that is looked up in environments that are alike. -/
theorem agree_lookup {name : String} {m n : Nat}
    (h : L.expr view (.symbol name m) (.symbol name n)) (hn : L.line m n) :
    L.Agree view L.value (Eval.lookup name m) (Eval.lookup name n) := by
  intro σ _ s t host hst
  have hrel := L.lookup h hst.env
  rw [Eval.lookup, Eval.lookup]
  generalize s.env.lookup? name = found at hrel ⊢
  generalize t.env.lookup? name = found' at hrel ⊢
  cases hrel with
  | some hv => exact .alike (.ok hv) hst
  | none => exact .alike (.error (.undefinedSymbol hn)) hst

theorem agree_define {v w : Value} (h : L.value v w) (name : String) :
    L.Agree view Eq (Eval.define name v) (Eval.define name w) :=
  fun _ _ _ _ _ hst =>
    .alike (.ok rfl) ⟨L.bind hst.env h name, hst.random, hst.nextIdentity⟩

/-- Two closures made of function literals that are alike, each over its environment. -/
theorem agree_close {params : List String} {body body' : List Expr} {m n : Nat}
    (h : L.expr view (.function params body m) (.function params body' n))
    (selfName? : Option String) :
    L.Agree view L.value (Eval.close params body selfName?)
      (Eval.close params body' selfName?) := by
  intro σ _ s t host hst
  have hclosure := L.close hst.env h s.nextIdentity selfName?
  refine .alike (.ok (.closure ?_)) ⟨hst.env, hst.random, congrArg (· + 1) hst.nextIdentity⟩
  rw [← hst.nextIdentity]
  exact hclosure

/-! ## Calls -/

/-- Alike closures are entered alike, with alike arguments. -/
def Enters (L : Likeness) (enter enter' : Enter) : Prop :=
  ∀ {view : L.View} {c d : Closure Value} {args args' : List Value} {m n : Nat}, L.closure c d →
    List.Forall₂ L.value args args' → L.line m n →
    L.Agree view L.value (enter c args m) (enter' d args' n)

variable {enter enter' : Enter} {m n : Nat}

theorem agree_violation {value : α → β → Prop} (b : Builtin) {details details' : String}
    (hd : details = details') (hn : L.line m n) :
    L.Agree view value (b.violation details m) (b.violation details' n) := by
  subst hd
  exact agree_fail (.contractViolation hn)

/-- Builtins without an argument depend on the host and the random numbers alone. -/
theorem agree_builtin_zero {b : Builtin} (hb : b.arity = 0) (hn : L.line m n) :
    L.Agree view L.value (b.call enter [] m) (b.call enter' [] n) := by
  cases b with
  | input =>
      refine (agree_ask .readLine).bind ?_
      rintro text _ rfl
      exact agree_pure (.string text)
  | epoch =>
      refine (agree_ask .clock).bind ?_
      rintro milliseconds _ rfl
      split
      · exact agree_violation _ rfl hn
      · exact agree_pure (.number _)
  | random =>
      refine agree_randomNumber.bind ?_
      rintro x _ rfl
      exact agree_pure (.number x)
  | _ => cases hb

/-- Values that are alike are printed alike. -/
theorem agree_printAll {vs ws : List Value} (h : List.Forall₂ L.value vs ws) :
    L.Agree view Eq (Builtin.printAll vs) (Builtin.printAll ws) := by
  induction h with
  | nil => exact agree_pure rfl
  | cons hv _ ih =>
      rw [Builtin.printAll, Builtin.printAll, plainText_eq hv]
      exact (agree_ask _).bind fun _ _ _ => ih

/-- Builtins of one argument that are given arguments that are alike. -/
theorem agree_builtin_one {b : Builtin} (hb : b.arity = 1) {v w : Value} (hv : L.value v w)
    (hn : L.line m n) : L.Agree view L.value (b.call enter [v] m) (b.call enter' [w] n) := by
  rw [Builtin.call_one, Builtin.call_one]
  have hprint : L.Agree view Eq (Builtin.printAll [v]) (Builtin.printAll [w]) :=
    agree_printAll (.cons hv .nil)
  by_cases hp : b = .print
  · subst hp
    exact hprint.bind fun _ _ _ => agree_pure .nil
  by_cases hl : b = .println
  · subst hl
    exact hprint.bind fun _ _ _ => (agree_ask _).bind fun _ _ _ => agree_pure .nil
  obtain ⟨r, hr⟩ := Builtin.exists_gives hb hp hl v m
  obtain ⟨q, hq, hrq⟩ := builtin_gives hr hv hn
  rw [hr.plain_eq, hq.plain_eq]
  exact agree_ofExcept hrq

/-- Mapping functions that agree over items that are alike. -/
theorem agree_mapItems {f g : Value → Eval Value} {vs ws : List Value}
    (hfg : ∀ v w, L.value v w → L.Agree view L.value (f v) (g w))
    (h : List.Forall₂ L.value vs ws) :
    L.Agree view (List.Forall₂ L.value) (Builtin.mapItems f vs) (Builtin.mapItems g ws) := by
  induction h with
  | nil => exact agree_pure .nil
  | cons hv _ ih =>
      rw [Builtin.mapItems, Builtin.mapItems]
      refine (hfg _ _ hv).bind fun x y hxy => ih.bind fun xs ys hs => ?_
      exact agree_pure (.cons hxy hs)

/-- Filtering items that are alike by functions that agree keeps the same positions. -/
theorem agree_filterItems {f g : Value → Eval Value} {vs ws : List Value}
    (hfg : ∀ v w, L.value v w → L.Agree view L.value (f v) (g w)) (hn : L.line m n)
    (h : List.Forall₂ L.value vs ws) :
    L.Agree view (List.Forall₂ L.value) (Builtin.filterItems f m vs)
      (Builtin.filterItems g n ws) := by
  induction h with
  | nil => exact agree_pure .nil
  | cons hv _ ih =>
      rw [Builtin.filterItems, Builtin.filterItems]
      refine (hfg _ _ hv).bind fun x y hxy => ?_
      cases hxy with
      | bool keep =>
          refine ih.bind fun xs ys hs => agree_pure ?_
          cases keep with
          | true => exact .cons hv hs
          | false => exact hs
      | _ => exact agree_violation _ rfl hn

/-- A call checks the number of arguments first, on both sides alike. -/
theorem agree_checked (he : L.Enters enter enter') {f g : Callable Value} {args args' : List Value}
    (hf : L.value (.function f) (.function g)) (hargs : List.Forall₂ L.value args args')
    (hn : L.line m n)
    (hb : ∀ b : Builtin, b.arity = args.length →
      L.Agree view L.value (b.call enter args m) (b.call enter' args' n)) :
    L.Agree view L.value (f.call enter args m) (g.call enter' args' n) := by
  have hlength := hargs.length_eq
  by_cases hcount : f.arity = args.length
  · have hcount' : g.arity = args'.length := by rw [← arity_eq hf, hcount, hlength]
    cases hf with
    | builtin b =>
        rw [Callable.call_builtin hcount, Callable.call_builtin hcount']
        exact hb b hcount
    | closure h =>
        rw [Callable.call_closure hcount, Callable.call_closure hcount']
        exact he h hargs hn
  · have hcount' : g.arity ≠ args'.length := by rwa [← arity_eq hf, ← hlength]
    have hleft : f.call enter args m = Eval.fail (.argumentCount f.text f.arity args.length m) :=
      if_pos hcount
    have hright : g.call enter' args' n
        = Eval.fail (.argumentCount g.text g.arity args'.length n) := if_pos hcount'
    rw [hleft, hright, arity_eq hf, callableText_eq hf, hlength]
    exact agree_fail (.argumentCount (L.text_refl _) hn)

theorem agree_callOne (he : L.Enters enter enter') {f g : Callable Value}
    (hf : L.value (.function f) (.function g)) (hn : L.line m n) (v w : Value)
    (hv : L.value v w) :
    L.Agree view L.value (f.call enter [v] m) (g.call enter' [w] n) :=
  agree_checked he hf (.cons hv .nil) hn fun _ hb => agree_builtin_one hb hv hn

/-- The builtins that call back, on arguments that are alike. -/
theorem agree_builtin_two (he : L.Enters enter enter') {b : Builtin} (hb : b.callsBack = true)
    {v v' w w' : Value} (hv : L.value v w) (hv' : L.value v' w') (hn : L.line m n) :
    L.Agree view L.value (b.call enter [v, v'] m) (b.call enter' [w, w'] n) := by
  have overItems : ∀ {f g : Callable Value}, L.value (.function f) (.function g) →
      L.Agree view L.value (b.call enter [.function f, v'] m)
        (b.call enter' [.function g, w'] n) := by
    intro f g hf
    cases hv' with
    | @list vs ws size hs =>
        by_cases hone : f.arity = 1
        · have hone' : g.arity = 1 := (arity_eq hf).symm.trans hone
          have hcall := fun v w (hvw : L.value v w) =>
            @agree_callOne L view enter enter' m n he f g hf hn v w hvw
          cases b with
          | map =>
              rw [Builtin.call, if_pos hone, Builtin.callOne_eq hone, Builtin.call, if_pos hone',
                Builtin.callOne_eq hone']
              exact (agree_mapItems hcall hs).bind fun _ _ h => agree_pure (like_ofList h)
          | filter =>
              rw [Builtin.call, if_pos hone, Builtin.callOne_eq hone, Builtin.call, if_pos hone',
                Builtin.callOne_eq hone']
              exact (agree_filterItems hcall hn hs).bind fun _ _ h => agree_pure (like_ofList h)
          | _ => cases hb
        · have hone' : g.arity ≠ 1 := fun h => hone ((arity_eq hf).trans h)
          rw [Builtin.call_notUnary hb hone, Builtin.call_notUnary hb hone', callableText_eq hf]
          exact agree_violation b rfl hn
    | _ =>
        rw [Builtin.call_notList hb rfl, Builtin.call_notList hb rfl]
        exact agree_violation b rfl hn
  cases hv with
  | builtin b' => exact overItems (.builtin b')
  | closure h => exact overItems (.closure h)
  | _ =>
      rw [Builtin.call_notFunction hb rfl, Builtin.call_notFunction hb rfl]
      exact agree_violation b rfl hn

/-- Alike functions are called alike. -/
theorem agree_call (he : L.Enters enter enter') {f g : Callable Value} {args args' : List Value}
    (hf : L.value (.function f) (.function g)) (hargs : List.Forall₂ L.value args args')
    (hn : L.line m n) : L.Agree view L.value (f.call enter args m) (g.call enter' args' n) := by
  refine agree_checked he hf hargs hn fun b hcount => ?_
  cases hargs with
  | nil => exact agree_builtin_zero hcount hn
  | cons hv hs =>
      cases hs with
      | nil => exact agree_builtin_one hcount hv hn
      | cons hv' hs' =>
          cases hs' with
          | nil =>
              have hb : b.callsBack = true := by cases b <;> first | rfl | cases hcount
              exact agree_builtin_two he hb hv hv' hn
          | cons _ _ => cases b <;> cases hcount

/-! ## Expressions -/

/-- Items and arguments, evaluated one after the other. -/
theorem agree_evalAll {es fs : List Expr}
    (h : List.Forall₂ (fun e f => L.Agree view L.value (e.eval enter) (f.eval enter')) es fs) :
    L.Agree view (List.Forall₂ L.value) (Expr.evalAll enter es) (Expr.evalAll enter' fs) := by
  induction h with
  | nil =>
      rw [Expr.evalAll, Expr.evalAll]
      exact agree_pure .nil
  | cons he _ ih =>
      rw [Expr.evalAll, Expr.evalAll]
      refine he.bind fun v w hv => ih.bind fun vs ws hs => ?_
      exact agree_pure (.cons hv hs)

/-- The steps of a body or of a branch, of which the last one gives the value. -/
theorem agree_evalSteps {es fs : List Expr}
    (h : List.Forall₂ (fun e f => L.Agree view L.value (e.eval enter) (f.eval enter')) es fs) :
    L.Agree view L.value (Expr.evalSteps enter es) (Expr.evalSteps enter' fs) := by
  induction h with
  | nil =>
      rw [Expr.evalSteps, Expr.evalSteps]
      exact agree_pure .nil
  | cons he hs ih =>
      cases hs with
      | nil =>
          rw [Expr.evalSteps, Expr.evalSteps]
          exact he
      | cons _ _ =>
          rw [Expr.evalSteps, Expr.evalSteps]
          exact he.bind fun _ _ _ => ih

/-- The hypotheses about the members of a list, put together. -/
theorem forall₂_of_mem {R S : Expr → Expr → Prop} {es fs : List Expr}
    (h : ∀ e ∈ es, ∀ f, R e f → S e f) (hs : List.Forall₂ R es fs) : List.Forall₂ S es fs := by
  induction hs with
  | nil => exact .nil
  | cons hr _ ih =>
      obtain ⟨he, hes⟩ := List.forall_mem_cons.mp h
      exact .cons (he _ hr) (ih hes)

theorem agree_truth {s t : String} (ht : L.text s t) (hn : L.line m n) (v w : Value)
    (hv : L.value v w) : L.Agree view L.value (Eval.truth s m v) (Eval.truth t n w) := by
  cases hv with
  | bool b => exact agree_pure (.bool b)
  | _ => exact agree_fail (.incompatibleTypes ht hn)

/-- What follows the left operand of an operator; the right one may not be needed. -/
theorem agree_afterLeft {op : BinaryOp} {x y : Eval Value} {s t : String}
    (hxy : L.Agree view L.value x y) (ht : L.text s t) (hn : L.line m n) (v w : Value)
    (hv : L.value v w) :
    L.Agree view L.value (op.afterLeft x s m v) (op.afterLeft y t n w) := by
  cases hv with
  | bool b =>
      cases hb : op.settles b with
      | true =>
          rw [BinaryOp.afterLeft_settled hb, BinaryOp.afterLeft_settled hb]
          exact agree_pure (.bool b)
      | false =>
          rw [BinaryOp.afterLeft_unsettled hb, BinaryOp.afterLeft_unsettled hb]
          exact hxy.bind (agree_truth ht hn)
  | _ => exact agree_fail (.incompatibleTypes ht hn)

/-- **Evaluation keeps to a likeness**, if entering closures does. -/
theorem eval_agrees (he : L.Enters enter enter')
    (hd : ∀ c args line, Eval.Detached (enter c args line))
    (hd' : ∀ c args line, Eval.Detached (enter' c args line)) {e f : Expr}
    (hef : L.expr view e f) : L.Agree view L.value (e.eval enter) (f.eval enter') := by
  induction e using Expr.induction generalizing f with
  | literal value m =>
      cases L.layer hef with
      | literal _ _ n =>
          rw [Expr.eval, Expr.eval]
          exact agree_pure (like_ofLiteral value)
  | list items m ih =>
      cases L.layer hef with
      | list hs =>
          rw [Expr.eval, Expr.eval]
          refine (agree_evalAll (forall₂_of_mem (fun e he f => ih e he) hs)).bind fun _ _ h => ?_
          exact agree_pure (like_ofList h)
  | symbol name m =>
      cases L.layer hef with
      | symbol _ hn =>
          rw [Expr.eval, Expr.eval]
          exact agree_lookup hef hn
  | define name value m ih =>
      cases L.layer hef with
      | @define _ _ value' _ _ hfun hvalue =>
          have bound : ∀ v w, L.value v w → L.Agree view L.value
              (do Eval.define name v; pure v : Eval Value)
              (do Eval.define name w; pure w : Eval Value) := fun v w hv =>
            (agree_define hv name).bind fun _ _ _ => agree_pure hv
          cases hf : value.isFunction with
          | false =>
              rw [Expr.eval_define hf, Expr.eval_define (hfun ▸ hf)]
              exact (ih hvalue).bind bound
          | true =>
              -- both are written as functions, which get the name
              cases value with
              | function params body k =>
                  cases L.layer hvalue with
                  | function _ _ =>
                      rw [Expr.eval, Expr.eval]
                      exact (agree_close hvalue _).bind bound
              | _ => cases hf
  | group inner m ih =>
      rw [Expr.eval]
      cases L.layer hef with
      | group h =>
          rw [Expr.eval]
          exact ih h
      | ungroup h => exact ih h
  | unary op operand m ih =>
      cases L.layer hef with
      | unary _ hn h =>
          rw [Expr.eval, Expr.eval]
          exact (ih h).bind fun v w hv =>
            agree_ofExcept (unary_apply op hv (L.text_expr hef) hn)
  | binary op lhs rhs m ihl ihr =>
      cases L.layer hef with
      | binary _ hn hl hr =>
          cases hop : op.isLogical with
          | false =>
              rw [Expr.eval_strict hop, Expr.eval_strict hop]
              refine (ihl hl).bind fun v w hv => (ihr hr).bind fun v' w' hv' => ?_
              exact agree_ofExcept (binary_apply op hv hv' (L.text_expr hef) hn)
          | true =>
              rw [Expr.eval_logical hop, Expr.eval_logical hop]
              exact (ihl hl).bind (agree_afterLeft (ihr hr) (L.text_expr hef) hn)
  | choice test yes no m iht ihy ihn =>
      cases L.layer hef with
      | choice hn ht hy hno =>
          have hyes := agree_evalSteps (forall₂_of_mem (fun e he f => ihy e he) hy)
          have hnay := agree_evalSteps (forall₂_of_mem (fun e he f => ihn e he) hno)
          rw [Expr.eval, Expr.eval]
          refine (iht ht).bind fun v w hv => ?_
          cases hv with
          | bool b =>
              cases b with
              | true =>
                  exact hyes.inFrame (Expr.binds_evalSteps fun e _ => Expr.binds_eval hd e)
                    (Expr.binds_evalSteps fun e _ => Expr.binds_eval hd' e)
              | false =>
                  exact hnay.inFrame (Expr.binds_evalSteps fun e _ => Expr.binds_eval hd e)
                    (Expr.binds_evalSteps fun e _ => Expr.binds_eval hd' e)
          | _ => exact agree_fail (.incompatibleTypes (L.text_expr ht) hn)
  | function params body m ih =>
      cases L.layer hef with
      | function _ _ =>
          rw [Expr.eval, Expr.eval]
          exact agree_close hef none
  | call callee args m ihc iha =>
      cases L.layer hef with
      | @call _ callee' _ args' _ n hn hc ha =>
          have hargs := agree_evalAll (forall₂_of_mem (fun e he f => iha e he) ha)
          -- what is done once the callee is known to be a function
          have called : ∀ {f g : Callable Value}, L.value (.function f) (.function g) →
              L.Agree view L.value
                (if f.arity ≠ args.length then
                  .fail (.argumentCount (Expr.call callee args m).text f.arity args.length m)
                else do
                  let vs ← Expr.evalAll enter args
                  f.call enter vs m)
                (if g.arity ≠ args'.length then
                  .fail (.argumentCount (Expr.call callee' args' n).text g.arity args'.length n)
                else do
                  let vs ← Expr.evalAll enter' args'
                  g.call enter' vs n) := by
            intro f g hf
            rw [arity_eq hf, ha.length_eq]
            split
            · exact agree_fail (.argumentCount (L.text_expr hef) hn)
            · exact hargs.bind fun vs ws hs => agree_call he hf hs hn
          rw [Expr.eval, Expr.eval]
          refine (ihc hc).bind fun v w hv => ?_
          cases hv with
          | builtin b => exact called (.builtin b)
          | closure h => exact called (.closure h)
          | _ => exact agree_fail (.uncallableValue (L.text_expr hc) hn)

/-! ## Closures -/

/-- Parameters bound to arguments that are alike. -/
theorem env_bindAll {a b : Env Value} (h : L.env view a b) (params : List String)
    {args args' : List Value} (hargs : List.Forall₂ L.value args args') :
    L.env view (a.bindAll (params.zip args)) (b.bindAll (params.zip args')) := by
  induction hargs generalizing params a b with
  | nil =>
      rw [List.zip_nil_right]
      exact h
  | cons hv _ ih =>
      cases params with
      | nil => exact h
      | cons name params => exact ih (L.bind h hv name) params

/-- Closures that are alike are entered in environments that are alike. -/
theorem env_callEnv {c d : Closure Value} (hc : L.closure c d) (h : L.env view c.scope d.scope)
    {args args' : List Value} (hargs : List.Forall₂ L.value args args') :
    L.env view (c.callEnv args) (d.callEnv args') := by
  obtain ⟨-, hparams, hself⟩ := L.head hc
  rw [Closure.callEnv, Closure.callEnv, ← hparams, ← hself]
  cases c.selfName? with
  | none => exact env_bindAll (L.push h) _ hargs
  | some name => exact env_bindAll (L.bind (L.push h) (.closure hc) name) _ hargs

/-- With these limits two runs can be compared: the same ones, or a second one
    that allows for more, given that an overflow of the first is excused. -/
def Limits (L : Likeness) (limit limit' : Nat) : Prop :=
  limit = limit' ∨ limit ≤ limit' ∧ ∀ line, L.excused (.stackOverflow limit line)

/-- Closures are entered alike, when the second run may open at least as many
    calls as the first. -/
theorem enter_agrees {limit limit' remaining remaining' : Nat}
    (h : remaining = remaining' ∧ limit = limit'
      ∨ remaining ≤ remaining' ∧ ∀ line, L.excused (.stackOverflow limit line)) :
    L.Enters (Closure.enter limit remaining) (Closure.enter limit' remaining') := by
  induction remaining generalizing remaining' with
  | zero =>
      intro view c d args args' m n hc hargs hn
      rcases h with ⟨rfl, rfl⟩ | ⟨-, hover⟩
      · exact agree_fail (.stackOverflow hn)
      · exact agree_fail_excused (hover m) _
  | succ remaining ih =>
      intro view c d args args' m n hc hargs hn
      obtain ⟨inner, henv, hbody⟩ := L.body hc
      cases remaining' with
      | zero => rcases h with ⟨h, -⟩ | ⟨h, -⟩ <;> cases h
      | succ remaining' =>
          have hnext : L.Enters (Closure.enter limit remaining)
              (Closure.enter limit' remaining') := by
            refine ih (h.imp ?_ ?_)
            · exact fun h => ⟨Nat.succ.inj h.1, h.2⟩
            · exact fun h => ⟨Nat.le_of_succ_le_succ h.1, h.2⟩
          refine Agree.inEnv (env_callEnv hc henv hargs) (agree_evalSteps (hbody.imp ?_))
          intro e f hef
          exact eval_agrees hnext (Closure.detached_enter _ _) (Closure.detached_enter _ _) hef

/-! ## Sessions -/

/-- Sessions with alike stores and the same calls open, one under each limit. -/
structure Sessions (L : Likeness) (view : L.View) (limit limit' : Nat) (s t : Session) : Prop where
  store : L.Stores view s.store t.store
  depth : s.depth = t.depth
  seed : s.settings.seed? = t.settings.seed?
  left : s.settings.maxDepth = limit
  right : t.settings.maxDepth = limit'

variable {limit limit' : Nat} {s t : Session}

theorem Sessions.settings_eq (h : L.Sessions view limit limit s t) : s.settings = t.settings := by
  have hlimit : s.settings.maxDepth = t.settings.maxDepth := h.left.trans h.right.symm
  have hseed := h.seed
  generalize s.settings = a, t.settings = b at hlimit hseed ⊢
  cases a
  cases b
  cases hlimit
  cases hseed
  rfl

/-- Sessions that are alike enter closures alike, whatever calls are open. -/
theorem Sessions.enters (h : L.Sessions view limit limit' s t) (hlimit : L.Limits limit limit') :
    L.Enters s.enter t.enter := by
  rw [Session.enter, Session.enter, h.left, h.right, h.depth]
  refine enter_agrees (hlimit.imp ?_ ?_)
  · rintro rfl
    exact ⟨rfl, rfl⟩
  · rintro ⟨hle, hover⟩
    exact ⟨Nat.sub_le_sub_right hle _, hover⟩

/-- Alike expressions are evaluated alike in alike sessions. -/
theorem Sessions.eval_alike (h : L.Sessions view limit limit' s t)
    (hlimit : L.Limits limit limit') {e f : Expr} (hef : L.expr view e f) (host : σ) :
    L.Outcome (L.Sessions view limit limit') L.value ((s.eval e).run host)
      ((t.eval f).run host) := by
  have hout := eval_agrees (h.enters hlimit) s.detached_enter t.detached_enter hef σ s.store
    t.store host h.store
  rw [Session.eval, Session.eval, Session.run_perform, Session.run_perform]
  generalize (e.eval s.enter s.store).result host = left at hout ⊢
  generalize (f.eval t.enter t.store).result host = right at hout ⊢
  cases hout with
  | excused he => exact .excused he
  | alike hr hst => exact .alike hr ⟨hst, h.depth, h.seed, h.left, h.right⟩

/-- Alike programs are evaluated alike in alike sessions. -/
theorem Sessions.evalProgram_alike (h : L.Sessions view limit limit' s t)
    (hlimit : L.Limits limit limit') {p q : Program} (hpq : List.Forall₂ (L.expr view) p q)
    {done done' : List Value} (hdone : List.Forall₂ L.value done done') (host : σ) :
    L.Outcome (L.Sessions view limit limit') (List.Forall₂ L.value)
      ((s.evalProgram done p).run host) ((t.evalProgram done' q).run host) := by
  induction hpq generalizing s t done done' host with
  | nil => exact .alike (.ok (List.rel_reverse hdone)) h
  | @cons e f p q hef _ ih =>
      have hout := h.eval_alike hlimit hef host
      rcases hs : (s.eval e).run host with ⟨⟨r, s'⟩, host'⟩
      rcases ht : (t.eval f).run host with ⟨⟨r', t'⟩, host''⟩
      rw [hs, ht] at hout
      cases hout with
      | excused he =>
          rw [Session.run_evalProgram_error hs]
          exact .excused he
      | alike hr hst =>
          cases hr with
          | ok hv =>
              rw [Session.run_evalProgram_ok hs, Session.run_evalProgram_ok ht]
              exact ih hst (.cons hv hdone) _
          | error he =>
              rw [Session.run_evalProgram_error hs, Session.run_evalProgram_error ht]
              exact .alike (.error he)
                ⟨⟨h.store.env, hst.store.random, hst.store.nextIdentity⟩, rfl, hst.seed, hst.left,
                  hst.right⟩

end Likeness

end Scriptlet
