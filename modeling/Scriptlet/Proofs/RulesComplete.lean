import Scriptlet.Proofs.RulesSound
import Scriptlet.Proofs.Trees

/-! # What is done can be derived

    The other half: whatever the evaluator does, the rules derive it
    (`Task.follows`).  The outer induction is on the number of calls that may
    still be opened; for a fixed number, entering a closure follows the rules by
    hypothesis, and the rest is by induction on the expression. -/

namespace Scriptlet

/-! ## Operators and builtins -/

/-- What a unary operator does is what its rules give. -/
theorem UnaryOp.gives_apply (op : UnaryOp) (v : Value) (expr : Expr) (n : Nat) :
    op.Gives expr.text n v (op.apply v expr n) := by
  cases op with
  | negate =>
      cases v with
      | number x => exact .negate x
      | _ => exact .notNumber rfl
  | not =>
      cases v with
      | bool b => exact .not b
      | _ => exact .notBool rfl

theorem Value.eq_number {v : Value} (h : v.number?.isSome = true) : ∃ x, v = .number x := by
  cases v with
  | number x => exact ⟨x, rfl⟩
  | _ => cases h

theorem Value.eq_string {v : Value} (h : v.string?.isSome = true) : ∃ s, v = .string s := by
  cases v with
  | string s => exact ⟨s, rfl⟩
  | _ => cases h

/-- What a binary operator does is what its rules give. -/
theorem BinaryOp.gives_apply (op : BinaryOp) (l r : Value) (expr : Expr) (n : Nat) :
    op.Gives expr.text n l r (op.apply l r expr n) := by
  by_cases ht : op.Takes l r
  · cases op with
    | and | or => exact ht.elim
    | equal => exact .equal l r
    | notEqual => exact .notEqual l r
    | concat =>
        obtain ⟨s, rfl⟩ := Value.eq_string ht.1
        obtain ⟨t, rfl⟩ := Value.eq_string ht.2
        exact .concat s t
    | cons =>
        cases r with
        | list items => exact .cons l items
        | _ => cases ht
    | divide =>
        obtain ⟨x, rfl⟩ := Value.eq_number ht.1
        obtain ⟨y, rfl⟩ := Value.eq_number ht.2
        show Gives expr.text n .divide (.number x) (.number y) (if (x / y).isFinite then _ else _)
        split
        · next hq => exact .divide hq
        · next hq => exact .divideByZero (Bool.eq_false_iff.mpr hq)
    | _ =>
        obtain ⟨x, rfl⟩ := Value.eq_number ht.1
        obtain ⟨y, rfl⟩ := Value.eq_number ht.2
        constructor
  · rw [apply_of_not_takes ht]
    exact .mismatch ht

namespace Builtin

/-- A list has items, and then a first one and a rest, or it has none. -/
theorem items_cases (items : Items Value) :
    (items.isEmpty = true ∨ items.toList = []) ∨
      items.isEmpty = false ∧ ∃ v tail, items.first? = some v ∧ items.rest? = some tail := by
  obtain ⟨as, size⟩ := items
  cases he : Items.isEmpty ⟨as, size⟩ with
  | true => exact Or.inl (Or.inl rfl)
  | false =>
      cases as with
      | nil => exact Or.inl (Or.inr rfl)
      | cons a as => exact Or.inr ⟨rfl, a, _, rfl, rfl⟩

/-- A builtin of one argument that does not print gives something. -/
theorem exists_gives {b : Builtin} (hb : b.arity = 1) (hp : b ≠ .print) (hl : b ≠ .println)
    (v : Value) (n : Nat) : ∃ r, b.Gives n v r := by
  by_cases hm : ∃ type, b.argumentType? = some type ∧ v.typeName ≠ type
  · obtain ⟨type, ht, hv⟩ := hm
    exact ⟨_, .mismatch ht hv⟩
  -- from here on the argument has the type that is asked for
  have htype : ∀ type, b.argumentType? = some type → v.typeName = type := fun type ht =>
    Decidable.byContradiction fun hv => hm ⟨type, ht, hv⟩
  cases b with
  | print => exact absurd rfl hp
  | println => exact absurd rfl hl
  | toString => exact ⟨_, .text v⟩
  | parseNumber =>
      cases v with
      | string s =>
          cases hs : Number.readTrimmed? s with
          | some x => exact ⟨_, .readNumber hs⟩
          | none => exact ⟨_, .noNumber hs⟩
      | _ => exact absurd (htype _ rfl) (by simp [Value.typeName])
  | first | rest =>
      cases v with
      | list items =>
          rcases items_cases items with he | ⟨he, w, tail, hw, htail⟩
          · exact ⟨_, .noItems (by simp) he⟩
          · first | exact ⟨_, .first he hw⟩ | exact ⟨_, .rest he htail⟩
      | _ => exact absurd (htype _ rfl) (by simp [Value.typeName])
  | length =>
      cases v with
      | list items => exact ⟨_, .length items⟩
      | _ => exact absurd (htype _ rfl) (by simp [Value.typeName])
  | exp | sin | cos | iota =>
      cases v with
      | number x => exact ⟨_, by constructor⟩
      | _ => exact absurd (htype _ rfl) (by simp [Value.typeName])
  | input | epoch | random | map | filter => cases hb

end Builtin

/-! ## Evaluation -/

section Complete

variable {σ α β : Type} [Host σ] {limit depth : Nat}

variable (σ) in
/-- Whatever a step does when `depth` calls are open, the rules derive it for
    the task. -/
def Follows (limit depth : Nat) (t : Task α) (x : Eval α) : Prop :=
  ∀ S : State σ, S.depth = depth → Yields limit t S (x.on S).1 (x.on S).2

/-- A step and then another one, by what the first one does: the rules are
    asked for the whole when it comes to a value and when it fails. -/
theorem Follows.bind {t : Task α} {u : Task β} {x : Eval α} {f : α → Eval β} {S S₀ : State σ}
    (hx : Follows σ limit depth t x) (hd : S.depth = depth)
    (hok : ∀ a S₁, S₁.depth = depth → Yields limit t S (.ok a) S₁ →
      Yields limit u S₀ ((f a).on S₁).1 ((f a).on S₁).2)
    (herror : ∀ err S₁, Yields limit t S (.error err) S₁ → Yields limit u S₀ (.error err) S₁) :
    Yields limit u S₀ ((x >>= f).on S).1 ((x >>= f).on S).2 := by
  have h := hx S hd
  rcases hon : x.on S with ⟨r, S₁⟩
  rw [hon] at h
  cases r with
  | ok a =>
      rw [Eval.on_bind_ok hon]
      exact hok a S₁ ((Eval.depth_of_on hon).trans hd) h
  | error err =>
      rw [Eval.on_bind_error hon]
      exact herror err S₁ h

variable {enter : Enter}

/-- Items and arguments, when each one follows the rules. -/
theorem follows_evalAll {es : List Expr}
    (h : ∀ e ∈ es, Follows σ limit depth (.eval e) (e.eval enter)) :
    Follows σ limit depth (.evalAll es) (Expr.evalAll enter es) := by
  induction es with
  | nil =>
      intro S hd
      rw [Expr.evalAll]
      exact .noItems
  | cons e es ih =>
      intro S hd
      obtain ⟨he, hes⟩ := List.forall_mem_cons.mp h
      rw [Expr.evalAll]
      refine he.bind hd (fun v S₁ hd₁ h₁ => ?_) fun err S₁ h₁ => .itemFails h₁
      refine (ih hes).bind hd₁ (fun vs S₂ _ h₂ => ?_) fun err S₂ h₂ => .itemsFail h₁ h₂
      exact .items h₁ h₂

/-- Steps, when each one follows the rules. -/
theorem follows_evalSteps {es : List Expr}
    (h : ∀ e ∈ es, Follows σ limit depth (.eval e) (e.eval enter)) :
    Follows σ limit depth (.evalSteps es) (Expr.evalSteps enter es) := by
  induction es with
  | nil =>
      intro S hd
      rw [Expr.evalSteps]
      exact .noSteps
  | cons e es ih =>
      intro S hd
      obtain ⟨he, hes⟩ := List.forall_mem_cons.mp h
      cases es with
      | nil =>
          rw [Expr.evalSteps]
          exact .lastStep (he S hd)
      | cons f es =>
          rw [Expr.evalSteps]
          refine he.bind hd (fun v S₁ hd₁ h₁ => ?_) fun err S₁ h₁ => .stepFails h₁
          exact .steps h₁ (ih hes S₁ hd₁)

/-- Mapping, when each call follows the rules. -/
theorem follows_mapItems {f : Callable Value} {n : Nat}
    (h : ∀ v, Follows σ limit depth (.call f [v] n) (f.call enter [v] n)) (vs : List Value) :
    Follows σ limit depth (.mapItems f n vs)
      (Builtin.mapItems (fun v => f.call enter [v] n) vs) := by
  induction vs with
  | nil =>
      intro S hd
      exact .mapNone
  | cons v vs ih =>
      intro S hd
      rw [Builtin.mapItems]
      refine (h v).bind hd (fun w S₁ hd₁ h₁ => ?_) fun err S₁ h₁ => .mapItemFails h₁
      refine ih.bind hd₁ (fun ws S₂ _ h₂ => ?_) fun err S₂ h₂ => .mapRestFails h₁ h₂
      exact .mapNext h₁ h₂

/-- Filtering, when each call follows the rules. -/
theorem follows_filterItems {f : Callable Value} {n : Nat}
    (h : ∀ v, Follows σ limit depth (.call f [v] n) (f.call enter [v] n)) (vs : List Value) :
    Follows σ limit depth (.filterItems f n vs)
      (Builtin.filterItems (fun v => f.call enter [v] n) n vs) := by
  induction vs with
  | nil =>
      intro S hd
      exact .filterNone
  | cons v vs ih =>
      intro S hd
      rw [Builtin.filterItems]
      refine (h v).bind hd (fun w S₁ hd₁ h₁ => ?_) fun err S₁ h₁ => .filterItemFails h₁
      cases w with
      | bool keep =>
          refine ih.bind hd₁ (fun ws S₂ _ h₂ => ?_) fun err S₂ h₂ => .filterRestFails h₁ h₂
          exact .filterNext h₁ h₂
      | _ => exact .filterNotBool h₁ rfl

/-- The builtins without an argument; the clock decides which rule is the one for
    `epoch`. -/
theorem follows_builtin_zero {b : Builtin} (hb : b.arity = 0) (n : Nat) :
    Follows σ limit depth (.call (.builtin b) [] n) (b.call enter [] n) := by
  intro S hd
  cases b with
  | input => exact .input rfl
  | epoch =>
      show Yields limit _ S ((Builtin.epoch.plain [] n).on S).1 ((Builtin.epoch.plain [] n).on S).2
      rcases hclock : Host.answer .clock S.host with ⟨reading, host⟩
      cases reading with
      | ofNat milliseconds =>
          rw [Builtin.on_epoch hclock]
          exact .epoch hclock
      | negSucc k =>
          have hneg : Int.negSucc k < 0 := Int.negSucc_lt_zero k
          rw [Builtin.on_epoch_tooEarly hclock hneg]
          exact .epochTooEarly hclock hneg
  | random => exact .random rfl
  | _ => cases hb

theorem follows_builtin_one {b : Builtin} (hb : b.arity = 1) (v : Value) (n : Nat) :
    Follows σ limit depth (.call (.builtin b) [v] n) (b.call enter [v] n) := by
  intro S hd
  by_cases hp : b = .print
  · subst hp
    exact .print
  by_cases hl : b = .println
  · subst hl
    exact .println
  obtain ⟨r, hr⟩ := Builtin.exists_gives hb hp hl v n
  rw [Builtin.call_one, hr.plain_eq]
  exact .builtin hr

/-- How closures are entered follows the rules. -/
def EntersByRules (σ : Type) [Host σ] (limit depth : Nat) (enter : Enter) : Prop :=
  ∀ (c : Closure Value) (args : List Value) (n : Nat), c.params.length = args.length →
    Follows σ limit depth (.call (.closure c) args n) (enter c args n)

/-- A call checks the number of arguments first. -/
theorem follows_checked (he : EntersByRules σ limit depth enter) {f : Callable Value}
    {args : List Value} {n : Nat}
    (hb : ∀ b : Builtin, b.arity = args.length →
      Follows σ limit depth (.call (.builtin b) args n) (b.call enter args n)) :
    Follows σ limit depth (.call f args n) (f.call enter args n) := by
  by_cases hcount : f.arity = args.length
  · cases f with
    | builtin b =>
        rw [Callable.call_builtin hcount]
        exact hb b hcount
    | closure c =>
        rw [Callable.call_closure hcount]
        exact he c args n hcount
  · intro S hd
    have hfail : f.call enter args n
        = Eval.fail (.argumentCount f.text f.arity args.length n) := if_pos hcount
    rw [hfail]
    exact .countMismatch hcount

/-- What is called back has one argument, so it does not call back itself. -/
theorem follows_callOne (he : EntersByRules σ limit depth enter) (f : Callable Value) (n : Nat)
    (v : Value) : Follows σ limit depth (.call f [v] n) (f.call enter [v] n) :=
  follows_checked he fun _ hb => follows_builtin_one hb v n

theorem follows_builtin_two (he : EntersByRules σ limit depth enter) {b : Builtin}
    (hb : b.callsBack = true) (v w : Value) (n : Nat) :
    Follows σ limit depth (.call (.builtin b) [v, w] n) (b.call enter [v, w] n) := by
  intro S hd
  cases v with
  | function f =>
      cases w with
      | list items =>
          by_cases hf : f.arity = 1
          · have hcall : ∀ v, Follows σ limit depth (.call f [v] n) (f.call enter [v] n) :=
              follows_callOne he f n
            cases b with
            | map =>
                rw [Builtin.call, if_pos hf, Builtin.callOne_eq hf]
                exact (follows_mapItems hcall items.toList).bind hd
                  (fun vs S₁ _ h => .map hf h) fun err S₁ h => .mapFails hf h
            | filter =>
                rw [Builtin.call, if_pos hf, Builtin.callOne_eq hf]
                exact (follows_filterItems hcall items.toList).bind hd
                  (fun vs S₁ _ h => .filter hf h) fun err S₁ h => .filterFails hf h
            | _ => cases hb
          · rw [Builtin.call_notUnary hb hf]
            exact .notUnary hb hf
      | _ =>
          rw [Builtin.call_notList hb rfl]
          exact .notList hb rfl
  | _ =>
      rw [Builtin.call_notFunction hb rfl]
      exact .notFunction hb rfl

theorem follows_builtin (he : EntersByRules σ limit depth enter) {b : Builtin}
    {args : List Value} (hcount : b.arity = args.length) (n : Nat) :
    Follows σ limit depth (.call (.builtin b) args n) (b.call enter args n) := by
  match args with
  | [] => exact follows_builtin_zero hcount n
  | [v] => exact follows_builtin_one hcount v n
  | [v, w] =>
      have hb : b.callsBack = true := by cases b <;> first | rfl | cases hcount
      exact follows_builtin_two he hb v w n
  | _ :: _ :: _ :: _ => cases b <;> cases hcount

/-- A call of any function follows the rules. -/
theorem follows_call (he : EntersByRules σ limit depth enter) (f : Callable Value)
    (args : List Value) (n : Nat) :
    Follows σ limit depth (.call f args n) (f.call enter args n) :=
  follows_checked he fun _ hb => follows_builtin he hb n

/-- The value of any expression follows the rules, if entering closures
    does. -/
theorem follows_eval (he : EntersByRules σ limit depth enter) (e : Expr) :
    Follows σ limit depth (.eval e) (e.eval enter) := by
  induction e using Expr.induction with
  | literal value n =>
      intro S hd
      rw [Expr.eval]
      exact .literal
  | list items n ih =>
      intro S hd
      rw [Expr.eval]
      exact (follows_evalAll ih).bind hd (fun vs S₁ _ h => .list h) fun err S₁ h => .listFails h
  | symbol name n =>
      intro S hd
      rw [Expr.eval]
      cases hv : S.env.lookup? name with
      | some v =>
          rw [Eval.on_lookup_some hv]
          exact .symbol hv
      | none =>
          rw [Eval.on_lookup_none hv]
          exact .undefinedSymbol hv
  | define name value n ih =>
      intro S hd
      cases hf : value.isFunction with
      | false =>
          rw [Expr.eval_define hf]
          exact ih.bind hd (fun v S₁ _ h => .define hf h) fun err S₁ h => .defineFails hf h
      | true =>
          cases value with
          | function params body m =>
              rw [Expr.eval]
              exact .defineFunction
          | _ => cases hf
  | group inner n ih =>
      intro S hd
      rw [Expr.eval]
      exact .group (ih S hd)
  | unary op operand n ih =>
      intro S hd
      rw [Expr.eval]
      exact ih.bind hd (fun v S₁ _ h => .unary h (op.gives_apply v _ n))
        fun err S₁ h => .unaryFails h
  | binary op lhs rhs n ihl ihr =>
      intro S hd
      cases hop : op.isLogical with
      | false =>
          rw [Expr.eval_strict hop]
          refine ihl.bind hd (fun l S₁ hd₁ h₁ => ?_) fun err S₁ h₁ => .leftFails h₁
          refine ihr.bind hd₁ (fun r S₂ _ h₂ => ?_) fun err S₂ h₂ => .rightFails hop h₁ h₂
          exact .binary hop h₁ h₂ (op.gives_apply l r _ n)
      | true =>
          rw [Expr.eval_logical hop]
          refine ihl.bind hd (fun l S₁ hd₁ h₁ => ?_) fun err S₁ h₁ => .leftFails h₁
          cases l with
          | bool b =>
              cases hb : op.settles b with
              | true =>
                  rw [BinaryOp.afterLeft_settled hb]
                  exact .settled hb h₁
              | false =>
                  rw [BinaryOp.afterLeft_unsettled hb]
                  refine ihr.bind hd₁ (fun r S₂ _ h₂ => ?_)
                    fun err S₂ h₂ => .unsettledFails hop hb h₁ h₂
                  cases r with
                  | bool c => exact .unsettled hop hb h₁ h₂
                  | _ => exact .rightNotBool hop hb h₁ h₂ rfl
          | _ => exact .leftNotBool hop h₁ rfl
  | choice test yes no n iht ihy ihn =>
      intro S hd
      rw [Expr.eval]
      refine iht.bind hd (fun v S₁ hd₁ h => ?_) fun err S₁ h => .testFails h
      cases v with
      | bool b =>
          cases b with
          | true => exact .choice h (follows_evalSteps ihy _ hd₁)
          | false => exact .choice h (follows_evalSteps ihn _ hd₁)
      | _ => exact .testNotBool h rfl
  | function params body n ih =>
      intro S hd
      rw [Expr.eval]
      exact .function
  | call callee args n ihc iha =>
      intro S hd
      rw [Expr.eval]
      refine ihc.bind hd (fun v S₁ hd₁ h₁ => ?_) fun err S₁ h => .calleeFails h
      cases v with
      | function f =>
          by_cases hcount : f.arity = args.length
          · dsimp only
            rw [if_neg (not_not_intro hcount)]
            refine (follows_evalAll iha).bind hd₁ (fun vs S₂ hd₂ h₂ => ?_)
              fun err S₂ h₂ => .argsFail h₁ hcount h₂
            exact .call h₁ hcount h₂ (follows_call he f vs n S₂ hd₂)
          · dsimp only
            rw [if_pos hcount]
            exact .wrongCount h₁ hcount
      | _ => exact .uncallable h₁ rfl

/-- Entering closures follows the rules, whatever number of calls is open. -/
theorem entersByRules (limit depth : Nat) :
    EntersByRules σ limit depth (enterAt limit depth) := by
  -- by induction on the number of calls that may still be opened
  induction hn : limit - depth generalizing depth with
  | zero =>
      intro c args n hcount S hd
      have hle : limit ≤ depth := Nat.le_of_sub_eq_zero hn
      rw [enterAt_of_le hle]
      exact .overflow hcount (hd ▸ hle)
  | succ remaining ih =>
      intro c args n hcount S hd
      have hlt : depth < limit := by omega
      have hnext : EntersByRules σ limit (depth + 1) (enterAt limit (depth + 1)) :=
        ih (depth + 1) (by omega)
      have hbody : Follows σ limit (depth + 1) (.evalSteps c.body)
          (Expr.evalSteps (enterAt limit (depth + 1)) c.body) :=
        follows_evalSteps fun e _ => follows_eval hnext e
      subst hd
      rw [enterAt_of_lt hlt]
      dsimp only
      rw [Closure.callEnv_eq]
      exact .enter hcount hlt (hbody _ rfl)

/-- Whatever a task does, the rules derive it. -/
theorem Task.follows (t : Task α) : Follows σ limit depth t (t.step (enterAt limit depth)) := by
  have he : EntersByRules σ limit depth (enterAt limit depth) := entersByRules limit depth
  cases t with
  | eval e => exact follows_eval he e
  | evalAll es => exact follows_evalAll fun e _ => follows_eval he e
  | evalSteps es => exact follows_evalSteps fun e _ => follows_eval he e
  | call f args n => exact follows_call he f args n
  | mapItems f n vs => exact follows_mapItems (follows_callOne he f n) vs
  | filterItems f n vs => exact follows_filterItems (follows_callOne he f n) vs

/-- The rules derive for a task what its step does, and nothing else. -/
theorem Task.yields_iff {t : Task α} {S S' : State σ} {r : Except RuntimeError α} :
    Yields limit t S r S' ↔ (t.step (enterAt limit S.depth)).on S = (r, S') := by
  constructor
  · exact Yields.on_eq
  · intro h
    have hy : Yields limit t S _ _ := t.follows S rfl
    rw [h] at hy
    exact hy

end Complete

/-- The state of a session with its host. -/
def Session.state {σ : Type} (s : Session) (host : σ) : State σ :=
  ⟨s.store, s.depth, host⟩

/-- **Evaluation follows the rules.**  Evaluating an expression in a session
    comes to a value or an error and leaves the session and the host in some
    state exactly when the rules derive this. -/
theorem Session.run_eval_eq_iff {σ : Type} [Host σ] (s s' : Session) (host host' : σ) (e : Expr)
    (r : Except RuntimeError Value) :
    (s.eval e).run host = ((r, s'), host') ↔
      s'.settings = s.settings
        ∧ Yields s.settings.maxDepth (.eval e) (s.state host) r (s'.state host') := by
  rw [Task.yields_iff, eval, run_perform]
  constructor
  · intro h
    obtain ⟨hrs, rfl⟩ := Prod.mk.inj h
    obtain ⟨rfl, rfl⟩ := Prod.mk.inj hrs
    exact ⟨rfl, rfl⟩
  · rintro ⟨hset, h⟩
    obtain ⟨rfl, hstate⟩ := Prod.mk.inj h
    obtain ⟨hstore, hdepth, rfl⟩ := State.mk.inj hstate
    obtain ⟨settings, store, depth⟩ := s'
    obtain rfl : settings = s.settings := hset
    obtain rfl : _ = store := hstore
    obtain rfl : s.depth = depth := hdepth
    rfl

end Scriptlet
