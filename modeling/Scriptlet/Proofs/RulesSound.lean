import Scriptlet.Proofs.Rules
import Scriptlet.Proofs.Scope

/-! # What the rules derive is done

    The evaluator as steps from state to state (`Eval.on`), the step that does
    a task (`Task.step`), and the first half of the agreement with the rules:
    whatever they derive for a task is what its step does (`Yields.on_eq`), by
    induction on the derivation. -/

namespace Scriptlet

/-! ## Evaluation steps from state to state -/

namespace Eval

variable {σ α β : Type} [Host σ]

/-- What a step comes to in a state, and the state after it. -/
def on (x : Eval α) (S : State σ) : Except RuntimeError α × State σ :=
  (((x S.toStore).result S.host).1.1,
    ⟨((x S.toStore).result S.host).1.2, S.depth, ((x S.toStore).result S.host).2⟩)

variable {x : Eval α} {f : α → Eval β} {S S' : State σ}

/-- No step changes the number of open calls for good. -/
theorem depth_of_on {r : Except RuntimeError α} (h : x.on S = (r, S')) : S'.depth = S.depth := by
  have hs : (x.on S).2 = S' := congrArg Prod.snd h
  rw [← hs]
  rfl

/-- When the first step comes to a value, the second one goes on with it. -/
theorem on_bind_ok {a : α} (h : x.on S = (.ok a, S')) : (x >>= f).on S = (f a).on S' := by
  obtain ⟨hr, rfl⟩ := Prod.mk.inj h
  unfold on
  rw [result_bind]
  generalize (x S.toStore).result S.host = outcome at hr
  obtain ⟨⟨r, s⟩, host⟩ := outcome
  obtain rfl : r = .ok a := hr
  rfl

/-- When the first step fails, the second one is not done. -/
theorem on_bind_error {err : RuntimeError} (h : x.on S = (.error err, S')) :
    (x >>= f).on S = (.error err, S') := by
  obtain ⟨hr, rfl⟩ := Prod.mk.inj h
  unfold on
  rw [result_bind]
  generalize (x S.toStore).result S.host = outcome at hr
  obtain ⟨⟨r, s⟩, host⟩ := outcome
  obtain rfl : r = .error err := hr
  rfl

theorem on_lookup_some {name : String} {v : Value} (h : S.env.lookup? name = some v) (n : Nat) :
    (lookup name n).on S = (.ok v, S) := by
  simp only [on, lookup, h]
  rfl

theorem on_lookup_none {name : String} (h : S.env.lookup? name = none) (n : Nat) :
    (lookup name n).on S = (.error (.undefinedSymbol name n), S) := by
  simp only [on, lookup, h]
  rfl

/-- A question, and the host after its answer. -/
theorem on_ask {q : Request α} {reply : α} {host : σ} (h : Host.answer q S.host = (reply, host)) :
    (ask q).on S = (.ok reply, { S with host }) := by
  show (Except.ok (Host.answer q S.host).1, { S with host := (Host.answer q S.host).2 }) = _
  rw [h]

/-- A random number, and those to come after it. -/
theorem on_randomNumber {x : Float} {random : Supply Float} (h : S.random.next = (x, random)) :
    randomNumber.on S = (.ok x, { S with random }) := by
  show (Except.ok S.random.next.1, { S with random := S.random.next.2 }) = _
  rw [h]

/-- A step in a frame of its own. -/
theorem on_inFrame {r : Except RuntimeError α}
    (h : x.on { S with env := S.env.push } = (r, S')) :
    (inFrame x).on S = (r, { S' with env := S'.env.pop }) := by
  obtain ⟨rfl, rfl⟩ := Prod.mk.inj h
  rfl

/-- A step in another environment; it does not matter how many calls are open. -/
theorem on_inEnv {r : Except RuntimeError α} {env : Env Value} {depth : Nat}
    (h : x.on { S with env, depth } = (r, S')) :
    (inEnv env x).on S = (r, { S' with env := S.env, depth := S.depth }) := by
  obtain ⟨rfl, rfl⟩ := Prod.mk.inj h
  rfl

/-- The right operand of a logical operator is its value, if it is a truth
    value. -/
def truth (expr : String) (line : Nat) : Value → Eval Value
  | .bool b => pure (.bool b)
  | _ => fail (.incompatibleTypes expr line)

end Eval

/-- How a closure is entered when `depth` calls are open. -/
def enterAt (limit depth : Nat) : Enter :=
  Closure.enter limit (limit - depth)

/-- The step that does a task. -/
def Task.step (enter : Enter) : {α : Type} → Task α → Eval α
  | _, .eval e => e.eval enter
  | _, .evalAll es => Expr.evalAll enter es
  | _, .evalSteps es => Expr.evalSteps enter es
  | _, .call f args n => f.call enter args n
  | _, .mapItems f n vs => Builtin.mapItems (fun v => f.call enter [v] n) vs
  | _, .filterItems f n vs => Builtin.filterItems (fun v => f.call enter [v] n) n vs

/-! ## Operators and builtins -/

/-- What the rules of a unary operator give is what it does. -/
theorem UnaryOp.Gives.apply_eq {op : UnaryOp} {v : Value} {expr : Expr} {n : Nat}
    {r : Except RuntimeError Value} (h : op.Gives expr.text n v r) : op.apply v expr n = r := by
  cases h with
  | negate x => rfl
  | not b => rfl
  | notNumber hv => cases v <;> first | rfl | cases hv
  | notBool hv => cases v <;> first | rfl | cases hv

/-- Operands that an operator is not made for. -/
theorem BinaryOp.apply_of_not_takes {op : BinaryOp} {l r : Value} (h : ¬ op.Takes l r)
    (expr : Expr) (n : Nat) : op.apply l r expr n = .error (.incompatibleTypes expr.text n) := by
  cases op with
  | equal | notEqual => exact absurd trivial h
  | concat =>
      cases l with
      | string s => cases r <;> first | rfl | exact absurd ⟨rfl, rfl⟩ h
      | _ => cases r <;> rfl
  | cons =>
      cases r with
      | list items => exact absurd rfl h
      | number y => cases l <;> rfl
      | _ => rfl
  | _ =>
      cases l with
      | number x => cases r <;> first | rfl | exact absurd ⟨rfl, rfl⟩ h
      | _ => rfl

/-- What the rules of a binary operator give is what it does. -/
theorem BinaryOp.Gives.apply_eq {op : BinaryOp} {l r : Value} {expr : Expr} {n : Nat}
    {out : Except RuntimeError Value} (h : op.Gives expr.text n l r out) :
    op.apply l r expr n = out := by
  cases h with
  | divide hq => exact if_pos hq
  | divideByZero hq => exact if_neg (Bool.eq_false_iff.mp hq)
  | mismatch ht => exact apply_of_not_takes ht expr n
  | _ => rfl

namespace Builtin

variable {b : Builtin} {v : Value} {n : Nat} {r : Except RuntimeError Value}

/-- Only a builtin with two arguments calls back. -/
theorem call_one (enter : Enter) (b : Builtin) (v : Value) (n : Nat) :
    b.call enter [v] n = b.plain [v] n := by
  cases b with
  | map | filter => cases v <;> rfl
  | _ => rfl

theorem Gives.arity_eq (h : b.Gives n v r) : b.arity = 1 := by
  cases h with
  | noItems hb _ => rcases hb with rfl | rfl <;> rfl
  | mismatch ht _ => cases b <;> first | rfl | cases ht
  | _ => rfl

/-- A list without items has no part. -/
theorem ofItems_of_empty {part? : Items Value → Option Value} {items : Items Value}
    (h : items.isEmpty = true ∨ part? items = none) :
    b.ofItems part? [.list items] n = b.violation "the list is empty" n := by
  rw [ofItems]
  by_cases he : items.isEmpty = true
  · exact if_pos he
  · rw [if_neg he, h.resolve_left he]

/-- An argument of another type than the one asked for. -/
theorem plain_mismatch {type : String} (ht : b.argumentType? = some type)
    (hv : v.typeName ≠ type) :
    b.plain [v] n = b.violation ("expected a " ++ type ++ ", found " ++ v.typeName) n := by
  cases b with
  | parseNumber | exp | sin | cos | first | rest | length | iota =>
      obtain rfl := Option.some.inj ht
      cases v <;> first | rfl | exact absurd rfl hv
  | _ => cases ht

/-- What the rules of a builtin give is what it does. -/
theorem Gives.plain_eq (h : b.Gives n v r) : b.plain [v] n = Eval.ofExcept r := by
  cases h with
  | readNumber hs =>
      rw [plain, hs]
      rfl
  | noNumber hs =>
      rw [plain, hs]
      rfl
  | first he hf =>
      rw [plain, ofItems, he, hf]
      rfl
  | rest he hr =>
      rw [plain, ofItems, he, hr]
      rfl
  | noItems hb he =>
      rename_i items
      obtain ⟨as, size⟩ := items
      -- a list without a first item has no rest either
      rcases hb with rfl | rfl
      · refine ofItems_of_empty (he.imp_right ?_)
        rintro rfl
        rfl
      · rw [plain]
        refine ofItems_of_empty (he.imp_right ?_)
        rintro rfl
        rfl
  | mismatch ht hv => exact plain_mismatch ht hv
  | _ => rfl

section Clock

open Eval

variable {σ : Type} [Host σ] {S : State σ} {host : σ}

/-- `epoch` with a clock that shows 1970 or later. -/
theorem on_epoch {milliseconds : Nat}
    (h : Host.answer .clock S.host = ((milliseconds : Int), host)) (n : Nat) :
    (epoch.plain [] n).on S
      = (.ok (.number (Float.ofNat milliseconds / 1000.0)), { S with host }) := by
  rw [plain, on_bind_ok (on_ask h), if_neg (Int.not_lt.mpr (Int.natCast_nonneg _))]
  rfl

/-- `epoch` with a clock that shows a time before 1970. -/
theorem on_epoch_tooEarly {milliseconds : Int}
    (h : Host.answer .clock S.host = (milliseconds, host)) (hneg : milliseconds < 0) (n : Nat) :
    (epoch.plain [] n).on S
      = (.error (.contractViolation "epoch" "second time provided was later than self" n),
        { S with host }) := by
  rw [plain, on_bind_ok (on_ask h), if_pos hneg]
  rfl

end Clock

/-- The builtins that call back have two arguments. -/
theorem arity_of_callsBack (hb : b.callsBack = true) : b.arity = 2 := by
  cases b <;> first | rfl | cases hb

/-- A builtin that calls back complains of its first argument first. -/
theorem call_notFunction (hb : b.callsBack = true) (hv : v.function? = none) (enter : Enter)
    (w : Value) (n : Nat) :
    b.call enter [v, w] n = b.violation ("expected a function, found " ++ v.typeName) n := by
  cases b with
  | map | filter => cases v <;> first | rfl | cases hv
  | _ => cases hb

/-- A builtin that calls back complains of its second argument only when the first
    one is a function. -/
theorem call_notList (hb : b.callsBack = true) (hv : v.list? = none) (enter : Enter)
    (f : Callable Value) (n : Nat) :
    b.call enter [.function f, v] n
      = b.violation ("expected a list, found " ++ v.typeName) n := by
  cases b with
  | map | filter => cases v <;> first | rfl | cases hv
  | _ => cases hb

/-- A builtin that calls back complains of the number of parameters only when both
    arguments are of the right type. -/
theorem call_notUnary (hb : b.callsBack = true) {f : Callable Value} (hf : f.arity ≠ 1)
    (enter : Enter) (items : Items Value) (n : Nat) :
    b.call enter [.function f, .list items] n
      = b.violation ("expected a function of one argument, found " ++ f.text) n := by
  cases b with
  | map | filter => exact if_neg hf
  | _ => cases hb

end Builtin

/-! ## What the rules derive is done -/

theorem BinaryOp.isLogical_of_settles {op : BinaryOp} {b : Bool} (h : op.settles b = true) :
    op.isLogical = true := by
  cases op <;> first | rfl | cases h

/-- An operator that needs both operands evaluates both. -/
theorem Expr.eval_strict {enter : Enter} {op : BinaryOp} {lhs rhs : Expr} {n : Nat}
    (h : op.isLogical = false) :
    (Expr.binary op lhs rhs n).eval enter = (do
      let l ← lhs.eval enter
      let r ← rhs.eval enter
      Eval.ofExcept (op.apply l r (.binary op lhs rhs n) n)) := by
  cases op with
  | and | or => cases h
  | _ => rw [Expr.eval]; rfl

/-- What a logical operator does once its left operand is known. -/
def BinaryOp.afterLeft (op : BinaryOp) (rhs : Eval Value) (expr : String) (line : Nat) :
    Value → Eval Value
  | .bool b => if op.settles b then pure (.bool b) else rhs >>= Eval.truth expr line
  | _ => .fail (.incompatibleTypes expr line)

/-- A left operand that settles an operator is its value. -/
theorem BinaryOp.afterLeft_settled {op : BinaryOp} {b : Bool} (h : op.settles b = true)
    (rhs : Eval Value) (expr : String) (line : Nat) :
    op.afterLeft rhs expr line (.bool b) = pure (.bool b) :=
  if_pos h

/-- A left operand that does not settle an operator leaves it to the right one. -/
theorem BinaryOp.afterLeft_unsettled {op : BinaryOp} {b : Bool} (h : op.settles b = false)
    (rhs : Eval Value) (expr : String) (line : Nat) :
    op.afterLeft rhs expr line (.bool b) = rhs >>= Eval.truth expr line :=
  if_neg (Bool.eq_false_iff.mp h)

/-- A logical operator evaluates its left operand and then decides about the right one. -/
theorem Expr.eval_logical {enter : Enter} {op : BinaryOp} {lhs rhs : Expr} {n : Nat}
    (h : op.isLogical = true) :
    (Expr.binary op lhs rhs n).eval enter
      = lhs.eval enter >>= op.afterLeft (rhs.eval enter) (Expr.binary op lhs rhs n).text n := by
  cases op with
  | and | or =>
      rw [Expr.eval]
      congr 1
      funext l
      cases l with
      | bool b => cases b <;> rfl
      | _ => rfl
  | _ => cases h

theorem Expr.eval_define {enter : Enter} {name : String} {value : Expr} {n : Nat}
    (h : value.isFunction = false) :
    (Expr.define name value n).eval enter
      = (do let v ← value.eval enter; Eval.define name v; pure v) := by
  cases value with
  | function params body m => cases h
  | _ => simp only [Expr.eval]

/-- Entering a closure binds its name and its parameters in a new frame. -/
theorem Closure.callEnv_eq (c : Closure Value) (args : List Value) :
    c.callEnv args = c.scope.push.bindAll (c.opening args) := by
  obtain ⟨identity, params, body, scope, selfName?⟩ := c
  cases selfName? <;> rfl

/-- Below the limit the body is evaluated, with one more call open. -/
theorem enterAt_of_lt {limit depth : Nat} (h : depth < limit) :
    enterAt limit depth = fun c args _ =>
      Eval.inEnv (c.callEnv args) (Expr.evalSteps (enterAt limit (depth + 1)) c.body) := by
  have hsub : limit - depth = limit - (depth + 1) + 1 := by omega
  rw [enterAt, hsub]
  rfl

/-- At the limit no closure is entered. -/
theorem enterAt_of_le {limit depth : Nat} (h : limit ≤ depth) :
    enterAt limit depth = fun _ _ line => .fail (.stackOverflow limit line) := by
  rw [enterAt, Nat.sub_eq_zero_of_le h]
  rfl

theorem Callable.call_builtin {b : Builtin} {args : List Value} (h : b.arity = args.length)
    (enter : Enter) (n : Nat) : (Callable.builtin b).call enter args n = b.call enter args n :=
  if_neg (not_not_intro h)

theorem Callable.call_closure {c : Closure Value} {args : List Value}
    (h : c.params.length = args.length) (enter : Enter) (n : Nat) :
    (Callable.closure c).call enter args n = enter c args n :=
  if_neg (not_not_intro h)

/-- A function of one argument is called back like any other. -/
theorem Builtin.callOne_eq {f : Callable Value} (h : f.arity = 1) (enter : Enter) (n : Nat) :
    Builtin.callOne enter f n = fun v => f.call enter [v] n := by
  funext v
  cases f with
  | builtin b =>
      have hb : b.arity = [v].length := h
      rw [Callable.call_builtin hb, Builtin.call_one]
      rfl
  | closure c =>
      have hc : c.params.length = [v].length := h
      rw [Callable.call_closure hc]
      rfl

open Eval in
/-- What the rules derive for a task is what its step does. -/
theorem Yields.on_eq {σ α : Type} [Host σ] {limit : Nat} {t : Task α} {S S' : State σ}
    {r : Except RuntimeError α} (h : Yields limit t S r S') :
    (t.step (enterAt limit S.depth)).on S = (r, S') := by
  induction h with dsimp only [Task.step] at *
  | literal => rw [Expr.eval]; rfl
  | symbol hv => rw [Expr.eval, on_lookup_some hv]
  | undefinedSymbol hv => rw [Expr.eval, on_lookup_none hv]
  | function => rw [Expr.eval]; rfl
  | list _ ih => rw [Expr.eval, on_bind_ok ih]; rfl
  | listFails _ ih => rw [Expr.eval, on_bind_error ih]
  | defineFunction => rw [Expr.eval]; rfl
  | define hf _ ih => rw [Expr.eval_define hf, on_bind_ok ih]; rfl
  | defineFails hf _ ih => rw [Expr.eval_define hf, on_bind_error ih]
  | group _ ih => rw [Expr.eval]; exact ih
  | unary _ hg ih => rw [Expr.eval, on_bind_ok ih, hg.apply_eq]; rfl
  | unaryFails _ ih => rw [Expr.eval, on_bind_error ih]
  | binary hop _ _ hg ihl ihr =>
      rw [depth_of_on ihl] at ihr
      rw [Expr.eval_strict hop, on_bind_ok ihl, on_bind_ok ihr, hg.apply_eq]
      rfl
  | leftFails _ ih => rw [Expr.eval, on_bind_error ih]
  | rightFails hop _ _ ihl ihr =>
      rw [depth_of_on ihl] at ihr
      rw [Expr.eval_strict hop, on_bind_ok ihl, on_bind_error ihr]
  | settled hb _ ih =>
      rw [Expr.eval_logical (BinaryOp.isLogical_of_settles hb), on_bind_ok ih,
        BinaryOp.afterLeft_settled hb]
      rfl
  | unsettled hop hb _ _ ihl ihr =>
      rw [depth_of_on ihl] at ihr
      rw [Expr.eval_logical hop, on_bind_ok ihl, BinaryOp.afterLeft_unsettled hb, on_bind_ok ihr]
      rfl
  | unsettledFails hop hb _ _ ihl ihr =>
      rw [depth_of_on ihl] at ihr
      rw [Expr.eval_logical hop, on_bind_ok ihl, BinaryOp.afterLeft_unsettled hb,
        on_bind_error ihr]
  | @leftNotBool _ _ _ _ _ l _ hop _ hl ih =>
      rw [Expr.eval_logical hop, on_bind_ok ih]
      cases l <;> first | rfl | cases hl
  | @rightNotBool _ _ _ _ _ _ _ r _ hop hb _ _ hr ihl ihr =>
      rw [depth_of_on ihl] at ihr
      rw [Expr.eval_logical hop, on_bind_ok ihl, BinaryOp.afterLeft_unsettled hb, on_bind_ok ihr]
      cases r <;> first | rfl | cases hr
  | @choice _ _ _ _ _ _ b _ _ _ _ iht ihb =>
      rw [Expr.eval, on_bind_ok iht, ← depth_of_on iht]
      cases b <;> exact on_inFrame ihb
  | @testNotBool _ _ _ _ _ v _ _ hv ih =>
      rw [Expr.eval, on_bind_ok ih]
      cases v <;> first | rfl | cases hv
  | testFails _ ih => rw [Expr.eval, on_bind_error ih]
  | call _ hcount _ _ ihf iha ihc =>
      rw [depth_of_on iha] at ihc
      rw [depth_of_on ihf] at iha ihc
      rw [Expr.eval, on_bind_ok ihf]
      dsimp only
      rw [if_neg (not_not_intro hcount), on_bind_ok iha]
      exact ihc
  | argsFail _ hcount _ ihf iha =>
      rw [depth_of_on ihf] at iha
      rw [Expr.eval, on_bind_ok ihf]
      dsimp only
      rw [if_neg (not_not_intro hcount), on_bind_error iha]
  | wrongCount _ hcount ih =>
      rw [Expr.eval, on_bind_ok ih]
      dsimp only
      rw [if_pos hcount]
      rfl
  | @uncallable _ _ _ _ v _ _ hv ih =>
      rw [Expr.eval, on_bind_ok ih]
      cases v <;> first | rfl | cases hv
  | calleeFails _ ih => rw [Expr.eval, on_bind_error ih]
  | noItems => rw [Expr.evalAll]; rfl
  | items _ _ ihe ihs =>
      rw [depth_of_on ihe] at ihs
      rw [Expr.evalAll, on_bind_ok ihe, on_bind_ok ihs]
      rfl
  | itemFails _ ih => rw [Expr.evalAll, on_bind_error ih]
  | itemsFail _ _ ihe ihs =>
      rw [depth_of_on ihe] at ihs
      rw [Expr.evalAll, on_bind_ok ihe, on_bind_error ihs]
  | noSteps => rw [Expr.evalSteps]; rfl
  | lastStep _ ih => rw [Expr.evalSteps, ih]
  | steps _ _ ihe ihs =>
      rw [depth_of_on ihe] at ihs
      rw [Expr.evalSteps, on_bind_ok ihe, ihs]
  | stepFails _ ih => rw [Expr.evalSteps, on_bind_error ih]
  | countMismatch hcount => exact congrArg (on · _) (if_pos hcount)
  | enter hcount hd _ ih =>
      rw [Callable.call_closure hcount, enterAt_of_lt hd]
      dsimp only
      rw [Closure.callEnv_eq, on_inEnv ih, depth_of_on ih]
      rfl
  | overflow hcount hd =>
      rw [Callable.call_closure hcount, enterAt_of_le hd]
      rfl
  | print => rw [Callable.call_builtin rfl]; rfl
  | println => rw [Callable.call_builtin rfl]; rfl
  | input hr => rw [Callable.call_builtin rfl]; exact on_bind_ok (on_ask hr)
  | epoch hr => rw [Callable.call_builtin rfl]; exact Builtin.on_epoch hr _
  | epochTooEarly hr hneg =>
      rw [Callable.call_builtin rfl]
      exact Builtin.on_epoch_tooEarly hr hneg _
  | random hr => rw [Callable.call_builtin rfl]; exact on_bind_ok (on_randomNumber hr)
  | builtin hg =>
      rw [Callable.call_builtin hg.arity_eq, Builtin.call_one, hg.plain_eq]
      rfl
  | map hf _ ih =>
      rw [Callable.call_builtin rfl, Builtin.call, if_pos hf, Builtin.callOne_eq hf, on_bind_ok ih]
      rfl
  | mapFails hf _ ih =>
      rw [Callable.call_builtin rfl, Builtin.call, if_pos hf, Builtin.callOne_eq hf,
        on_bind_error ih]
  | filter hf _ ih =>
      rw [Callable.call_builtin rfl, Builtin.call, if_pos hf, Builtin.callOne_eq hf, on_bind_ok ih]
      rfl
  | filterFails hf _ ih =>
      rw [Callable.call_builtin rfl, Builtin.call, if_pos hf, Builtin.callOne_eq hf,
        on_bind_error ih]
  | notUnary hb hf =>
      rw [Callable.call_builtin (Builtin.arity_of_callsBack hb), Builtin.call_notUnary hb hf]
      rfl
  | notList hb hv =>
      rw [Callable.call_builtin (Builtin.arity_of_callsBack hb), Builtin.call_notList hb hv]
      rfl
  | notFunction hb hv =>
      rw [Callable.call_builtin (Builtin.arity_of_callsBack hb), Builtin.call_notFunction hb hv]
      rfl
  | mapNone => rfl
  | mapNext _ _ ihc ihs =>
      rw [depth_of_on ihc] at ihs
      rw [Builtin.mapItems, on_bind_ok ihc, on_bind_ok ihs]
      rfl
  | mapItemFails _ ih => rw [Builtin.mapItems, on_bind_error ih]
  | mapRestFails _ _ ihc ihs =>
      rw [depth_of_on ihc] at ihs
      rw [Builtin.mapItems, on_bind_ok ihc, on_bind_error ihs]
  | filterNone => rfl
  | filterNext _ _ ihc ihs =>
      rw [depth_of_on ihc] at ihs
      rw [Builtin.filterItems, on_bind_ok ihc]
      dsimp only
      rw [on_bind_ok ihs]
      rfl
  | filterItemFails _ ih => rw [Builtin.filterItems, on_bind_error ih]
  | filterRestFails _ _ ihc ihs =>
      rw [depth_of_on ihc] at ihs
      rw [Builtin.filterItems, on_bind_ok ihc]
      exact on_bind_error ihs
  | @filterNotBool _ _ _ _ w _ _ _ hw ih =>
      rw [Builtin.filterItems, on_bind_ok ih]
      cases w <;> first | rfl | cases hw

/-- A task leaves as many calls open as it found. -/
theorem Yields.depth_eq {σ α : Type} [Host σ] {limit : Nat} {t : Task α} {S S' : State σ}
    {r : Except RuntimeError α} (h : Yields limit t S r S') : S'.depth = S.depth :=
  Eval.depth_of_on h.on_eq

end Scriptlet
