import Mathlib.Logic.Relation
import Scriptlet.Proofs.RulesComplete
import Scriptlet.Proofs.Units

/-! # Every evaluation ends

    Evaluation by small steps, with a stack of what is still to be done and a
    counter of open calls that is raised when a closure is entered and lowered
    when it is left.  Nothing in a step bounds the number of steps, and the
    counter is an integer that a step may take anywhere.

    All the same, a run that starts with the counter between zero and the limit
    keeps it there (`Machine.Bounded`), and comes to rest, with what evaluation
    gives (`Yields.reaches`) and with the counter where it began
    (`Session.CountedOut`).  With what is known of environments, this says that
    nothing is left of a scope once it is closed (`Session.scopes_kept`). -/

namespace Scriptlet

/-- What a machine does next, or has come to. -/
inductive Control where
  | eval (e : Expr)
  | evalAll (done : List Value) (es : List Expr)
  | evalSteps (es : List Expr)
  | call (f : Callable Value) (args : List Value) (line : Nat)
  | mapItems (f : Callable Value) (line : Nat) (done vs : List Value)
  | filterItems (f : Callable Value) (line : Nat) (done vs : List Value)
  | value (v : Value)
  | values (vs : List Value)
  | fail (err : RuntimeError)
  | read (source : String)
  | evalUnit (done : List Value) (es : Program)
  | finished (r : Except Error (List Value))

/-- What waits for a value, or for values, or has to be undone. -/
inductive Pending where
  | item (done : List Value) (rest : List Expr)
  | list
  | define (name : String)
  | unary (op : UnaryOp) (operand : Expr) (line : Nat)
  | left (op : BinaryOp) (lhs rhs : Expr) (line : Nat)
  | right (op : BinaryOp) (l : Value) (lhs rhs : Expr) (line : Nat)
  | test (test : Expr) (yes no : List Expr) (line : Nat)
  | branch
  | callee (callee : Expr) (args : List Expr) (line : Nat)
  | args (f : Callable Value) (line : Nat)
  | steps (rest : List Expr)
  | caller (env : Env Value)
  | mapped (f : Callable Value) (line : Nat) (done rest : List Value)
  | filtered (f : Callable Value) (line : Nat) (item : Value) (done rest : List Value)
  | unit (checkpoint : Env Value) (done : List Value) (rest : Program)

/-- The control after a step that came to a value or failed. -/
def Control.ofResult : Except RuntimeError Value → Control
  | .ok v => .value v
  | .error err => .fail err

/-- A machine between two steps. -/
structure Machine (σ : Type) extends Store where
  control : Control
  stack : List Pending
  depth : Int
  host : σ

namespace Machine

variable {σ : Type}

/-- Goes on with another control. -/
def goto (m : Machine σ) (control : Control) : Machine σ :=
  { m with control }

/-- Goes on with another control and remembers what to do afterwards. -/
def defer (m : Machine σ) (control : Control) (k : Pending) : Machine σ :=
  { m with control, stack := k :: m.stack }

/-- Makes a closure of a function. -/
def close (m : Machine σ) (params : List String) (body : List Expr) (selfName? : Option String) :
    Value :=
  .function (.closure ⟨m.nextIdentity, params, body, m.env, selfName?⟩)

/-- Begins to evaluate an expression. -/
def startEval (m : Machine σ) : Expr → Machine σ
  | .literal value _ => m.goto (.value (.ofLiteral value))
  | .list items _ => m.defer (.evalAll [] items) .list
  | .symbol name line =>
    match m.env.lookup? name with
    | some v => m.goto (.value v)
    | none => m.goto (.fail (.undefinedSymbol name line))
  | .define name (.function params body _) _ =>
    let f := m.close params body (some name)
    { m with
      control := .value f
      env := m.env.bind name f
      nextIdentity := m.nextIdentity + 1 }
  | .define name value _ => m.defer (.eval value) (.define name)
  | .group inner _ => m.goto (.eval inner)
  | .unary op operand line => m.defer (.eval operand) (.unary op operand line)
  | .binary op lhs rhs line => m.defer (.eval lhs) (.left op lhs rhs line)
  | .choice test yes no line => m.defer (.eval test) (.test test yes no line)
  | .function params body _ =>
    { m with
      control := .value (m.close params body none)
      nextIdentity := m.nextIdentity + 1 }
  | .call callee args line => m.defer (.eval callee) (.callee callee args line)

/-- Does a step that calls nothing. -/
def perform [Host σ] (m : Machine σ) (x : Eval Value) : Machine σ :=
  let r := (x m.toStore).result m.host
  { r.1.2 with
    control := .ofResult r.1.1
    stack := m.stack
    depth := m.depth
    host := r.2 }

/-- Begins a call.  A function that is called back is called like any other. -/
def startCall [Host σ] (limit : Nat) (m : Machine σ) (f : Callable Value) (args : List Value)
    (line : Nat) : Machine σ :=
  if f.arity ≠ args.length then
    m.goto (.fail (.argumentCount f.text f.arity args.length line))
  else match f, args with
    | .closure c, args =>
      if limit ≤ m.depth then m.goto (.fail (.stackOverflow limit line))
      else
        { m with
          control := .evalSteps c.body
          stack := .caller m.env :: m.stack
          env := c.callEnv args
          depth := m.depth + 1 }
    | .builtin .map, [.function g, .list items] =>
      if g.arity = 1 then m.defer (.mapItems g line [] items.toList) .list
      else m.perform (Builtin.map.violation
        ("expected a function of one argument, found " ++ g.text) line)
    | .builtin .filter, [.function g, .list items] =>
      if g.arity = 1 then m.defer (.filterItems g line [] items.toList) .list
      else m.perform (Builtin.filter.violation
        ("expected a function of one argument, found " ++ g.text) line)
    | .builtin b, args => m.perform (b.plain args line)

/-- Hands a value to what waits for it; nothing waits for a value where values
    are waited for. -/
def resume (m : Machine σ) (k : Pending) (v : Value) : Option (Machine σ) :=
  match k with
  | .item done rest => some (m.goto (.evalAll (v :: done) rest))
  | .list => none
  | .define name => some { m with control := .value v, env := m.env.bind name v }
  | .unary op operand line =>
    some (m.goto (.ofResult (op.apply v (.unary op operand line) line)))
  | .left op lhs rhs line =>
    if op.isLogical then
      match v with
      | .bool b =>
        if op.settles b then some (m.goto (.value v))
        else some (m.defer (.eval rhs) (.right op v lhs rhs line))
      | _ => some (m.goto (.fail (.incompatibleTypes (Expr.binary op lhs rhs line).text line)))
    else some (m.defer (.eval rhs) (.right op v lhs rhs line))
  | .right op l lhs rhs line =>
    if op.isLogical then
      match v with
      | .bool _ => some (m.goto (.value v))
      | _ => some (m.goto (.fail (.incompatibleTypes (Expr.binary op lhs rhs line).text line)))
    else some (m.goto (.ofResult (op.apply l v (.binary op lhs rhs line) line)))
  | .test test yes no line =>
    match v with
    | .bool b =>
      some { m with
        control := .evalSteps (if b then yes else no)
        stack := .branch :: m.stack
        env := m.env.push }
    | _ => some (m.goto (.fail (.incompatibleTypes test.text line)))
  | .branch => some { m with control := .value v, env := m.env.pop }
  | .callee callee args line =>
    match v with
    | .function f =>
      if f.arity ≠ args.length then
        some (m.goto (.fail
          (.argumentCount (Expr.call callee args line).text f.arity args.length line)))
      else some (m.defer (.evalAll [] args) (.args f line))
    | _ => some (m.goto (.fail (.uncallableValue callee.text line)))
  | .args .. => none
  | .steps rest => some (m.goto (.evalSteps rest))
  | .caller env => some { m with control := .value v, env, depth := m.depth - 1 }
  | .mapped f line done rest => some (m.goto (.mapItems f line (v :: done) rest))
  | .filtered f line item done rest =>
    match v with
    | .bool keep =>
      some (m.goto (.filterItems f line (if keep then item :: done else done) rest))
    | _ =>
      some (m.goto (.fail (.contractViolation Builtin.filter.name
        ("expected a boolean from the predicate, found " ++ v.typeName) line)))
  | .unit _ done rest => some (m.goto (.evalUnit (v :: done) rest))

/-- Hands values to what waits for them. -/
def deliver (m : Machine σ) (k : Pending) (vs : List Value) : Option (Machine σ) :=
  match k with
  | .list => some (m.goto (.value (.ofList vs)))
  | .args f line => some (m.goto (.call f vs line))
  | _ => none

/-- Hands an error to what waits: frames and environments are put back, and a
    source unit ends. -/
def unwind (m : Machine σ) (k : Pending) (err : RuntimeError) : Machine σ :=
  match k with
  | .branch => { m with control := .fail err, env := m.env.pop }
  | .caller env => { m with control := .fail err, env, depth := m.depth - 1 }
  | .unit checkpoint _ _ =>
    { m with
      control := .finished (.error (.runtime err))
      stack := []
      env := checkpoint
      depth := 0 }
  | _ => m.goto (.fail err)

/-- One step; none when the machine has come to rest. -/
def step [Host σ] (limit : Nat) (m : Machine σ) : Option (Machine σ) :=
  match m.control, m.stack with
  | .eval e, _ => some (m.startEval e)
  | .evalAll done [], _ => some (m.goto (.values done.reverse))
  | .evalAll done (e :: es), _ => some (m.defer (.eval e) (.item done es))
  | .evalSteps [], _ => some (m.goto (.value .nil))
  | .evalSteps [e], _ => some (m.goto (.eval e))
  | .evalSteps (e :: f :: es), _ => some (m.defer (.eval e) (.steps (f :: es)))
  | .call f args line, _ => some (m.startCall limit f args line)
  | .mapItems _ _ done [], _ => some (m.goto (.values done.reverse))
  | .mapItems f line done (v :: vs), _ =>
    some (m.defer (.call f [v] line) (.mapped f line done vs))
  | .filterItems _ _ done [], _ => some (m.goto (.values done.reverse))
  | .filterItems f line done (v :: vs), _ =>
    some (m.defer (.call f [v] line) (.filtered f line v done vs))
  | .value v, k :: ks => { m with stack := ks }.resume k v
  | .values vs, k :: ks => { m with stack := ks }.deliver k vs
  | .fail err, k :: ks => some ({ m with stack := ks }.unwind k err)
  | .read source, _ =>
    match Program.read source with
    | .ok program => some (m.goto (.evalUnit [] program))
    | .error e => some (m.goto (.finished (.error (.static e))))
  | .evalUnit done [], _ => some (m.goto (.finished (.ok done.reverse)))
  | .evalUnit done (e :: es), _ => some (m.defer (.eval e) (.unit m.env done es))
  | _, _ => none

/-! ## Steps that stay within the machine -/

/-- Neither the host nor the number of closures made so far changes. -/
structure Quiet (m m' : Machine σ) : Prop where
  host : m'.host = m.host
  nextIdentity : m'.nextIdentity = m.nextIdentity

/-- Going on with a value neither asks the host nor makes a closure. -/
theorem quiet_resume {m m' : Machine σ} {k : Pending} {v : Value}
    (h : m.resume k v = some m') : Quiet m m' := by
  cases k <;> simp only [resume] at h <;> (repeat' split at h) <;> cases h <;> exact ⟨rfl, rfl⟩

theorem quiet_deliver {m m' : Machine σ} {k : Pending} {vs : List Value}
    (h : m.deliver k vs = some m') : Quiet m m' := by
  cases k <;> cases h <;> exact ⟨rfl, rfl⟩

/-- An error that passes through what is pending neither asks the host nor makes a
    closure. -/
theorem quiet_unwind (m : Machine σ) (k : Pending) (err : RuntimeError) :
    Quiet m (m.unwind k err) := by
  cases k <;> exact ⟨rfl, rfl⟩

/-- Only a call reaches the host, and only an expression makes a closure. -/
theorem quiet_step [Host σ] {limit : Nat} {m m' : Machine σ} (h : m.step limit = some m')
    (heval : ∀ e, m.control ≠ .eval e) (hcall : ∀ f args line, m.control ≠ .call f args line) :
    Quiet m m' := by
  obtain ⟨store, control, stack, depth, host⟩ := m
  cases control with
  | eval e => exact absurd rfl (heval e)
  | call f args line => exact absurd rfl (hcall f args line)
  | evalAll done es | mapItems _ _ done es | filterItems _ _ done es | evalUnit done es =>
      cases es <;> cases h <;> exact ⟨rfl, rfl⟩
  | evalSteps es =>
      match es with
      | [] | [_] | _ :: _ :: _ =>
          cases h
          exact ⟨rfl, rfl⟩
  | value v =>
      cases stack with
      | nil => cases h
      | cons k ks =>
          have hk := quiet_resume (m := ⟨store, .value v, ks, depth, host⟩) h
          exact ⟨hk.host, hk.nextIdentity⟩
  | values vs =>
      cases stack with
      | nil => cases h
      | cons k ks =>
          have hk := quiet_deliver (m := ⟨store, .values vs, ks, depth, host⟩) h
          exact ⟨hk.host, hk.nextIdentity⟩
  | fail err =>
      cases stack with
      | nil => cases h
      | cons k ks =>
          cases h
          have hk := quiet_unwind ⟨store, .fail err, ks, depth, host⟩ k err
          exact ⟨hk.host, hk.nextIdentity⟩
  | read source =>
      simp only [step] at h
      split at h <;> cases h <;> exact ⟨rfl, rfl⟩
  | finished r => cases h

/-! ## The counter stays between zero and the limit -/

/-- The number of calls that a stack will come back from. -/
def openCalls : List Pending → Nat
  | [] => 0
  | .caller _ :: ks => openCalls ks + 1
  | _ :: ks => openCalls ks

/-- The counter has room for every return, and does not pass the limit. -/
structure Bounded (limit : Nat) (m : Machine σ) : Prop where
  returns : (openCalls m.stack : Int) ≤ m.depth
  limited : m.depth ≤ limit

/-- Neither the counter nor the number of open calls changes. -/
def Level (m m' : Machine σ) : Prop :=
  m'.depth = m.depth ∧ openCalls m'.stack = openCalls m.stack

/-- A step that neither counts a call nor forgets one keeps the bounds. -/
theorem Bounded.level {limit : Nat} {m m' : Machine σ} (h : Bounded limit m) (hl : Level m m') :
    Bounded limit m' := by
  constructor
  · rw [hl.1, hl.2]
    exact h.returns
  · rw [hl.1]
    exact h.limited

/-- Beginning an expression counts no call. -/
theorem level_startEval (m : Machine σ) (e : Expr) : Level m (m.startEval e) := by
  cases e with
  | symbol name line =>
      rw [startEval]
      split <;> exact ⟨rfl, rfl⟩
  | define name value line => cases value <;> exact ⟨rfl, rfl⟩
  | _ => exact ⟨rfl, rfl⟩

/-- Going on with a value counts no call, unless it leaves one. -/
theorem level_resume {m m' : Machine σ} {k : Pending} {v : Value}
    (hk : openCalls [k] = 0) (h : m.resume k v = some m') : Level m m' := by
  cases k with
  | caller env => cases hk
  | list | args => cases h
  | left | right | test | callee | filtered =>
      simp only [resume] at h
      (repeat' split at h) <;> cases h <;> exact ⟨rfl, rfl⟩
  | _ =>
      cases h
      exact ⟨rfl, rfl⟩

/-- A call leaves everything level, or it opens and has room for it. -/
theorem bounded_startCall [Host σ] {limit : Nat} {m : Machine σ} (h : Bounded limit m)
    (f : Callable Value) (args : List Value) (line : Nat) :
    Bounded limit (m.startCall limit f args line) := by
  unfold startCall
  split
  · exact h.level ⟨rfl, rfl⟩
  · split
    · split
      · exact h.level ⟨rfl, rfl⟩
      · next hd =>
          have hr := h.returns
          refine ⟨?_, ?_⟩
          · show ((openCalls m.stack + 1 : Nat) : Int) ≤ m.depth + 1
            omega
          · show m.depth + 1 ≤ limit
            omega
    · split <;> exact h.level ⟨rfl, rfl⟩
    · split <;> exact h.level ⟨rfl, rfl⟩
    · exact h.level ⟨rfl, rfl⟩

/-- Coming back from a call undoes its opening. -/
theorem Bounded.back {limit : Nat} {m m' : Machine σ} {env : Env Value} {ks : List Pending}
    (h : Bounded limit m) (hm : m.stack = .caller env :: ks) (hd : m'.depth = m.depth - 1)
    (hk : m'.stack = ks) : Bounded limit m' := by
  have hr : ((openCalls ks + 1 : Nat) : Int) ≤ m.depth := by
    have hr := h.returns
    rw [hm] at hr
    exact hr
  have hl := h.limited
  constructor
  · rw [hd, hk]
    omega
  · rw [hd]
    omega

/-- One step keeps the counter between zero and the limit. -/
theorem Bounded.step [Host σ] {limit : Nat} {m m' : Machine σ} (h : Bounded limit m)
    (hs : m.step limit = some m') : Bounded limit m' := by
  obtain ⟨store, control, stack, depth, host⟩ := m
  cases control with
  | eval e =>
      cases hs
      exact h.level (level_startEval _ e)
  | call f args line =>
      cases hs
      exact bounded_startCall h f args line
  | evalAll done es =>
      cases es <;> cases hs <;> exact h.level ⟨rfl, rfl⟩
  | mapItems f line done vs =>
      cases vs <;> cases hs <;> exact h.level ⟨rfl, rfl⟩
  | filterItems f line done vs =>
      cases vs <;> cases hs <;> exact h.level ⟨rfl, rfl⟩
  | evalUnit done es =>
      cases es <;> cases hs <;> exact h.level ⟨rfl, rfl⟩
  | evalSteps es =>
      match es with
      | [] =>
          cases hs
          exact h.level ⟨rfl, rfl⟩
      | [e] =>
          cases hs
          exact h.level ⟨rfl, rfl⟩
      | e :: f :: es =>
          cases hs
          exact h.level ⟨rfl, rfl⟩
  | read source =>
      simp only [Machine.step] at hs
      split at hs <;> cases hs <;> exact h.level ⟨rfl, rfl⟩
  | finished r => cases hs
  | value v =>
      cases stack with
      | nil => cases hs
      | cons k ks =>
          have hresume : Machine.resume ⟨store, .value v, ks, depth, host⟩ k v = some m' := hs
          cases k with
          | caller env =>
              cases hs
              exact h.back rfl rfl rfl
          | _ =>
              have hl := level_resume rfl hresume
              exact h.level ⟨hl.1, hl.2⟩
  | values vs =>
      cases stack with
      | nil => cases hs
      | cons k ks =>
          cases k with
          | list | args =>
              cases hs
              exact h.level ⟨rfl, rfl⟩
          | _ => cases hs
  | fail err =>
      cases stack with
      | nil => cases hs
      | cons k ks =>
          cases k with
          | caller env =>
              cases hs
              exact h.back rfl rfl rfl
          | unit checkpoint done rest =>
              cases hs
              exact ⟨Int.le_refl 0, Int.natCast_nonneg limit⟩
          | _ =>
              cases hs
              exact h.level ⟨rfl, rfl⟩

/-- Any number of steps. -/
abbrev Reaches [Host σ] (limit : Nat) : Machine σ → Machine σ → Prop :=
  Relation.ReflTransGen fun m m' => m.step limit = some m'

/-- A whole run keeps the counter between zero and the limit. -/
theorem Bounded.reaches [Host σ] {limit : Nat} {m m' : Machine σ} (h : Bounded limit m)
    (hr : Reaches limit m m') : Bounded limit m' := by
  induction hr with
  | refl => exact h
  | tail _ hs ih => exact ih.step hs

/-! ## Every run comes to rest -/

/-- A machine that reaches a state of rest does not run forever. -/
theorem no_infinite_run [Host σ] {limit : Nat} {m m' : Machine σ} (hr : Reaches limit m m')
    (hrest : m'.step limit = none) :
    ¬ ∃ run : Nat → Machine σ, run 0 = m ∧ ∀ n, (run n).step limit = some (run (n + 1)) := by
  induction hr using Relation.ReflTransGen.head_induction_on with
  | refl =>
      rintro ⟨run, rfl, hrun⟩
      rw [hrun 0] at hrest
      cases hrest
  | head hs _ ih =>
      rintro ⟨run, rfl, hrun⟩
      -- there is only one step to take, so the rest of the run starts where it leads
      have hnext : run 1 = _ := Option.some.inj ((hrun 0).symm.trans hs)
      exact ih ⟨fun n => run (n + 1), hnext, fun n => hrun (n + 1)⟩

end Machine

/-- The control that begins a task, when `done` are the results so far, last
    one first. -/
def Task.control (done : List Value) : {α : Type} → Task α → Control
  | _, .eval e => .eval e
  | _, .evalAll es => .evalAll done es
  | _, .evalSteps es => .evalSteps es
  | _, .call f args n => .call f args n
  | _, .mapItems f n vs => .mapItems f n done vs
  | _, .filterItems f n vs => .filterItems f n done vs

/-- The control after values were collected behind those already `done`. -/
def Control.ofResults (done : List Value) : Except RuntimeError (List Value) → Control
  | .ok vs => .values (done.reverse ++ vs)
  | .error err => .fail err

/-- The control that ends a task. -/
def Task.outcome (done : List Value) : {α : Type} → Task α → Except RuntimeError α → Control
  | _, .eval _, r | _, .evalSteps _, r | _, .call .., r => .ofResult r
  | _, .evalAll _, r | _, .mapItems .., r | _, .filterItems .., r => .ofResults done r

/-- A machine in a state. -/
def State.machine {σ : Type} (S : State σ) (control : Control) (stack : List Pending) :
    Machine σ :=
  { S.toStore with control, stack, depth := S.depth, host := S.host }

namespace Machine

variable {σ : Type} [Host σ] {limit : Nat} {S : State σ} {stack : List Pending}

theorem step_symbol {name : String} {v : Value} (h : S.env.lookup? name = some v) (n : Nat) :
    (S.machine (.eval (.symbol name n)) stack).step limit = some (S.machine (.value v) stack) := by
  simp only [step, State.machine, startEval, h]
  rfl

theorem step_undefinedSymbol {name : String} (h : S.env.lookup? name = none) (n : Nat) :
    (S.machine (.eval (.symbol name n)) stack).step limit
      = some (S.machine (.fail (.undefinedSymbol name n)) stack) := by
  simp only [step, State.machine, startEval, h]
  rfl

/-- The value of a definition comes first, unless it is a function literal, which is
    to know its own name. -/
theorem step_define {name : String} {value : Expr} (h : value.isFunction = false) (n : Nat) :
    (S.machine (.eval (.define name value n)) stack).step limit
      = some (S.machine (.eval value) (.define name :: stack)) := by
  cases value with
  | function params body m => cases h
  | _ => rfl

/-- The frame of a branch goes, however the branch ends. -/
theorem step_branch (r : Except RuntimeError Value) :
    (S.machine (.ofResult r) (.branch :: stack)).step limit
      = some ({ S with env := S.env.pop }.machine (.ofResult r) stack) := by
  cases r <;> rfl

/-- The caller's environment comes back, however the call ends. -/
theorem step_caller (hd : 0 < S.depth) (env : Env Value)
    (r : Except RuntimeError Value) :
    (S.machine (.ofResult r) (.caller env :: stack)).step limit
      = some ({ S with env, depth := S.depth - 1 }.machine (.ofResult r) stack) := by
  have hsub : (S.depth : Int) - 1 = (S.depth - 1 : Nat) := by omega
  cases r with
  | ok v =>
      show some { S.machine (.value v) stack with env, depth := (S.depth : Int) - 1 } = _
      rw [hsub]
      rfl
  | error err =>
      show some { S.machine (.fail err) stack with env, depth := (S.depth : Int) - 1 } = _
      rw [hsub]
      rfl

/-- A unary operator on the value of its operand. -/
theorem step_unary {op : UnaryOp} {operand : Expr} {v : Value} {r : Except RuntimeError Value}
    {n : Nat} (h : op.Gives (Expr.unary op operand n).text n v r) :
    (S.machine (.value v) (.unary op operand n :: stack)).step limit
      = some (S.machine (.ofResult r) stack) := by
  rw [← h.apply_eq]
  rfl

section Binary

variable {op : BinaryOp} {lhs rhs : Expr} {n : Nat}

/-- An operator that is not logical needs both operands. -/
theorem step_left_strict (h : op.isLogical = false) (l : Value) :
    (S.machine (.value l) (.left op lhs rhs n :: stack)).step limit
      = some (S.machine (.eval rhs) (.right op l lhs rhs n :: stack)) :=
  if_neg (Bool.eq_false_iff.mp h)

/-- A binary operator that is not logical, on the values of its operands. -/
theorem step_right_strict (h : op.isLogical = false) {l r : Value}
    {out : Except RuntimeError Value} (hg : op.Gives (Expr.binary op lhs rhs n).text n l r out) :
    (S.machine (.value r) (.right op l lhs rhs n :: stack)).step limit
      = some (S.machine (.ofResult out) stack) := by
  rw [← hg.apply_eq]
  exact if_neg (Bool.eq_false_iff.mp h)

/-- A left operand that settles a logical operator is its value, and the right one
    is dropped. -/
theorem step_left_settled {b : Bool} (h : op.settles b = true) :
    (S.machine (.value (.bool b)) (.left op lhs rhs n :: stack)).step limit
      = some (S.machine (.value (.bool b)) stack) :=
  (if_pos (BinaryOp.isLogical_of_settles h)).trans (if_pos h)

/-- A left operand that does not settle a logical operator leaves it to the right one. -/
theorem step_left_unsettled (h : op.isLogical = true) {b : Bool} (hb : op.settles b = false) :
    (S.machine (.value (.bool b)) (.left op lhs rhs n :: stack)).step limit
      = some (S.machine (.eval rhs) (.right op (.bool b) lhs rhs n :: stack)) :=
  (if_pos h).trans (if_neg (Bool.eq_false_iff.mp hb))

theorem step_right_logical (h : op.isLogical = true) (l : Value) (c : Bool) :
    (S.machine (.value (.bool c)) (.right op l lhs rhs n :: stack)).step limit
      = some (S.machine (.value (.bool c)) stack) :=
  if_pos h

/-- The left operand of a logical operator has to be a truth value. -/
theorem step_left_notBool (h : op.isLogical = true) {l : Value} (hl : l.bool? = none) :
    (S.machine (.value l) (.left op lhs rhs n :: stack)).step limit
      = some (S.machine (.fail (.incompatibleTypes (Expr.binary op lhs rhs n).text n)) stack) := by
  refine (if_pos h).trans ?_
  cases l <;> first | rfl | cases hl

/-- The right operand of a logical operator, if it is needed, has to be a truth value. -/
theorem step_right_notBool (h : op.isLogical = true) (l : Value) {r : Value}
    (hr : r.bool? = none) :
    (S.machine (.value r) (.right op l lhs rhs n :: stack)).step limit
      = some (S.machine (.fail (.incompatibleTypes (Expr.binary op lhs rhs n).text n)) stack) := by
  refine (if_pos h).trans ?_
  cases r <;> first | rfl | cases hr

end Binary

/-- A test has to come to a truth value. -/
theorem step_test_notBool {test : Expr} {yes no : List Expr} {v : Value} (h : v.bool? = none)
    (n : Nat) :
    (S.machine (.value v) (.test test yes no n :: stack)).step limit
      = some (S.machine (.fail (.incompatibleTypes test.text n)) stack) := by
  cases v <;> first | rfl | cases h

section Calls

variable {f : Callable Value} {n : Nat}

/-- The arguments of a call are evaluated once their number is right. -/
theorem step_callee {callee : Expr} {args : List Expr} (h : f.arity = args.length) :
    (S.machine (.value (.function f)) (.callee callee args n :: stack)).step limit
      = some (S.machine (.evalAll [] args) (.args f n :: stack)) :=
  if_neg (not_not_intro h)

/-- A wrong number of arguments is found before any of them is evaluated. -/
theorem step_wrongCount {callee : Expr} {args : List Expr} (h : f.arity ≠ args.length) :
    (S.machine (.value (.function f)) (.callee callee args n :: stack)).step limit
      = some (S.machine (.fail
          (.argumentCount (Expr.call callee args n).text f.arity args.length n)) stack) :=
  if_pos h

/-- Only functions can be called. -/
theorem step_uncallable {callee : Expr} {args : List Expr} {v : Value} (h : v.function? = none) :
    (S.machine (.value v) (.callee callee args n :: stack)).step limit
      = some (S.machine (.fail (.uncallableValue callee.text n)) stack) := by
  cases v <;> first | rfl | cases h

theorem step_countMismatch {args : List Value} (h : f.arity ≠ args.length) :
    (S.machine (.call f args n) stack).step limit
      = some (S.machine (.fail (.argumentCount f.text f.arity args.length n)) stack) :=
  congrArg some (if_pos h)

/-- Entering a closure raises the counter and leaves a note of where to go back. -/
theorem step_enter {c : Closure Value} {args : List Value} (h : c.params.length = args.length)
    (hd : S.depth < limit) :
    (S.machine (.call (.closure c) args n) stack).step limit
      = some ({ S with
          env := c.scope.push.bindAll (c.opening args)
          depth := S.depth + 1 }.machine (.evalSteps c.body) (.caller S.env :: stack)) := by
  have hlt : ¬ (limit : Int) ≤ S.depth := by omega
  rw [← Closure.callEnv_eq]
  exact congrArg some ((if_neg (not_not_intro h)).trans (if_neg hlt))

/-- At the limit no closure is entered. -/
theorem step_overflow {c : Closure Value} {args : List Value} (h : c.params.length = args.length)
    (hd : limit ≤ S.depth) :
    (S.machine (.call (.closure c) args n) stack).step limit
      = some (S.machine (.fail (.stackOverflow limit n)) stack) := by
  have hle : (limit : Int) ≤ S.depth := by omega
  exact congrArg some ((if_neg (not_not_intro h)).trans (if_pos hle))

section Builtins

variable {b : Builtin} {v w : Value}

/-- A builtin that calls nothing back is one step. -/
theorem step_builtin (hb : b.callsBack = false) {args : List Value} (h : b.arity = args.length)
    {S' : State σ} {r : Except RuntimeError Value} (hon : (b.plain args n).on S = (r, S')) :
    (S.machine (.call (.builtin b) args n) stack).step limit
      = some (S'.machine (.ofResult r) stack) := by
  obtain ⟨rfl, rfl⟩ := Prod.mk.inj hon
  refine congrArg some ((if_neg (not_not_intro h)).trans ?_)
  cases b <;> first | rfl | cases hb

/-- Mapping goes through the items with nothing done yet. -/
theorem step_map {items : Items Value} (h : f.arity = 1) :
    (S.machine (.call (.builtin .map) [.function f, .list items] n) stack).step limit
      = some (S.machine (.mapItems f n [] items.toList) (.list :: stack)) :=
  congrArg some (if_pos h)

theorem step_filter {items : Items Value} (h : f.arity = 1) :
    (S.machine (.call (.builtin .filter) [.function f, .list items] n) stack).step limit
      = some (S.machine (.filterItems f n [] items.toList) (.list :: stack)) :=
  congrArg some (if_pos h)

/-- What is called back has to have one parameter. -/
theorem step_notUnary (hb : b.callsBack = true) {items : Items Value} (h : f.arity ≠ 1) :
    (S.machine (.call (.builtin b) [.function f, .list items] n) stack).step limit
      = some (S.machine (.fail (.contractViolation b.name
          ("expected a function of one argument, found " ++ f.text) n)) stack) := by
  cases b with
  | map | filter => exact congrArg some (if_neg h)
  | _ => cases hb

theorem step_notList (hb : b.callsBack = true) (h : v.list? = none) :
    (S.machine (.call (.builtin b) [.function f, v] n) stack).step limit
      = some (S.machine (.fail (.contractViolation b.name
          ("expected a list, found " ++ v.typeName) n)) stack) := by
  cases b with
  | map | filter => cases v <;> first | rfl | cases h
  | _ => cases hb

theorem step_notFunction (hb : b.callsBack = true) (h : v.function? = none) :
    (S.machine (.call (.builtin b) [v, w] n) stack).step limit
      = some (S.machine (.fail (.contractViolation b.name
          ("expected a function, found " ++ v.typeName) n)) stack) := by
  cases b with
  | map | filter => cases v <;> first | rfl | cases h
  | _ => cases hb

end Builtins

/-- What a function is filtered by has to come to a truth value. -/
theorem step_filtered_notBool {item : Value} {done rest : List Value} {v : Value}
    (h : v.bool? = none) :
    (S.machine (.value v) (.filtered f n item done rest :: stack)).step limit
      = some (S.machine (.fail (.contractViolation Builtin.filter.name
          ("expected a boolean from the predicate, found " ++ v.typeName) n)) stack) := by
  cases v <;> first | rfl | cases h

end Calls

end Machine

/-- A builtin whose result follows from its argument calls nothing back. -/
theorem Builtin.Gives.callsBack_eq {b : Builtin} {v : Value} {n : Nat}
    {r : Except RuntimeError Value} (h : b.Gives n v r) : b.callsBack = false := by
  have hb := h.arity_eq
  cases b <;> first | rfl | cases hb

theorem Control.ofResults_nil (done : List Value) :
    Control.ofResults done (.ok []) = .values done.reverse := by
  rw [Control.ofResults, List.append_nil]

/-- Values done before stand in front of those that follow. -/
theorem Control.ofResults_cons (v : Value) (done vs : List Value) :
    Control.ofResults (v :: done) (.ok vs) = Control.ofResults done (.ok (v :: vs)) := by
  simp [Control.ofResults]

open Machine in
/-- What the rules derive for a task, the machine does, whatever is still to be
    done afterwards. -/
theorem Yields.reaches {σ α : Type} [Host σ] {limit : Nat} {t : Task α} {S S' : State σ}
    {r : Except RuntimeError α} (h : Yields limit t S r S') :
    ∀ (done : List Value) (stack : List Pending),
      Reaches limit (S.machine (t.control done) stack) (S'.machine (t.outcome done r) stack) := by
  induction h with intro done stack
  | literal => exact .single rfl
  | symbol hv => exact .single (step_symbol hv _)
  | undefinedSymbol hv => exact .single (step_undefinedSymbol hv _)
  | function => exact .single rfl
  | list _ ih => exact .head rfl ((ih [] (.list :: stack)).tail rfl)
  | listFails _ ih => exact .head rfl ((ih [] (.list :: stack)).tail rfl)
  | defineFunction => exact .single rfl
  | define hf _ ih => exact .head (step_define hf _) ((ih [] _).tail rfl)
  | defineFails hf _ ih => exact .head (step_define hf _) ((ih [] _).tail rfl)
  | group _ ih => exact .head rfl (ih [] stack)
  | unary _ hg ih => exact .head rfl ((ih [] _).tail (step_unary hg))
  | unaryFails _ ih => exact .head rfl ((ih [] (.unary .. :: stack)).tail rfl)
  | binary hop _ _ hg ihl ihr =>
      exact .head rfl ((ihl [] _).trans (.head (step_left_strict hop _)
        ((ihr [] _).tail (step_right_strict hop hg))))
  | leftFails _ ih => exact .head rfl ((ih [] (.left .. :: stack)).tail rfl)
  | rightFails hop _ _ ihl ihr =>
      exact .head rfl ((ihl [] _).trans (.head (step_left_strict hop _) ((ihr [] _).tail rfl)))
  | settled hb _ ih => exact .head rfl ((ih [] _).tail (step_left_settled hb))
  | unsettled hop hb _ _ ihl ihr =>
      exact .head rfl ((ihl [] _).trans (.head (step_left_unsettled hop hb)
        ((ihr [] _).tail (step_right_logical hop _ _))))
  | unsettledFails hop hb _ _ ihl ihr =>
      exact .head rfl ((ihl [] _).trans (.head (step_left_unsettled hop hb)
        ((ihr [] _).tail rfl)))
  | leftNotBool hop _ hl ih => exact .head rfl ((ih [] _).tail (step_left_notBool hop hl))
  | rightNotBool hop hb _ _ hr ihl ihr =>
      exact .head rfl ((ihl [] _).trans (.head (step_left_unsettled hop hb)
        ((ihr [] _).tail (step_right_notBool hop _ hr))))
  | choice _ _ iht ihb =>
      exact .head rfl ((iht [] _).trans (.head rfl ((ihb [] _).tail (step_branch _))))
  | testNotBool _ hv ih => exact .head rfl ((ih [] _).tail (step_test_notBool hv _))
  | testFails _ ih => exact .head rfl ((ih [] (.test .. :: stack)).tail rfl)
  | call _ hcount _ _ ihf iha ihc =>
      exact .head rfl ((ihf [] _).trans (.head (step_callee hcount)
        ((iha [] _).trans (.head rfl (ihc [] stack)))))
  | argsFail _ hcount _ ihf iha =>
      exact .head rfl ((ihf [] _).trans (.head (step_callee hcount) ((iha [] _).tail rfl)))
  | wrongCount _ hcount ih => exact .head rfl ((ih [] _).tail (step_wrongCount hcount))
  | uncallable _ hv ih => exact .head rfl ((ih [] _).tail (step_uncallable hv))
  | calleeFails _ ih => exact .head rfl ((ih [] (.callee .. :: stack)).tail rfl)
  | noItems | mapNone | filterNone =>
      refine .single ?_
      rw [Task.outcome, Control.ofResults_nil]
      rfl
  | items _ _ ih ihs | mapNext _ _ ih ihs =>
      rw [Task.outcome, ← Control.ofResults_cons]
      exact .head rfl ((ih [] _).trans (.head rfl (ihs (_ :: done) stack)))
  | itemFails _ ih => exact .head rfl ((ih [] (.item .. :: stack)).tail rfl)
  | itemsFail _ _ ih ihs | mapRestFails _ _ ih ihs =>
      exact .head rfl ((ih [] _).trans (.head rfl (ihs (_ :: done) stack)))
  | noSteps => exact .single rfl
  | lastStep _ ih => exact .head rfl (ih [] stack)
  | steps _ _ ihe ihs => exact .head rfl ((ihe [] _).trans (.head rfl (ihs [] stack)))
  | stepFails _ ih => exact .head rfl ((ih [] (.steps _ :: stack)).tail rfl)
  | countMismatch hcount => exact .single (step_countMismatch hcount)
  | enter hcount hd hbody ih =>
      -- the body leaves the counter where entering put it, so lowering it stays above zero
      have hpos := Nat.lt_of_lt_of_eq (Nat.succ_pos _) hbody.depth_eq.symm
      exact .head (step_enter hcount hd) ((ih [] _).tail (step_caller hpos _ _))
  | overflow hcount hd => exact .single (step_overflow hcount hd)
  | print => exact .single (step_builtin rfl rfl rfl)
  | println => exact .single (step_builtin rfl rfl rfl)
  | input hr =>
      refine .single (step_builtin (r := .ok _) rfl rfl ?_)
      exact Eval.on_bind_ok (Eval.on_ask hr)
  | epoch hr => exact .single (step_builtin rfl rfl (Builtin.on_epoch hr _))
  | epochTooEarly hr hneg =>
      exact .single (step_builtin rfl rfl (Builtin.on_epoch_tooEarly hr hneg _))
  | random hr =>
      refine .single (step_builtin (r := .ok _) rfl rfl ?_)
      exact Eval.on_bind_ok (Eval.on_randomNumber hr)
  | @builtin S b v r n hg =>
      have hon : (b.plain [v] n).on S = (r, S) := by
        rw [hg.plain_eq]
        rfl
      refine .single (step_builtin hg.callsBack_eq ?_ hon)
      exact hg.arity_eq
  | map hf _ ih => exact .head (step_map hf) ((ih [] _).tail rfl)
  | mapFails hf _ ih => exact .head (step_map hf) ((ih [] _).tail rfl)
  | filter hf _ ih => exact .head (step_filter hf) ((ih [] _).tail rfl)
  | filterFails hf _ ih => exact .head (step_filter hf) ((ih [] _).tail rfl)
  | notUnary hb hf => exact .single (step_notUnary hb hf)
  | notList hb hv => exact .single (step_notList hb hv)
  | notFunction hb hv => exact .single (step_notFunction hb hv)
  | mapItemFails _ ih => exact .head rfl ((ih [] (.mapped .. :: stack)).tail rfl)
  | @filterNext _ _ _ _ v _ _ keep _ _ _ ihc ihs =>
      cases keep with
      | true =>
          rw [if_pos rfl, Task.outcome, ← Control.ofResults_cons]
          exact .head rfl ((ihc [] _).trans (.head rfl (ihs (v :: done) stack)))
      | false => exact .head rfl ((ihc [] _).trans (.head rfl (ihs done stack)))
  | filterItemFails _ ih => exact .head rfl ((ih [] (.filtered .. :: stack)).tail rfl)
  | @filterRestFails _ _ _ _ v _ keep _ _ _ _ ihc ihs =>
      exact .head rfl ((ihc [] _).trans
        (.head rfl (ihs (if keep then v :: done else done) stack)))
  | filterNotBool _ hw ih => exact .head rfl ((ih [] _).tail (step_filtered_notBool hw))

/-! ## Sessions -/

/-- A run from `m` comes to rest at `m'`; there is no endless one, and all along
    the counter is between zero and the limit. -/
structure Machine.Finishes {σ : Type} [Host σ] (limit : Nat) (m m' : Machine σ) : Prop where
  reaches : Reaches limit m m'
  rests : m'.step limit = none
  ends : ¬ ∃ run : Nat → Machine σ, run 0 = m ∧ ∀ n, (run n).step limit = some (run (n + 1))
  counted : ∀ between, Reaches limit m between → 0 ≤ between.depth ∧ between.depth ≤ limit

/-- A bounded run that comes to rest is all that is asked for. -/
theorem Machine.Bounded.finishes {σ : Type} [Host σ] {limit : Nat} {m m' : Machine σ}
    (hb : Bounded limit m) (hr : Reaches limit m m') (hrest : m'.step limit = none) :
    Finishes limit m m' := by
  refine ⟨hr, hrest, no_infinite_run hr hrest, ?_⟩
  intro between hbetween
  have hb' := hb.reaches hbetween
  exact ⟨Int.le_trans (Int.natCast_nonneg _) hb'.returns, hb'.limited⟩

namespace Session

variable {σ : Type}

/-- A machine that begins or ends in a session. -/
def machine (s : Session) (host : σ) (control : Control) : Machine σ :=
  (s.state host).machine control []

/-- A session with no more open calls than its limit is within the bounds. -/
theorem bounded_machine {s : Session} (h : s.depth ≤ s.settings.maxDepth) (host : σ)
    (control : Control) : (s.machine host control).Bounded s.settings.maxDepth :=
  ⟨Int.natCast_nonneg s.depth, Int.ofNat_le.mpr h⟩

variable [Host σ]

/-- What a session does for a task, the machine does, whatever is still to be
    done afterwards. -/
theorem reaches_perform {s s' : Session} {host host' : σ} (t : Task Value)
    {r : Except RuntimeError Value}
    (h : (s.perform (t.step s.enter)).run host = ((r, s'), host')) (stack : List Pending) :
    Machine.Reaches s.settings.maxDepth ((s.state host).machine (t.control []) stack)
      ((s'.state host').machine (t.outcome [] r) stack) := by
  rw [run_perform] at h
  obtain ⟨hrs, rfl⟩ := Prod.mk.inj h
  obtain ⟨rfl, rfl⟩ := Prod.mk.inj hrs
  have hy : Yields s.settings.maxDepth t (s.state host) _ _ := Task.yields_iff.mpr rfl
  exact hy.reaches [] stack

theorem settings_eq_of_perform {α : Type} {s s' : Session} {host host' : σ} {x : Eval α}
    {r : Except RuntimeError α} (h : (s.perform x).run host = ((r, s'), host')) :
    s'.settings = s.settings := by
  rw [run_perform] at h
  obtain ⟨hrs, -⟩ := Prod.mk.inj h
  obtain ⟨-, rfl⟩ := Prod.mk.inj hrs
  rfl

/-- What a session does for the expressions of a unit, the machine does. -/
theorem reaches_evalProgram {limit : Nat} {s s' : Session} (hl : s.settings.maxDepth = limit)
    {host host' : σ} {done : List Value} {es : Program} {r : Except RuntimeError (List Value)}
    (h : (s.evalProgram done es).run host = ((r, s'), host')) :
    Machine.Reaches limit (s.machine host (.evalUnit done es))
      (s'.machine host' (.finished (r.mapError .runtime))) := by
  induction es generalizing s host done with
  | nil =>
      cases h
      exact .single rfl
  | cons e es ih =>
      rcases he : (s.eval e).run host with ⟨⟨re, s₁⟩, host₁⟩
      have hfirst := reaches_perform (.eval e) he [.unit s.env done es]
      rw [hl] at hfirst
      cases re with
      | ok v =>
          rw [run_evalProgram_ok he] at h
          exact .head rfl (hfirst.trans (.head rfl (ih (settings_eq_of_perform he ▸ hl) h)))
      | error err =>
          rw [run_evalProgram_error he] at h
          cases h
          exact .head rfl (hfirst.tail rfl)

/-- A unit that can be read is evaluated from its first expression on. -/
theorem step_read {limit : Nat} {s : Session} {host : σ} {source : String} {program : Program}
    (h : Program.read source = .ok program) :
    (s.machine host (.read source)).step limit = some (s.machine host (.evalUnit [] program)) := by
  simp only [machine, State.machine, Machine.step, h]
  rfl

/-- A unit that cannot be read is over, and nothing of it is evaluated. -/
theorem step_unreadable {limit : Nat} {s : Session} {host : σ} {source : String} {e : SyntaxError}
    (h : Program.read source = .error e) :
    (s.machine host (.read source)).step limit
      = some (s.machine host (.finished (.error (.static e)))) := by
  simp only [machine, State.machine, Machine.step, h]
  rfl

/-- What a session does for a unit, the machine does. -/
theorem reaches_interpret {s s' : Session} {host host' : σ} {source : String}
    {r : Except Error (List Value)}
    (h : (s.interpret source).run host = ((r, s'), host')) :
    Machine.Reaches s.settings.maxDepth (s.machine host (.read source))
      (s'.machine host' (.finished r)) := by
  cases hread : Program.read source with
  | error e =>
      rw [run_interpret_unreadable hread] at h
      cases h
      exact .single (step_unreadable hread)
  | ok program =>
      rcases hp : (s.evalProgram [] program).run host with ⟨⟨rp, sp⟩, hostp⟩
      rw [run_interpret_readable hread hp] at h
      cases h
      exact .head (step_read hread) (reaches_evalProgram rfl hp)

/-- With nothing pending, a value or an error is the end. -/
theorem rests_ofResult {limit : Nat} (s : Session) (host : σ) (r : Except RuntimeError Value) :
    (s.machine host (.ofResult r)).step limit = none := by
  cases r <;> rfl

/-- **Every evaluation ends.**  In a session with no more open calls than its
    limit, the machine that evaluates an expression, makes a call or reads and
    evaluates a source unit comes to rest, with the value or the error, the
    session and the host that the session gives; it cannot run forever, and its
    counter of open calls never leaves the range from zero to the limit. -/
theorem evaluation_finishes (s : Session) (host : σ) (h : s.depth ≤ s.settings.maxDepth) :
    (∀ e : Expr,
      let out := (s.eval e).run host
      Machine.Finishes s.settings.maxDepth (s.machine host (.eval e))
        (out.1.2.machine out.2 (.ofResult out.1.1))) ∧
    (∀ (f : Callable Value) (args : List Value) (line : Nat),
      let out := (s.call f args line).run host
      Machine.Finishes s.settings.maxDepth (s.machine host (.call f args line))
        (out.1.2.machine out.2 (.ofResult out.1.1))) ∧
    (∀ source : String,
      let out := (s.interpret source).run host
      Machine.Finishes s.settings.maxDepth (s.machine host (.read source))
        (out.1.2.machine out.2 (.finished out.1.1))) := by
  refine ⟨?_, ?_, ?_⟩
  · intro e out
    have hr := reaches_perform (.eval e) (rfl : (s.eval e).run host = out) []
    exact (bounded_machine h host _).finishes hr (rests_ofResult _ _ _)
  · intro f args line out
    have hr := reaches_perform (.call f args line) (rfl : (s.call f args line).run host = out) []
    exact (bounded_machine h host _).finishes hr (rests_ofResult _ _ _)
  · intro source out
    have hr := reaches_interpret (rfl : (s.interpret source).run host = out)
    exact (bounded_machine h host _).finishes hr rfl

/-- A function that applies its argument to itself, applied to itself. -/
theorem evaluation_finishes_self_application :
    let s := Session.new { maxDepth := 2 } fun _ => .always 0
    let f : Callable Value :=
      .closure ⟨0, ["f"], [.call (.symbol "f" 1) [.symbol "f" 1] 1], s.env, none⟩
    s.depth ≤ s.settings.maxDepth ∧
      Machine.Finishes 2 (s.machine ({} : Buffer) (.call f [.function f] 1))
        (s.machine {} (.fail (.stackOverflow 2 1))) := by
  intro s f
  have h : s.depth ≤ s.settings.maxDepth := by decide
  exact ⟨h, (evaluation_finishes s ({} : Buffer) h).2.1 f [.function f] 1⟩

/-! ## Scopes -/

/-- Every call that was counted in is counted out: the machine comes to the outcome
    with its counter where it began, and so does the session. -/
structure CountedOut (s : Session) (host : σ) (control : Control)
    (out : (Except RuntimeError Value × Session) × σ) : Prop where
  depth : out.1.2.depth = s.depth
  reaches : Machine.Reaches s.settings.maxDepth (s.machine host control)
    { out.1.2.machine out.2 (.ofResult out.1.1) with depth := s.depth }

/-- The rules leave the counter where it was, and the machine follows them. -/
theorem countedOut_perform (s : Session) (host : σ) (t : Task Value) {control : Control}
    {out : (Except RuntimeError Value × Session) × σ}
    (hrun : (s.perform (t.step s.enter)).run host = out) (hcontrol : t.control [] = control)
    (hresult : t.outcome [] out.1.1 = .ofResult out.1.1) : s.CountedOut host control out := by
  have hreaches := reaches_perform t hrun []
  have hdepth : out.1.2.depth = s.depth := by
    rw [← hrun, run_perform]
  refine ⟨hdepth, ?_⟩
  rw [← hdepth, ← hcontrol, ← hresult]
  exact hreaches

theorem countedOut_eval (s : Session) (host : σ) (e : Expr) :
    s.CountedOut host (.eval e) ((s.eval e).run host) :=
  s.countedOut_perform host (.eval e) rfl rfl rfl

theorem countedOut_call (s : Session) (host : σ) (f : Callable Value) (args : List Value)
    (line : Nat) : s.CountedOut host (.call f args line) ((s.call f args line).run host) :=
  s.countedOut_perform host (.call f args line) rfl rfl rfl

/-- **Scopes are kept.**  However the evaluation of an expression ends, the
    environment has as many frames as before, over the same builtins; every
    frame but the innermost is as before; the innermost one loses no symbol,
    and a symbol that is new or changed there is one that the expression
    defines outside of functions and branches.  However a call ends, the whole
    environment is as before.  In either case every call that was counted in is
    counted out. -/
theorem scopes_kept (s : Session) (host : σ) :
    (∀ e : Expr,
      let out := (s.eval e).run host
      let after := out.1.2
      after.env.depth = s.env.depth ∧ after.env.builtins = s.env.builtins
        ∧ after.env.outer = s.env.outer
        ∧ (∀ name, (s.env.innermost.get? name).isSome = true →
            (after.env.innermost.get? name).isSome = true)
        ∧ (∀ name, after.env.innermost.get? name ≠ s.env.innermost.get? name →
            name ∈ e.targets)
        ∧ s.CountedOut host (.eval e) out) ∧
    (∀ (f : Callable Value) (args : List Value) (line : Nat),
      let out := (s.call f args line).run host
      out.1.2.env = s.env ∧ s.CountedOut host (.call f args line) out) := by
  constructor
  · intro e out after
    have h := Expr.binds_eval s.detached_enter e σ s.store host
    have hafter : after.env = ((e.eval s.enter s.store).result host).1.2.env :=
      congrArg (·.1.2.env) (s.run_perform (e.eval s.enter) host)
    rw [hafter]
    refine ⟨?_, h.builtins, h.outer, h.kept, ?_, s.countedOut_eval host e⟩
    · exact congrArg (fun outer => outer.length + 1) h.outer
    · intro name hne
      exact Decidable.byContradiction fun hn => hne (h.others name hn)
  · intro f args line out
    exact ⟨s.env_call host f args line, s.countedOut_call host f args line⟩

/-- A branch that fails after a definition, in a list that has defined another symbol
    before it, and a function that fails in the same way. -/
theorem scopes_kept_failure :
    let body : List Expr := [.define "b" (.literal .nil 1) 1, .symbol "c" 1]
    let branch : Expr := .choice (.literal (.bool true) 1) body [.literal .nil 1] 1
    let e : Expr := .list [.define "a" (.literal .nil 1) 1, branch] 1
    let f : Callable Value := .closure ⟨0, [], body, .ofBuiltins builtinFrame, none⟩
    let s := Session.new { maxDepth := 1 } fun _ => .always 0
    let evaluated := (s.eval e).run ({} : Buffer)
    let called := (s.call f [] 1).run ({} : Buffer)
    evaluated.1.1 = .error (.undefinedSymbol "c" 1)
      ∧ evaluated.1.2.env.depth = s.env.depth
      ∧ evaluated.1.2.env.innermost.get? "a" ≠ s.env.innermost.get? "a" ∧ "a" ∈ e.targets
      ∧ evaluated.1.2.env.innermost.get? "b" = s.env.innermost.get? "b"
      ∧ s.CountedOut {} (.eval e) evaluated
      ∧ called.1.1 = .error (.undefinedSymbol "c" 1)
      ∧ called.1.2.env = s.env ∧ s.CountedOut {} (.call f [] 1) called := by
  intro body branch e f s evaluated called
  obtain ⟨hevals, hcalls⟩ := scopes_kept s ({} : Buffer)
  obtain ⟨hdepth, -, -, -, htargets, hcounted⟩ := hevals e
  have hne : evaluated.1.2.env.innermost.get? "a" ≠ s.env.innermost.get? "a" := nofun
  have hsame : evaluated.1.2.env.innermost.get? "b" = s.env.innermost.get? "b" :=
    Classical.byContradiction fun h => absurd (htargets "b" h) (by decide)
  obtain ⟨henv, hcounted'⟩ := hcalls f [] 1
  exact ⟨rfl, hdepth, hne, htargets "a" hne, hsame, hcounted, rfl, henv, hcounted'⟩

end Session

end Scriptlet
