import Scriptlet.Proofs.Hosting

/-! # What an error quotes

    An error during evaluation shows a text: the name of a symbol, an expression
    written out, a function, or the name of a builtin.  Only an overflow shows
    none.

    The expression is code that the run deals with, however long ago it came in.
    What waits for a value keeps the expression that it will quote if the value
    does not fit (`Pending.quoted`); so a trait of code is one of the quoted
    expressions too, after one step (`Machine.Quotes.step`) and after a whole run
    (`Machine.Quotes.reaches`). -/

namespace Scriptlet

/-- The text of the error is that of code of some kind, of a function or of a
    builtin; an overflow has none, and tells the limit. -/
inductive RuntimeError.Quotes (code : Expr → Prop) (limit : Nat) : RuntimeError → Prop where
  | undefinedSymbol {name : String} {n : Nat} : code (.symbol name n) →
      Quotes code limit (.undefinedSymbol name n)
  | uncallableValue {e : Expr} {n : Nat} : code e → Quotes code limit (.uncallableValue e.text n)
  | incompatibleTypes {e : Expr} {n : Nat} : code e →
      Quotes code limit (.incompatibleTypes e.text n)
  | divisionByZero {e : Expr} {n : Nat} : code e → Quotes code limit (.divisionByZero e.text n)
  | argumentCount {e : Expr} {expected found n : Nat} : code e →
      Quotes code limit (.argumentCount e.text expected found n)
  | calledBack (f : Callable Value) {expected found n : Nat} :
      Quotes code limit (.argumentCount f.text expected found n)
  | contractViolation (b : Builtin) {details : String} {n : Nat} :
      Quotes code limit (.contractViolation b.name details n)
  | stackOverflow {n : Nat} : Quotes code limit (.stackOverflow limit n)

/-- A result that is no error, or an error that quotes such code. -/
def RuntimeError.QuotesIn {α : Type} (code : Expr → Prop) (limit : Nat) :
    Except RuntimeError α → Prop
  | .ok _ => True
  | .error err => err.Quotes code limit

/-! ## Operators and builtins -/

section Results

variable {code : Expr → Prop} {limit n : Nat} {e : Expr}

open RuntimeError

/-- An error of a unary operator quotes its expression. -/
theorem UnaryOp.quotes_apply (op : UnaryOp) (v : Value) (he : code e) :
    QuotesIn code limit (op.apply v e n) := by
  have hg := op.gives_apply v e n
  generalize op.apply v e n = r at hg
  cases hg with
  | negate | not => trivial
  | notNumber | notBool => exact .incompatibleTypes he

/-- An error of a binary operator quotes its expression. -/
theorem BinaryOp.quotes_apply (op : BinaryOp) (l r : Value) (he : code e) :
    QuotesIn code limit (op.apply l r e n) := by
  have hg := op.gives_apply l r e n
  generalize op.apply l r e n = out at hg
  cases hg with
  | divideByZero => exact .divisionByZero he
  | mismatch => exact .incompatibleTypes he
  | _ => trivial

end Results

/-- A step that, whatever the host answers, fails only because the rules of a builtin
    are broken on a line. -/
def Eval.OnlyViolates {α : Type} (b : Builtin) (n : Nat) (x : Eval α) : Prop :=
  ∀ (σ : Type) [Host σ] (s : Store) (host : σ) (err : RuntimeError),
    ((x s).result host).1.1 = .error err → ∃ details, err = .contractViolation b.name details n

namespace Eval

variable {α β : Type} {b : Builtin} {n : Nat}

theorem onlyViolates_pure (a : α) : OnlyViolates b n (pure a) := by
  intro σ _ s host err h
  cases h

/-- The host always answers. -/
theorem onlyViolates_ask (q : Request α) : OnlyViolates b n (ask q) := by
  intro σ _ s host err h
  cases h

theorem onlyViolates_randomNumber : OnlyViolates b n randomNumber := by
  intro σ _ s host err h
  cases h

/-- A complaint of the builtin itself. -/
theorem onlyViolates_violation (details : String) :
    OnlyViolates b n (b.violation details n : Eval α) := by
  intro σ _ s host err h
  exact ⟨details, (Except.error.inj h).symm⟩

/-- One step after another, each of which fails in this way only. -/
theorem OnlyViolates.bind {x : Eval α} {f : α → Eval β} (hx : OnlyViolates b n x)
    (hf : ∀ a, OnlyViolates b n (f a)) : OnlyViolates b n (x >>= f) := by
  intro σ _ s host err h
  have hfirst := hx σ s host
  rw [Eval.result_bind] at h
  generalize (x s).result host = out at h hfirst
  obtain ⟨⟨r, s'⟩, host'⟩ := out
  cases r with
  | ok a => exact hf a σ s' host' err h
  | error e =>
      obtain rfl : e = err := Except.error.inj h
      exact hfirst e rfl

end Eval

namespace Builtin

open Eval

theorem onlyViolates_printAll {b : Builtin} {n : Nat} (vs : List Value) :
    OnlyViolates b n (printAll vs) := by
  induction vs with
  | nil => exact onlyViolates_pure ()
  | cons v vs ih => exact (onlyViolates_ask _).bind fun _ => ih

/-- **A builtin that calls nothing back fails only with a complaint of its own**, about
    its arguments or about the clock. -/
theorem onlyViolates_plain (b : Builtin) (args : List Value) (n : Nat) :
    OnlyViolates b n (b.plain args n) := by
  have hreal : ∀ f, OnlyViolates b n (b.real f args n) := by
    intro f
    unfold real
    split
    · exact onlyViolates_pure _
    · exact onlyViolates_violation _
    · exact onlyViolates_violation _
  have hitems : ∀ part?, OnlyViolates b n (b.ofItems part? args n) := by
    intro part?
    unfold ofItems
    split
    · split
      · exact onlyViolates_violation _
      · split
        · exact onlyViolates_pure _
        · exact onlyViolates_violation _
    · exact onlyViolates_violation _
    · exact onlyViolates_violation _
  cases b with
  | print => exact (onlyViolates_printAll args).bind fun _ => onlyViolates_pure _
  | println =>
      refine (onlyViolates_printAll args).bind fun _ => ?_
      exact (onlyViolates_ask _).bind fun _ => onlyViolates_pure _
  | input => exact (onlyViolates_ask _).bind fun _ => onlyViolates_pure _
  | epoch =>
      refine (onlyViolates_ask _).bind fun milliseconds => ?_
      split
      · exact onlyViolates_violation _
      · exact onlyViolates_pure _
  | random => exact onlyViolates_randomNumber.bind fun _ => onlyViolates_pure _
  | exp | sin | cos => exact hreal _
  | first | rest => exact hitems _
  | toString | parseNumber | length | iota | map | filter =>
      simp only [plain]
      split
      all_goals first | exact onlyViolates_pure _ | exact onlyViolates_violation _

end Builtin

/-! ## One step -/

/-- The error that a control has come to. -/
def Control.failure? : Control → Option RuntimeError
  | .fail err | .finished (.error (.runtime err)) => some err
  | _ => none

/-- The expressions that are quoted if the value that is waited for does not
    fit. -/
def Pending.quoted : Pending → List Expr
  | .unary op operand line => [.unary op operand line]
  | .left op lhs rhs line | .right op _ lhs rhs line => [.binary op lhs rhs line]
  | .test cond .. => [cond]
  | .callee f es line => [f, .call f es line]
  | _ => []

namespace Machine

/-- What a machine will quote, or has quoted, is code of a kind. -/
structure Quotes {σ : Type} (code : Expr → Prop) (limit : Nat) (m : Machine σ) : Prop where
  failure : ∀ err ∈ m.control.failure?, err.Quotes code limit
  stack : ∀ k ∈ m.stack, ∀ e ∈ k.quoted, code e

variable {σ : Type} {code : Expr → Prop} {limit : Nat} {m m' : Machine σ}

open RuntimeError (QuotesIn)

theorem Quotes.goto {control : Control} (h : m.Quotes code limit) (hc : control.failure? = none) :
    (m.goto control).Quotes code limit := by
  refine ⟨?_, h.stack⟩
  show ∀ err ∈ control.failure?, _
  rw [hc]
  exact fun _ herr => nomatch herr

/-- What is put on the stack quotes code that the machine holds. -/
theorem Quotes.defer {control : Control} {k : Pending} (h : m.Quotes code limit)
    (hc : control.failure? = none) (hk : ∀ e ∈ k.quoted, code e) :
    (m.defer control k).Quotes code limit :=
  ⟨(h.goto hc).failure, List.forall_mem_cons.mpr ⟨hk, h.stack⟩⟩

theorem Quotes.fail {err : RuntimeError} (h : m.Quotes code limit)
    (herr : err.Quotes code limit) : (m.goto (.fail err)).Quotes code limit := by
  refine ⟨?_, h.stack⟩
  rintro err' ⟨⟩
  exact herr

theorem Quotes.ofResult {r : Except RuntimeError Value} (h : m.Quotes code limit)
    (hr : QuotesIn code limit r) : (m.goto (.ofResult r)).Quotes code limit := by
  cases r with
  | ok v => exact h.goto rfl
  | error err => exact h.fail hr

/-- Beginning to evaluate an expression, whose parts are such code as well. -/
theorem Quotes.startEval {e : Expr} (h : m.Quotes code limit) (he : code e)
    (hpart : ∀ p ∈ e.parts, code p) : (m.startEval e).Quotes code limit := by
  cases e with
  | literal value n => exact h.goto rfl
  | group inner n => exact h.goto rfl
  | function params body n => exact ⟨(h.goto rfl).failure, h.stack⟩
  | list items n => exact h.defer rfl (List.forall_mem_nil _)
  | symbol name n =>
      rw [Machine.startEval]
      split
      · exact h.goto rfl
      · exact h.fail (.undefinedSymbol he)
  | unary op operand n => exact h.defer rfl (List.forall_mem_singleton.mpr he)
  | binary op lhs rhs n => exact h.defer rfl (List.forall_mem_singleton.mpr he)
  | choice test yes no n =>
      have htest : code test := hpart test List.mem_cons_self
      exact h.defer rfl (List.forall_mem_singleton.mpr htest)
  | call callee args n =>
      have hcallee : code callee := hpart callee List.mem_cons_self
      exact h.defer rfl (List.forall_mem_cons.mpr ⟨hcallee, List.forall_mem_singleton.mpr he⟩)
  | define name value n =>
      cases value with
      | function => exact ⟨(h.goto rfl).failure, h.stack⟩
      | _ => exact h.defer rfl (List.forall_mem_nil _)

/-- Handing a value to what waits for it. -/
theorem Quotes.resume {k : Pending} {v : Value} (h : m.Quotes code limit)
    (hk : ∀ e ∈ k.quoted, code e) (hs : m.resume k v = some m') : m'.Quotes code limit := by
  cases k with
  | list | args => cases hs
  | item | steps | mapped | unit =>
      cases hs
      exact h.goto rfl
  | define | branch | caller =>
      cases hs
      exact ⟨(h.goto rfl).failure, h.stack⟩
  | unary op operand n =>
      cases hs
      exact h.ofResult (op.quotes_apply v (List.forall_mem_singleton.mp hk))
  | left op lhs rhs n =>
      simp only [Machine.resume] at hs
      split at hs
      · split at hs
        · split at hs
          · cases hs
            exact h.goto rfl
          · cases hs
            exact h.defer rfl hk
        · cases hs
          exact h.fail (.incompatibleTypes (List.forall_mem_singleton.mp hk))
      · cases hs
        exact h.defer rfl hk
  | right op l lhs rhs n =>
      have he := List.forall_mem_singleton.mp hk
      simp only [Machine.resume] at hs
      split at hs
      · split at hs
        · cases hs
          exact h.goto rfl
        · cases hs
          exact h.fail (.incompatibleTypes he)
      · cases hs
        exact h.ofResult (op.quotes_apply l v he)
  | test test yes no n =>
      simp only [Machine.resume] at hs
      split at hs
      · cases hs
        exact ⟨(h.goto rfl).failure, List.forall_mem_cons.mpr ⟨List.forall_mem_nil _, h.stack⟩⟩
      · cases hs
        exact h.fail (.incompatibleTypes (List.forall_mem_singleton.mp hk))
  | callee callee args n =>
      obtain ⟨hcallee, hcall⟩ := List.forall_mem_cons.mp hk
      simp only [Machine.resume] at hs
      split at hs
      · split at hs
        · cases hs
          exact h.fail (.argumentCount (List.forall_mem_singleton.mp hcall))
        · cases hs
          exact h.defer rfl (List.forall_mem_nil _)
      · cases hs
        exact h.fail (.uncallableValue hcallee)
  | filtered f n item done rest =>
      simp only [Machine.resume] at hs
      split at hs
      · cases hs
        exact h.goto rfl
      · cases hs
        exact h.fail (.contractViolation .filter)

/-- Handing an error to what waits. -/
theorem Quotes.unwind {k : Pending} {err : RuntimeError} (h : m.Quotes code limit)
    (herr : err.Quotes code limit) : (m.unwind k err).Quotes code limit := by
  have hfail := h.fail herr
  cases k with
  | unit checkpoint done rest => exact ⟨hfail.failure, List.forall_mem_nil _⟩
  | _ => exact ⟨hfail.failure, h.stack⟩

variable [Host σ]

theorem Quotes.perform {x : Eval Value} (h : m.Quotes code limit)
    (hx : QuotesIn code limit ((x m.toStore).result m.host).1.1) :
    (m.perform x).Quotes code limit :=
  ⟨(h.ofResult hx).failure, h.stack⟩

/-- Beginning a call. -/
theorem Quotes.startCall {f : Callable Value} {args : List Value} {n : Nat}
    (h : m.Quotes code limit) : (m.startCall limit f args n).Quotes code limit := by
  have hviolation : ∀ (b : Builtin) details,
      (m.perform (b.violation details n)).Quotes code limit :=
    fun b _ => h.perform (.contractViolation b)
  unfold Machine.startCall
  split
  · exact h.fail (.calledBack f)
  · split
    · split
      · exact h.fail .stackOverflow
      · exact ⟨(h.goto rfl).failure, List.forall_mem_cons.mpr ⟨List.forall_mem_nil _, h.stack⟩⟩
    · split
      · exact h.defer rfl (List.forall_mem_nil _)
      · exact hviolation _ _
    · split
      · exact h.defer rfl (List.forall_mem_nil _)
      · exact hviolation _ _
    · next b _ _ _ =>
        refine h.perform ?_
        have hviolates := b.onlyViolates_plain args n σ m.toStore m.host
        generalize ((b.plain args n m.toStore).result m.host).1.1 = r at hviolates ⊢
        cases r with
        | ok v => trivial
        | error err =>
            obtain ⟨details, rfl⟩ := hviolates err rfl
            exact .contractViolation b

/-- **One step quotes what the machine holds.** -/
theorem Quotes.step {T : Trait} (h : m.Quotes T.code limit) (hkeeps : m.Keeps T)
    (hs : m.step limit = some m') : m'.Quotes T.code limit := by
  obtain ⟨store, control, stack, depth, host⟩ := m
  cases control with
  | eval e =>
      cases hs
      have he : T.code e := List.forall_mem_singleton.mp hkeeps.control.code
      exact h.startEval he fun p hp => T.part he hp
  | call f args n =>
      cases hs
      exact h.startCall
  | evalAll done es | mapItems _ _ done es | filterItems _ _ done es | evalUnit done es =>
      cases es with
      | nil =>
          cases hs
          exact h.goto rfl
      | cons =>
          cases hs
          exact h.defer rfl (List.forall_mem_nil _)
  | evalSteps es =>
      match es with
      | [] | [_] =>
          cases hs
          exact h.goto rfl
      | _ :: _ :: _ =>
          cases hs
          exact h.defer rfl (List.forall_mem_nil _)
  | value v =>
      cases stack with
      | nil => cases hs
      | cons k ks =>
          obtain ⟨hk, hks⟩ := List.forall_mem_cons.mp h.stack
          have hrest : Quotes T.code limit (⟨store, .value v, ks, depth, host⟩ : Machine σ) :=
            ⟨h.failure, hks⟩
          exact hrest.resume hk hs
  | values vs =>
      cases stack with
      | nil => cases hs
      | cons k ks =>
          obtain ⟨-, hks⟩ := List.forall_mem_cons.mp h.stack
          have hrest : Quotes T.code limit (⟨store, .values vs, ks, depth, host⟩ : Machine σ) :=
            ⟨h.failure, hks⟩
          cases k <;> cases hs <;> exact hrest.goto rfl
  | fail err =>
      cases stack with
      | nil => cases hs
      | cons k ks =>
          cases hs
          obtain ⟨-, hks⟩ := List.forall_mem_cons.mp h.stack
          have hrest : Quotes T.code limit (⟨store, .fail err, ks, depth, host⟩ : Machine σ) :=
            ⟨h.failure, hks⟩
          exact hrest.unwind (h.failure err rfl)
  | read source =>
      simp only [Machine.step] at hs
      split at hs <;> cases hs <;> exact h.goto rfl
  | finished r => cases hs

/-- Whole runs quote what the machine holds on the way. -/
theorem Quotes.reaches {T : Trait} (hT : T.Closes) (h : m.Quotes T.code limit)
    (hkeeps : m.Keeps T) (hr : Reaches limit m m') : m'.Quotes T.code limit := by
  induction hr with
  | refl => exact h
  | tail hr hs ih => exact ih.step (hkeeps.reaches hT hr) hs

end Machine

/-! ## Sessions -/

/-- An error in a source unit quotes code of the session, or code of the unit. -/
theorem Desk.Keeps.quotes {σ : Type} [Host σ] {T : Trait} {d : Desk σ} {source : String}
    {err : RuntimeError} {s' : Session} {host' : σ} (h : d.Keeps T) (hT : T.Closes)
    (hb : (Act.run source).Brings T)
    (hout : (d.session.interpret source).run d.host = ((.error (.runtime err), s'), host')) :
    err.Quotes T.code d.session.settings.maxDepth := by
  have hbegin : (d.session.machine d.host (.read source)).Keeps T :=
    Keeps.begin (a := .run source) h trivial hb rfl
  have hquotes : (d.session.machine d.host (.read source)).Quotes T.code
      d.session.settings.maxDepth :=
    ⟨fun _ herr => (nomatch herr), List.forall_mem_nil _⟩
  exact (hquotes.reaches hT hbegin (Session.reaches_interpret hout)).failure err rfl

end Scriptlet
