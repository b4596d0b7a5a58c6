import Scriptlet.Buffer
import Scriptlet.Proofs.Scope

/-! # Source units are atomic, expression by expression

    A unit that cannot be read does nothing.  Of a unit that can be read, the
    expressions before the first failing one are evaluated in order and stay;
    the failing one is undone in the environment, though not on the host, and
    nothing behind it is evaluated.  Over a whole session, the environment is
    therefore what the evaluations that succeeded have made of it. -/

namespace Scriptlet

/-- A nested dialogue is run first, on the same host. -/
theorem Dialogue.run_nest {σ α β : Type} [Host σ] (inner : Unit → Dialogue β)
    (next : β → Dialogue α) (host : σ) :
    (nest inner next).run host
      = (next ((inner ()).run host).1).run ((inner ()).run host).2 := by
  rw [run_eq_result, run_eq_result, run_eq_result, result]

namespace Session

variable {σ : Type} [Host σ] {s s₁ s' : Session} {host host₁ host' : σ} {e : Expr}
  {before after es : Program} {v : Value} {vs done : List Value} {err : RuntimeError}

/-! ## One unit -/

/-- Evaluated in order from a session and a host, all expressions succeed, with
    these values, and this is the session and the host afterwards. -/
inductive Succeeds : Session → σ → Program → List Value → Session → σ → Prop where
  | done {s : Session} {host : σ} : Succeeds s host [] [] s host
  | next {s s₁ s' : Session} {host host₁ host' : σ} {e : Expr} {es : Program} {v : Value}
      {vs : List Value} :
      (s.eval e).run host = ((.ok v, s₁), host₁) → Succeeds s₁ host₁ es vs s' host' →
      Succeeds s host (e :: es) (v :: vs) s' host'

/-- An expression that comes to a value leaves it to the rest to go on. -/
theorem run_evalProgram_ok (h : (s.eval e).run host = ((.ok v, s₁), host₁)) :
    (s.evalProgram done (e :: es)).run host = (s₁.evalProgram (v :: done) es).run host₁ := by
  rw [evalProgram, Dialogue.run_nest, h]

/-- An expression that fails is undone and ends the program. -/
theorem run_evalProgram_error (h : (s.eval e).run host = ((.error err, s₁), host₁)) :
    (s.evalProgram done (e :: es)).run host
      = ((.error err, { s₁.withEnv s.env with depth := 0 }), host₁) := by
  rw [evalProgram, Dialogue.run_nest, h]
  rfl

/-- Expressions that succeed only bring the evaluation to those behind them. -/
theorem Succeeds.run_evalProgram (h : Succeeds s host before vs s' host') :
    (s.evalProgram done (before ++ after)).run host
      = (s'.evalProgram (vs.reverse ++ done) after).run host' := by
  induction h generalizing done with
  | done => rfl
  | next he _ ih =>
      rw [List.cons_append, run_evalProgram_ok he, ih, List.reverse_cons, List.append_assoc]
      rfl

/-- When every expression succeeds, the program comes to their values. -/
theorem Succeeds.run_all (h : Succeeds s host es vs s' host') :
    (s.evalProgram [] es).run host = ((.ok vs, s'), host') := by
  have hrun : (s.evalProgram [] (es ++ [])).run host
      = (s'.evalProgram (vs.reverse ++ []) []).run host' := h.run_evalProgram
  rw [List.append_nil, List.append_nil] at hrun
  rw [hrun, evalProgram, List.reverse_reverse]
  rfl

/-- What cannot be read is not evaluated at all. -/
theorem run_interpret_unreadable {source : String} {e : SyntaxError}
    (h : Program.read source = .error e) :
    (s.interpret source).run host = ((.error (.static e), s), host) := by
  rw [interpret, h]
  rfl

/-- What can be read comes to what its program comes to. -/
theorem run_interpret_readable {source : String} (hread : Program.read source = .ok es)
    {r : Except RuntimeError (List Value)}
    (h : (s.evalProgram [] es).run host = ((r, s'), host')) :
    (s.interpret source).run host = ((r.mapError .runtime, s'), host') := by
  rw [interpret, hread]
  dsimp only
  rw [Dialogue.run_nest, h]
  cases r <;> rfl

/-- Either all expressions succeed, or there is a first one that fails. -/
theorem succeeds_or_fails (s : Session) (host : σ) (es : Program) :
    (∃ vs s' host', Succeeds s host es vs s' host') ∨
      ∃ before e after vs s₁ host₁ err s₂ host₂, es = before ++ e :: after
        ∧ Succeeds s host before vs s₁ host₁
        ∧ (s₁.eval e).run host₁ = ((Except.error err, s₂), host₂) := by
  induction es generalizing s host with
  | nil => exact .inl ⟨_, _, _, .done⟩
  | cons e es ih =>
      rcases h : (s.eval e).run host with ⟨⟨r, s₁⟩, host₁⟩
      cases r with
      | error err => exact .inr ⟨[], e, es, _, _, _, _, _, _, rfl, .done, h⟩
      | ok v =>
          rcases ih s₁ host₁ with
            ⟨vs, s', host', hs⟩ | ⟨before, f, after, vs, s₂, host₂, err, s₃, host₃, rfl, hs, hf⟩
          · exact .inl ⟨_, _, _, .next h hs⟩
          · exact .inr ⟨e :: before, f, after, _, _, _, _, _, _, rfl, .next h hs, hf⟩

/-! ## Any number of units -/

/-- An evaluation that was begun: an expression, with the session and the host
    that it met. -/
structure Attempt (σ : Type) where
  session : Session
  host : σ
  expr : Expr

/-- What the attempt came to. -/
def Attempt.outcome (a : Attempt σ) : (Except RuntimeError Value × Session) × σ :=
  (a.session.eval a.expr).run a.host

def Attempt.succeeds (a : Attempt σ) : Bool :=
  a.outcome.1.1.isOk

/-- What the attempt makes of an environment. -/
def Attempt.change (a : Attempt σ) (env : Env Value) : Env Value :=
  { a with session := a.session.withEnv env }.outcome.1.2.env

/-- The attempts of a program: up to the first one that fails. -/
def attempts (s : Session) (host : σ) : Program → List (Attempt σ)
  | [] => []
  | e :: es =>
    ⟨s, host, e⟩ :: match (s.eval e).run host with
      | ((.ok _, next), host) => next.attempts host es
      | ((.error _, _), _) => []

/-- A source unit that a host hands over, to be told of errors or not. -/
inductive Submission where
  | interpret (source : String)
  | run (source : String)

def Submission.source : Submission → String
  | .interpret source | .run source => source

/-- The session and the host after a source unit. -/
def submit (s : Session) (host : σ) : Submission → Session × σ
  | .interpret source => (((s.interpret source).run host).1.2, ((s.interpret source).run host).2)
  | .run source => (((s.run source).run host).1.2, ((s.run source).run host).2)

/-- The session and the host after source units, one after the other. -/
def submitAll (s : Session) (host : σ) : List Submission → Session × σ
  | [] => (s, host)
  | u :: us => (s.submit host u).1.submitAll (s.submit host u).2 us

/-- The attempts of a source unit; one that cannot be read attempts nothing. -/
def unitAttempts (s : Session) (host : σ) (source : String) : List (Attempt σ) :=
  match Program.read source with
  | .ok program => s.attempts host program
  | .error _ => []

/-- The attempts of source units, one after the other. -/
def history (s : Session) (host : σ) : List Submission → List (Attempt σ)
  | [] => []
  | u :: us =>
    s.unitAttempts host u.source ++ (s.submit host u).1.history (s.submit host u).2 us

/-- Composes what attempts make of an environment. -/
def Attempt.compose (as : List (Attempt σ)) (env : Env Value) : Env Value :=
  as.foldl (fun env a => a.change env) env

theorem attempts_ok (h : (s.eval e).run host = ((.ok v, s₁), host₁)) :
    s.attempts host (e :: es) = ⟨s, host, e⟩ :: s₁.attempts host₁ es := by
  rw [attempts, h]

theorem attempts_error (h : (s.eval e).run host = ((.error err, s₁), host₁)) :
    s.attempts host (e :: es) = [⟨s, host, e⟩] := by
  rw [attempts, h]

/-- After the expressions of a program, the environment is what the successful
    attempts have made of it. -/
theorem env_evalProgram (s : Session) (host : σ) (done : List Value) (es : Program) :
    ((s.evalProgram done es).run host).1.2.env
      = Attempt.compose ((s.attempts host es).filter Attempt.succeeds) s.env := by
  induction es generalizing s host done with
  | nil => rfl
  | cons e es ih =>
      rcases h : (s.eval e).run host with ⟨⟨r, s₁⟩, host₁⟩
      cases r with
      | ok v =>
          have hok : Attempt.succeeds ⟨s, host, e⟩ = true := by
            rw [Attempt.succeeds, Attempt.outcome, h]
            rfl
          have hchange : Attempt.change ⟨s, host, e⟩ s.env = s₁.env := by
            show ((s.eval e).run host).1.2.env = _
            rw [h]
          rw [run_evalProgram_ok h, attempts_ok h, List.filter_cons_of_pos hok, ih, Attempt.compose,
            Attempt.compose, List.foldl_cons, hchange]
      | error err =>
          have hfail : ¬ Attempt.succeeds ⟨s, host, e⟩ = true := by
            rw [Attempt.succeeds, Attempt.outcome, h]
            exact nofun
          rw [run_evalProgram_error h, attempts_error h, List.filter_cons_of_neg hfail]
          rfl

/-- A unit changes the environment by its successful attempts, in order. -/
theorem env_interpret (s : Session) (host : σ) (source : String) :
    ((s.interpret source).run host).1.2.env
      = Attempt.compose ((s.unitAttempts host source).filter Attempt.succeeds) s.env := by
  cases hread : Program.read source with
  | error e =>
      rw [run_interpret_unreadable hread, unitAttempts, hread]
      rfl
  | ok program =>
      have henv := env_evalProgram s host [] program
      rcases h : (s.evalProgram [] program).run host with ⟨⟨r, s'⟩, host'⟩
      rw [h] at henv
      rw [run_interpret_readable hread h, unitAttempts, hread]
      exact henv

/-- A report to the host leaves the session alone. -/
theorem session_run (s : Session) (host : σ) (source : String) :
    ((s.run source).run host).1.2 = ((s.interpret source).run host).1.2 := by
  rw [run, Dialogue.run_nest]
  rcases (s.interpret source).run host with ⟨⟨r, s'⟩, host'⟩
  cases r <;> rfl

/-- A unit that is submitted changes the environment by its successful attempts; a
    report does not touch it. -/
theorem env_submit (s : Session) (host : σ) (u : Submission) :
    (s.submit host u).1.env
      = Attempt.compose ((s.unitAttempts host u.source).filter Attempt.succeeds) s.env := by
  cases u with
  | interpret source => exact s.env_interpret host source
  | run source =>
      rw [submit, session_run]
      exact s.env_interpret host source

/-- After any number of units, the environment is what the successful attempts
    have made of it. -/
theorem env_submitAll (s : Session) (host : σ) (us : List Submission) :
    (s.submitAll host us).1.env
      = Attempt.compose ((s.history host us).filter Attempt.succeeds) s.env := by
  induction us generalizing s host with
  | nil => rfl
  | cons u us ih =>
      rw [submitAll, history, ih, env_submit, List.filter_append, Attempt.compose,
        Attempt.compose, Attempt.compose, List.foldl_append]

theorem read_error {source : String} {e : SyntaxError}
    (h : Token.scan source = .error e ∨
      ∃ tokens, Token.scan source = .ok tokens ∧ Program.ofTokens tokens = .error e) :
    Program.read source = .error e := by
  rcases h with h | ⟨tokens, h, hp⟩
  · simp only [Program.read, h]
  · simp only [Program.read, h, hp]

/-- **Source units are atomic, expression by expression.**  A unit that cannot
    be scanned or parsed gives that error and changes neither the session nor
    the host.  In a unit that can, either all expressions succeed: then their
    values are given, and session and host are as they have left them.  Or
    there is a first one that fails: then its error is given, whatever stands
    behind it; the environment is as it was before it, no call is open, and all
    else, on the host too, is as it has left it.  So after any number of units
    the environment is the composition of the evaluations that succeeded, in
    their order. -/
theorem units_atomic (s : Session) (host : σ) :
    (∀ source e,
      (Token.scan source = .error e ∨
        ∃ tokens, Token.scan source = .ok tokens ∧ Program.ofTokens tokens = .error e) →
      (s.interpret source).run host = ((.error (.static e), s), host)) ∧
    (∀ source program, Program.read source = .ok program →
      (∀ vs s' host', Succeeds s host program vs s' host' →
        (s.interpret source).run host = ((.ok vs, s'), host')) ∧
      (∀ before e after vs s₁ host₁ err s₂ host₂, program = before ++ e :: after →
        Succeeds s host before vs s₁ host₁ →
        (s₁.eval e).run host₁ = ((.error err, s₂), host₂) →
        (s.interpret source).run host
          = ((.error (.runtime err), { s₂.withEnv s₁.env with depth := 0 }), host₂)) ∧
      ((∃ vs s' host', Succeeds s host program vs s' host') ∨
        ∃ before e after vs s₁ host₁ err s₂ host₂, program = before ++ e :: after
          ∧ Succeeds s host before vs s₁ host₁
          ∧ (s₁.eval e).run host₁ = ((Except.error err, s₂), host₂))) ∧
    (∀ us, (s.submitAll host us).1.env
      = Attempt.compose ((s.history host us).filter Attempt.succeeds) s.env) := by
  refine ⟨?_, ?_, s.env_submitAll host⟩
  · intro source e h
    exact run_interpret_unreadable (read_error h)
  · intro source program hread
    refine ⟨?_, ?_, s.succeeds_or_fails host program⟩
    · intro vs s' host' hs
      exact run_interpret_readable hread hs.run_all
    · rintro before e after vs s₁ host₁ err s₂ host₂ rfl hs he
      exact run_interpret_readable hread (hs.run_evalProgram.trans (run_evalProgram_error he))

/-- A definition that stays, and behind it a list whose first item defines and
    whose second one fails. -/
theorem units_atomic_failing_list :
    let s := Session.new {} fun _ => .always 0
    let first : Expr := .define "a" (.literal .nil 1) 1
    let second : Expr := .list [.define "b" (.literal .nil 2) 2, .symbol "c" 2] 2
    let out := (s.interpret "a = nil\n[b = nil, c]\nd").run ({} : Buffer)
    Program.read "a = nil\n[b = nil, c]\nd" = .ok [first, second, .symbol "d" 3] ∧
      out.1.1 = .error (.runtime (.undefinedSymbol "c" 2)) ∧
      out.1.2.env.lookup? "a" = some .nil ∧ out.1.2.env.lookup? "b" = none := by
  intro s first second out
  have hread : Program.read "a = nil\n[b = nil, c]\nd"
      = .ok [first, second, .symbol "d" 3] := rfl
  have hout : out = _ := ((units_atomic s ({} : Buffer)).2.1 _ _ hread).2.1
    [first] second [.symbol "d" 3] _ _ _ _ _ _ rfl (.next rfl .done) rfl
  rw [hout]
  exact ⟨hread, rfl, rfl, rfl⟩

end Session

end Scriptlet
