import Scriptlet.Proofs.TwoRuns

/-! # A higher limit changes nothing but overflows

    The number of calls that may be open at once is looked at in one place,
    where a closure is entered, and an overflow there ends the whole evaluation:
    nothing in the language catches an error.  So a run that ends without one
    takes the same course under every higher limit.

    In terms of a likeness: the two runs have everything in common, and an
    overflow of the first one is excused. -/

namespace Scriptlet

/-- Values with the same closures in them are the same. -/
theorem Value.Like.eq {v w : Value} (h : Value.Like Eq v w) : v = w := by
  induction h using Value.Like.induction with
  | list vs ws size _ ih =>
      have hall : List.Forall₂ Eq vs ws := ih.imp fun _ _ h => h.2
      rw [List.forall₂_eq_eq_eq] at hall
      rw [hall]
  | closure c d h => rw [h]
  | _ => rfl

/-- Everything is the same, up to an overflow of the first run. -/
def Likeness.untilOverflow : Likeness where
  View := Unit
  line := Eq
  text := Eq
  excused e := e.kind = .stackOverflow
  closure := Eq
  env _ := Eq
  expr _ := Eq
  text_refl _ := rfl
  text_expr h := congrArg Expr.text h
  layer := by
    rintro _ e _ rfl
    exact .self fun _ _ => rfl
  lookup := by
    rintro _ env _ name _ _ _ rfl
    cases env.lookup? name with
    | none => exact .none
    | some v => exact .some (.refl (fun _ _ => rfl) v)
  push h := congrArg Env.push h
  bind := by
    rintro _ env _ v w rfl hv name
    rw [hv.eq]
  head := by
    rintro c _ rfl
    exact ⟨rfl, rfl, rfl⟩
  body := by
    rintro c _ rfl
    exact ⟨(), rfl, List.forall₂_same.mpr fun _ _ => rfl⟩
  close := by
    rintro _ env _ params body _ m n rfl h identity selfName?
    cases h
    rfl

namespace Session

variable {σ α : Type}

/-- The session under another limit. -/
def withLimit (s : Session) (limit : Nat) : Session :=
  { s with settings := { s.settings with maxDepth := limit } }

/-- The same session under two limits. -/
theorem sessions_withLimit (s : Session) (limit limit' : Nat) :
    Likeness.untilOverflow.Sessions () limit limit' (s.withLimit limit) (s.withLimit limit') :=
  ⟨⟨rfl, rfl, rfl⟩, rfl, rfl, rfl, rfl⟩

theorem eq_withLimit {limit limit' : Nat} {s t : Session}
    (h : Likeness.untilOverflow.Sessions () limit limit' s t) : t = s.withLimit limit' := by
  obtain ⟨⟨limit₁, seed₁⟩, ⟨env₁, random₁, identity₁⟩, depth₁⟩ := s
  obtain ⟨⟨limit₂, seed₂⟩, ⟨env₂, random₂, identity₂⟩, depth₂⟩ := t
  obtain ⟨⟨henv, hrandom, hidentity⟩, hdepth, hseed, -, hright⟩ := h
  dsimp only at henv hrandom hidentity hdepth hseed hright
  subst henv hrandom hidentity hdepth hseed hright
  rfl

/-- Without an overflow, alike outcomes are the same, but for the limit of the
    session. -/
theorem outcome_eq {value : α → α → Prop} (hvalue : ∀ a b, value a b → a = b)
    {limit limit' : Nat} {out out' : (Except RuntimeError α × Session) × σ}
    (h : Likeness.untilOverflow.Outcome (Likeness.untilOverflow.Sessions () limit limit') value
      out out')
    (hover : ∀ depth line, out.1.1 ≠ .error (.stackOverflow depth line)) :
    out' = ((out.1.1, out.1.2.withLimit limit'), out.2) := by
  cases h with
  | @excused e s host _ he =>
      cases e with
      | stackOverflow depth line => exact absurd rfl (hover depth line)
      | _ => cases he
  | alike hr hst =>
      rw [eq_withLimit hst]
      cases hr with
      | ok hab => rw [hvalue _ _ hab]
      | error he => rw [he.eq]

/-- **A higher limit changes nothing but overflows.**  When the evaluation of an
    expression under a limit ends in any other way than with a stack overflow,
    then under a higher limit it ends in the same way, and leaves the same
    session, but for its limit, and the same host.  The same holds for a source
    unit. -/
theorem higher_limit_agrees [Host σ] (s : Session) (host : σ) {limit limit' : Nat}
    (hle : limit ≤ limit') :
    (∀ e : Expr,
      let out := ((s.withLimit limit).eval e).run host
      (∀ depth line, out.1.1 ≠ .error (.stackOverflow depth line)) →
      ((s.withLimit limit').eval e).run host = ((out.1.1, out.1.2.withLimit limit'), out.2)) ∧
    (∀ source : String,
      let out := ((s.withLimit limit).interpret source).run host
      (∀ depth line, out.1.1 ≠ .error (.runtime (.stackOverflow depth line))) →
      ((s.withLimit limit').interpret source).run host
        = ((out.1.1, out.1.2.withLimit limit'), out.2)) := by
  have hsessions := s.sessions_withLimit limit limit'
  have hlimits : Likeness.untilOverflow.Limits limit limit' := Or.inr ⟨hle, fun _ => rfl⟩
  constructor
  · intro e out hover
    exact outcome_eq (fun _ _ h => h.eq) (hsessions.eval_alike hlimits rfl host) hover
  · intro source
    cases hread : Program.read source with
    | error e =>
        rw [run_interpret_unreadable hread, run_interpret_unreadable hread]
        exact fun _ => rfl
    | ok program =>
        have hprogram := hsessions.evalProgram_alike hlimits
          (List.forall₂_same.mpr fun (e : Expr) (_ : e ∈ program) => rfl) .nil host
        have heq := outcome_eq (fun vs ws h => ?_) hprogram
        · rcases hleft : ((s.withLimit limit).evalProgram [] program).run host
            with ⟨⟨r, s'⟩, host'⟩
          rw [hleft] at heq
          rw [run_interpret_readable hread hleft]
          intro out hover
          have hright := heq fun depth line hr =>
            hover depth line (congrArg (Except.mapError Error.runtime) hr)
          exact run_interpret_readable hread hright
        · rw [← List.forall₂_eq_eq_eq]
          exact h.imp fun _ _ hv => hv.eq

/-- One call open at once is enough for a call within an argument. -/
theorem higher_limit_nested_call :
    let s := Session.new {} fun _ => .always 0
    let identity : Expr := .function ["x"] [.symbol "x" 1] 1
    let e : Expr := .call identity [.call identity [.literal .nil 1] 1] 1
    let out := ((s.withLimit 1).eval e).run ({} : Buffer)
    1 ≤ 2 ∧ (∀ depth line, out.1.1 ≠ .error (.stackOverflow depth line)) ∧
      ((s.withLimit 2).eval e).run ({} : Buffer) = ((out.1.1, out.1.2.withLimit 2), out.2) := by
  intro s identity e out
  have hover : ∀ depth line, out.1.1 ≠ .error (.stackOverflow depth line) := by
    intro depth line h
    cases h
  exact ⟨by decide, hover, (higher_limit_agrees s ({} : Buffer) (by decide)).1 e hover⟩

end Session

end Scriptlet
