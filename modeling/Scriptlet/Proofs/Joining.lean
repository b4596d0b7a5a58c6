import Scriptlet.Proofs.Bodies
import Scriptlet.Proofs.LineBreaks
import Scriptlet.Proofs.PrintRead

/-! # One unit or two

    A source text can be given to a session in one piece or, cut at a line
    break, in two.  The tokens are the same but for their lines, and so is the
    program, unless the second piece begins with a minus or a parenthesis: then
    it goes on with the last expression of the first.  The expressions are
    evaluated in the same order, an expression that fails is undone alone, and
    no line has an influence on evaluation; so both ways come to the same, but
    for the lines in errors and in the bodies of functions. -/

namespace Scriptlet

/-! ## Programs -/

theorem TokenKind.joins_of_ne {k : TokenKind} (h : k ≠ .mark .minus ∧ k ≠ .mark .leftParen) :
    k.joins = false := by
  unfold TokenKind.joins
  split
  · exact absurd rfl h.1
  · exact absurd rfl h.2
  · rfl

/-- Two canonical programs make one, unless the second begins with a token that
    goes on with the first. -/
theorem Program.Canonical.append {p q : Program} (hp : p.Canonical) (hq : q.Canonical)
    (h : p = [] ∨ ∀ e ∈ q.head?, e.joins = false) : Program.Canonical (p ++ q) := by
  refine ⟨?_, ?_⟩
  · rw [Expr.canonicalAll_iff]
    intro e he
    rcases List.mem_append.mp he with he | he
    · exact Expr.canonicalAll_iff.mp hp.1 e he
    · exact Expr.canonicalAll_iff.mp hq.1 e he
  · cases p with
    | nil => exact hq.2
    | cons f p =>
        have hhead : ∀ e ∈ q.head?, e.joins = false := h.resolve_left (List.cons_ne_nil f p)
        intro e he
        rcases List.mem_append.mp he with he | he
        · exact hp.2 e he
        · cases q with
          | nil => cases he
          | cons g q =>
              rcases List.mem_cons.mp he with rfl | he
              · exact hhead e rfl
              · exact hq.2 e he

theorem Program.slots_append (p q : Program) : Program.slots (p ++ q) = p.slots ++ q.slots := by
  simp only [Program.slots, Reader.slotsSteps_eq_flatMap, List.flatMap_append]

/-- Without tokens there is no expression. -/
theorem eq_nil_of_spells_nil {p : Program} (h : Spells [] p.slots) : p = [] := by
  cases p with
  | nil => rfl
  | cons e p =>
      obtain ⟨t, us, hts, -⟩ := Reader.spells_opens h
      cases hts

/-- The first expression begins with the first token. -/
theorem joins_head_of_spells {p : Program} {ts : List Token} (h : Spells ts p.slots)
    (hts : ∀ t ∈ ts.head?, t.kind.joins = false) : ∀ e ∈ p.head?, e.joins = false := by
  intro e he
  cases p with
  | nil => cases he
  | cons f p =>
      obtain rfl : f = e := Option.some.inj he
      obtain ⟨t, us, rfl, -, hjoins⟩ := Reader.spells_opens h
      rw [hjoins]
      exact hts t rfl

section Pieces

variable {source more : String} {tokens ms : List Token} {p q : Program}

/-- **The program of two pieces** is that of the first, followed by that of the
    second on later lines. -/
theorem read_join (hscan : Token.scan source = .ok tokens) (hp : Program.ofTokens tokens = .ok p)
    (hscan' : Token.scan more = .ok ms) (hq : Program.ofTokens ms = .ok q)
    (hcut : (∀ t ∈ tokens, t.isEnd = true) ∨ ∀ t ∈ ms.head?, t.kind.joins = false) :
    Program.read (source ++ "\n" ++ more)
      = .ok (p ++ q.map (Expr.mapLine (· + (1 + source.toList.count '\n')))) := by
  obtain ⟨ts, last, rfl, -, hts, hcanonical, hspells⟩ := spells_of_scan hscan hp
  obtain ⟨us, last', rfl, hlast', hus, hcanonical', hspells'⟩ := spells_of_scan hscan' hq
  obtain ⟨-, hjoined⟩ := Token.scan_join hscan more
  generalize 1 + source.toList.count '\n' = k at hjoined ⊢
  have hcanonical₂ := hcanonical'.mapLine (· + k)
  have hspells₂ := spells_mapLine hspells' (· + k)
  -- an expression of the second program may join the first one only if there is nothing to join
  have hstart : p = [] ∨ ∀ e ∈ (q.map (Expr.mapLine (· + k))).head?, e.joins = false := by
    rcases hcut with hnone | hfirst
    · have hts : ts = [] := by
        refine List.eq_nil_iff_forall_not_mem.mpr fun t ht => ?_
        have hend := hnone t (List.mem_append_left _ ht)
        rw [(hts t ht).isEnd_eq_false] at hend
        cases hend
      exact Or.inl (eq_nil_of_spells_nil (hts ▸ hspells))
    · rw [← Program.slots_mapLine] at hspells₂
      refine Or.inr (joins_head_of_spells hspells₂ ?_)
      cases us with
      | nil => exact nofun
      | cons u us =>
          rintro _ ⟨rfl⟩
          exact hfirst u rfl
  rw [Program.read, hjoined, hscan']
  dsimp only
  rw [List.map_append, ← List.append_assoc]
  refine Reader.run_canonical (hcanonical.append hcanonical₂ hstart) ?_ ?_ hlast'
  · rw [Program.slots_append, Program.slots_mapLine]
    exact spells_append.mpr ⟨_, _, rfl, hspells, hspells₂⟩
  · intro t ht
    rcases List.mem_append.mp ht with ht | ht
    · exact (hts t ht).isEnd_eq_false
    · obtain ⟨u, hu, rfl⟩ := List.mem_map.mp ht
      exact (hus u hu).isEnd_eq_false

end Pieces

namespace Session

variable {σ : Type} [Host σ]

/-! ## Sessions -/

/-- A program is evaluated part by part. -/
theorem run_evalProgram_append (s : Session) (host : σ) (done : List Value) (p q : Program) :
    (s.evalProgram done (p ++ q)).run host = match (s.evalProgram done p).run host with
      | ((.ok vs, s'), host') => (s'.evalProgram vs.reverse q).run host'
      | ((.error e, s'), host') => ((.error e, s'), host') := by
  induction p generalizing s host done with
  | nil =>
      show _ = (s.evalProgram done.reverse.reverse q).run host
      rw [List.reverse_reverse, List.nil_append]
  | cons e p ih =>
      rcases h : (s.eval e).run host with ⟨⟨r, s'⟩, host'⟩
      cases r with
      | ok v => rw [List.cons_append, run_evalProgram_ok h, run_evalProgram_ok h, ih]
      | error err => rw [List.cons_append, run_evalProgram_error h, run_evalProgram_error h]

/-- The values so far only stand in front of those to come. -/
theorem run_evalProgram_done (s : Session) (host : σ) (done : List Value) (p : Program) :
    (s.evalProgram done p).run host
      = (let out := (s.evalProgram [] p).run host
        ((out.1.1.map (done.reverse ++ ·), out.1.2), out.2)) := by
  induction p generalizing s host done with
  | nil =>
      show ((Except.ok done.reverse, s), host) = ((.ok (done.reverse ++ []), s), host)
      rw [List.append_nil]
  | cons e p ih =>
      rcases h : (s.eval e).run host with ⟨⟨r, s'⟩, host'⟩
      cases r with
      | ok v =>
          rw [run_evalProgram_ok h, run_evalProgram_ok h, ih, ih s' host' [v]]
          rcases (s'.evalProgram [] p).run host' with ⟨⟨r, s''⟩, host''⟩
          cases r with
          | ok vs => simp [Except.map]
          | error err => rfl
      | error err =>
          rw [run_evalProgram_error h, run_evalProgram_error h]
          rfl

/-- The outcome of a source unit whose first part came to `vs`, and the outcome
    of its second part alone: the same values behind `vs`, or the same error, and
    the same session, each but for lines; and the same host. -/
structure Continues (vs : List Value)
    (rest whole : (Except Error (List Value) × Session) × σ) : Prop where
  result : ExceptLike (fun e f => e.mapLine (fun _ => 0) = f.mapLine fun _ => 0)
    (fun ws all => ∃ ws', all = vs ++ ws' ∧ List.Forall₂ Value.Relined ws ws')
    rest.1.1 whole.1.1
  session : Session.SameBut Expr.Relined rest.1.2 whole.1.2
  host : rest.2 = whole.2

variable {s s' t' : Session} {host host' host'' : σ}

/-- Behind expressions that succeeded, a program on other lines comes to what it
    comes to alone. -/
theorem continues_relined {vs : List Value} {p q : Program}
    (hpq : List.Forall₂ Expr.Relined p q) {r r' : Except RuntimeError (List Value)}
    (hp : (s.evalProgram [] p).run host = ((r, s'), host'))
    (hq : (s.evalProgram vs.reverse q).run host = ((r', t'), host'')) :
    Continues vs ((r.mapError .runtime, s'), host') ((r'.mapError .runtime, t'), host'') := by
  have hsame : Session.SameBut Expr.Relined s s :=
    ⟨rfl, Env.sameBut_self Expr.Relined.refl s.env, rfl, rfl, rfl⟩
  obtain ⟨hr, hst, hhost⟩ := CodeLikeness.lines.run_evalProgram hsame hpq host
  rw [run_evalProgram_done, List.reverse_reverse] at hq
  rcases hq₂ : (s.evalProgram [] q).run host with ⟨⟨r₂, t₂⟩, host₂⟩
  rw [hq₂] at hq
  rw [hp, hq₂] at hr hst hhost
  cases hq
  refine ⟨?_, hst, hhost⟩
  cases hr with
  | ok hvs => exact .ok ⟨_, rfl, hvs⟩
  | error he => exact .error (congrArg Error.runtime (he.mapLine_eq 0))

/-- **One unit or two.**  Let two source texts be read on their own, and let the
    first have no tokens or the second not begin with a minus or a parenthesis.
    Then the text with a line break between the two is read as both programs, the
    second on later lines.  In every session, it fails as the first one does; and
    when the first one succeeds, it comes to what the second one comes to after
    it, the values of the first in front, but for lines in errors and in the
    bodies of functions. -/
theorem interpret_join {source more : String} {tokens ms : List Token} {p q : Program}
    (hscan : Token.scan source = .ok tokens) (hp : Program.ofTokens tokens = .ok p)
    (hscan' : Token.scan more = .ok ms) (hq : Program.ofTokens ms = .ok q)
    (hcut : (∀ t ∈ tokens, t.isEnd = true) ∨
      ∀ t ∈ ms.head?, t.kind ≠ .mark .minus ∧ t.kind ≠ .mark .leftParen) :
    Program.read (source ++ "\n" ++ more)
        = .ok (p ++ q.map (Expr.mapLine (· + (1 + source.toList.count '\n')))) ∧
      ∀ {σ : Type} [Host σ] (s : Session) (host : σ),
        match (s.interpret source).run host with
        | ((.error e, s'), host') =>
          (s.interpret (source ++ "\n" ++ more)).run host = ((.error e, s'), host')
        | ((.ok vs, s'), host') =>
          Continues vs ((s'.interpret more).run host')
            ((s.interpret (source ++ "\n" ++ more)).run host) := by
  have hread : Program.read source = .ok p := by
    rw [Program.read, hscan]
    exact hp
  have hread' : Program.read more = .ok q := by
    rw [Program.read, hscan']
    exact hq
  have hjoin := read_join hscan hp hscan' hq
    (hcut.imp_right fun h t ht => TokenKind.joins_of_ne (h t ht))
  refine ⟨hjoin, ?_⟩
  intro σ _ s host
  generalize 1 + source.toList.count '\n' = k at hjoin
  -- in one unit, too, the second program meets the session that the first one leaves
  have hwhole := run_evalProgram_append s host [] p (q.map (Expr.mapLine (· + k)))
  rcases hrun : (s.evalProgram [] p).run host with ⟨⟨r, s'⟩, host'⟩
  rw [hrun] at hwhole
  rw [run_interpret_readable hread hrun]
  cases r with
  | error e => exact run_interpret_readable hjoin hwhole
  | ok vs =>
      have hpq : List.Forall₂ Expr.Relined q (q.map (Expr.mapLine (· + k))) :=
        List.forall₂_map_right_iff.mpr (List.forall₂_same.mpr fun e _ => e.relined_mapLine _)
      rcases hrest : (s'.evalProgram [] q).run host' with ⟨⟨r, s₂⟩, host₂⟩
      rcases hlast : (s'.evalProgram vs.reverse (q.map (Expr.mapLine (· + k)))).run host'
        with ⟨⟨r', t₂⟩, host₂'⟩
      show Continues vs ((s'.interpret more).run host') _
      rw [run_interpret_readable hread' hrest, run_interpret_readable hjoin (hwhole.trans hlast)]
      exact continues_relined hpq hrest hlast

/-- A function defined in the first piece fails when a function of the second one
    calls it. -/
theorem interpret_join_undefined :
    let source := "f = \\ \x7b k \x7d"
    let more := "g = \\ \x7b f() \x7d\ng()"
    let s := Session.new {} fun _ => .always 0
    let p : Program := [.define "f" (.function [] [.symbol "k" 1] 1) 1]
    let q : Program :=
      [.define "g" (.function [] [.call (.symbol "f" 1) [] 1] 1) 1, .call (.symbol "g" 2) [] 2]
    ∃ tokens ms vs s', Token.scan source = .ok tokens ∧ Program.ofTokens tokens = .ok p
      ∧ Token.scan more = .ok ms ∧ Program.ofTokens ms = .ok q
      ∧ (∀ t ∈ ms.head?, t.kind ≠ .mark .minus ∧ t.kind ≠ .mark .leftParen)
      ∧ Program.read (source ++ "\n" ++ more)
        = .ok (p ++ q.map (Expr.mapLine (· + (1 + source.toList.count '\n'))))
      ∧ (s.interpret source).run ({} : Buffer) = ((.ok vs, s'), {})
      ∧ Continues vs ((s'.interpret more).run ({} : Buffer))
        ((s.interpret (source ++ "\n" ++ more)).run {}) := by
  intro source more s p q
  let mark (m : Mark) (line : Nat) : Token := ⟨.mark m, m.spelling, line⟩
  let name (s : String) (line : Nat) : Token := ⟨.identifier s, s, line⟩
  let tokens : List Token :=
    [name "f" 1, mark .equal 1, mark .backslash 1, mark .leftBrace 1, name "k" 1,
      mark .rightBrace 1, .endAt 1]
  let ms : List Token :=
    [name "g" 1, mark .equal 1, mark .backslash 1, mark .leftBrace 1, name "f" 1,
      mark .leftParen 1, mark .rightParen 1, mark .rightBrace 1, name "g" 2, mark .leftParen 2,
      mark .rightParen 2, .endAt 2]
  have hscan : Token.scan "f = \\ \x7b k \x7d" = .ok tokens := rfl
  have hscan' : Token.scan "g = \\ \x7b f() \x7d\ng()" = .ok ms := rfl
  have hp : Program.ofTokens tokens = .ok p := rfl
  have hq : Program.ofTokens ms = .ok q := rfl
  have hcut : ∀ t ∈ ms.head?, t.kind ≠ .mark .minus ∧ t.kind ≠ .mark .leftParen := by
    rintro _ ⟨rfl⟩
    exact ⟨nofun, nofun⟩
  obtain ⟨hread, hruns⟩ := interpret_join hscan hp hscan' hq (Or.inr hcut)
  obtain ⟨vs, s', hrun⟩ : ∃ vs s', (s.interpret "f = \\ \x7b k \x7d").run ({} : Buffer)
      = ((.ok vs, s'), {}) := ⟨_, _, rfl⟩
  have hcontinues := hruns s ({} : Buffer)
  rw [hrun] at hcontinues
  exact ⟨tokens, ms, vs, s', hscan, hp, hscan', hq, hcut, hread, hrun, hcontinues⟩

end Session

end Scriptlet
