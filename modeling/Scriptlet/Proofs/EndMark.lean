import Scriptlet.Proofs.FirstFault

/-! # The end of the input is only a mark

    Tokens without the mark for the end of the input are read as they are with
    it.  The reader goes over the same states, up to a token that it refuses
    (`Reader.steps_or_refused`) or to the end of the tokens.  There the two ways
    part: where a program may end, both give it, and where none may, the mark is
    refused, and without it there is no token to name (`Reader.State.run_end`). -/

namespace Scriptlet

namespace Reader

/-- Either all tokens can be passed, or one of them is refused, and then it makes
    no difference what comes behind them. -/
theorem steps_or_refused {ts : List Token} (hts : ∀ t ∈ ts, t.isEnd = false) :
    (∃ s, Steps .idle ts s) ∨
      ¬ Viable ts ∧ ∃ e, ∀ us, Program.ofTokens (ts ++ us) = .error e := by
  cases h : Program.ofTokens ts with
  | ok program =>
      have hrun : State.idle.run (ts ++ []) = .ok program := by
        rw [List.append_nil]
        exact h
      exact .inl (exists_steps_of_run hts hrun)
  | error e =>
      obtain ⟨front, rest, s, rfl, hs, ⟨rfl, -⟩ | ⟨t, after, rfl, hrefuses⟩⟩ := exists_refused h
      · rw [List.append_nil]
        exact .inl ⟨s, hs⟩
      · refine .inr ⟨?_, e, ?_⟩
        · rintro ⟨more, program, hrun⟩
          refine hrefuses.not_viable hs ⟨after ++ more, program, ?_⟩
          simpa using hrun
        · intro us
          rw [Program.ofTokens, List.append_assoc, hs.run hs.isEnd_eq_false, List.cons_append]
          exact hrefuses.run _

/-- At the end of the tokens: with the mark for the end of the input and without
    it, a program that may end there is given; else both fail, the one because
    the mark is refused and the other without a token. -/
theorem State.run_end (s : State) {last : Token} (hlast : last.isEnd = true) :
    (∃ program, s.run [] = .ok program ∧ ∀ us, s.run (last :: us) = .ok program) ∨
      s.run [] = .error (.unexpectedToken "" 1) ∧ ∃ e, Names e last ∧ Refuses s last e := by
  cases hc : s.complete? with
  | some program =>
      refine .inl ⟨program, ?_, fun us => ?_⟩
      · rw [State.run, hc]
      · rw [State.run, if_pos hlast, hc]
  | none =>
      refine .inr ⟨?_, ?_⟩
      · rw [State.run, hc]
      · cases hs : s.step last with
        | ok s' => exact absurd hs (step_end hlast)
        | error e =>
            refine ⟨e, names_of_step hs fun _ hequal => ?_, fun _ => hc, hs⟩
            rw [Token.isEnd, hequal] at hlast
            cases hlast

end Reader

open Reader (Names)

/-- The token is at fault: it cannot stand behind the others, which can go on. -/
def AtFault (front : List Token) (t : Token) : Prop :=
  Viable front ∧ ¬ Viable (front ++ [t])

/-- **The end of the input is only a mark.**  With it and without it, tokens give
    the same program or both fail.  If the mark is at fault, the error names it,
    and without it there is nothing to name, on line 1; else the two errors are
    the same.  What comes behind the mark is not looked at. -/
theorem end_mark_only_marks {ts : List Token} (hts : ∀ t ∈ ts, t.isEnd = false) {last : Token}
    (hlast : last.isEnd = true) :
    ((∃ program, Program.ofTokens ts = .ok program ∧
        Program.ofTokens (ts ++ [last]) = .ok program) ∨
      ∃ e e', Program.ofTokens ts = .error e ∧ Program.ofTokens (ts ++ [last]) = .error e' ∧
        (AtFault ts last → e = .unexpectedToken "" 1 ∧ Names e' last) ∧
        (¬ AtFault ts last → e = e')) ∧
    ∀ program us, Program.ofTokens (ts ++ [last]) = .ok program →
      Program.ofTokens (ts ++ [last] ++ us) = .ok program := by
  rcases Reader.steps_or_refused hts with ⟨s, hs⟩ | ⟨hnot, e, he⟩
  · have hrun : ∀ us, Program.ofTokens (ts ++ us) = s.run us := fun us => hs.run hts
    have hnone : Program.ofTokens ts = s.run [] := by rw [← hrun, List.append_nil]
    rcases s.run_end hlast with ⟨program, hok, hmark⟩ | ⟨herror, e, hnames, hrefuses⟩
    · refine ⟨.inl ⟨program, hnone.trans hok, (hrun _).trans (hmark [])⟩, ?_⟩
      intro program' us h
      rw [hrun, hmark] at h
      rw [List.append_assoc, hrun]
      exact (hmark us).trans h
    · have hmark : Program.ofTokens (ts ++ [last]) = .error e := (hrun _).trans (hrefuses.run [])
      refine ⟨.inr ⟨_, e, hnone.trans herror, hmark, fun _ => ⟨rfl, hnames⟩, ?_⟩, ?_⟩
      · exact fun hnot => absurd ⟨hs.viable, hrefuses.not_viable hs⟩ hnot
      · intro program us h
        cases hmark.symm.trans h
  · have hnone := he []
    rw [List.append_nil] at hnone
    refine ⟨.inr ⟨e, e, hnone, he _, fun h => absurd h.1 hnot, fun _ => rfl⟩, ?_⟩
    intro program us h
    cases (he _).symm.trans h

/-- In `f(""` the parenthesis is not closed.  On line 7, the end of the input is at
    fault. -/
theorem end_mark_only_marks_call :
    let ts : List Token :=
      [⟨.identifier "f", "f", 1⟩, ⟨.mark .leftParen, "(", 2⟩, ⟨.string "", "\"\"", 3⟩]
    (∀ t ∈ ts, t.isEnd = false) ∧ AtFault ts (.endAt 7) ∧
      Program.ofTokens ts = .error (.unexpectedToken "" 1) ∧
      ∃ e', Program.ofTokens (ts ++ [.endAt 7]) = .error e' ∧ Names e' (.endAt 7) := by
  intro ts
  have hts : ∀ t ∈ ts, t.isEnd = false := by decide
  have hfault : AtFault ts (.endAt 7) := by
    refine ⟨⟨[⟨.mark .rightParen, ")", 8⟩], _, rfl⟩, ?_⟩
    rintro ⟨more, program, h⟩
    cases h
  rcases (end_mark_only_marks hts (rfl : (Token.endAt 7).isEnd = true)).1 with
    ⟨program, h, -⟩ | ⟨e, e', h, h', hmark, -⟩
  · cases h
  · obtain ⟨rfl, hnames⟩ := hmark hfault
    exact ⟨hts, hfault, h, e', h', hnames⟩

end Scriptlet
