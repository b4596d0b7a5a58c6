import Mathlib.Data.List.Induction
import Scriptlet.Proofs.ReaderComplete

/-! # Syntax errors are at the first token that cannot go on

    Tokens are viable when some program begins with them.  The reader complains
    as soon as the tokens read are no longer viable: from every state it can be
    brought to an end (`Reader.exists_completion`), so the tokens before the one
    that it refuses are viable, and with that one they are not.

    What it complains of is the refused token itself, with one exception.  At an
    equals sign behind an expression that is no name, it is the first token of
    this expression (`Reader.NamelessTarget`).  Which token that is, the reader
    remembers in the expression in progress, and it is right about it
    (`Reader.State.Anchored`). -/

namespace Scriptlet

/-- Some program begins with these tokens. -/
def Viable (ts : List Token) : Prop :=
  ∃ more program, Program.ofTokens (ts ++ more) = .ok program

namespace Reader

/-! ## Every state can be brought to an end -/

/-- A token for use in completions. -/
def spare (kind : TokenKind) : Token :=
  ⟨kind, "", 1⟩

/-- Behind an operand it takes what closes the constructs around it. -/
theorem exists_completion_operator (around : List (Around × Partial)) (finished : List Expr)
    (p : Partial) (e : Expr) :
    ∃ ts program, (State.operator ⟨around, finished⟩ p e).run ts = .ok program := by
  let name := spare (.identifier "x")
  let leftBrace := spare (.mark .leftBrace)
  let rightBrace := spare (.mark .rightBrace)
  let elseWord := spare (.keyword .elseWord)
  induction around generalizing p e with
  | nil => exact ⟨[], _, rfl⟩
  | cons x around ih =>
      obtain ⟨a, outer⟩ := x
      cases a with
      | group n =>
          obtain ⟨ts, program, h⟩ := ih outer (.group (p.finish e) n)
          exact ⟨spare (.mark .rightParen) :: ts, program, h⟩
      | list items n =>
          obtain ⟨ts, program, h⟩ := ih outer (.list (p.finish e :: items).reverse n)
          exact ⟨spare (.mark .rightBracket) :: ts, program, h⟩
      | args callee items n =>
          obtain ⟨ts, program, h⟩ := ih outer (.call callee (p.finish e :: items).reverse n)
          exact ⟨spare (.mark .rightParen) :: ts, program, h⟩
      | test n =>
          obtain ⟨ts, program, h⟩ :=
            ih outer (.choice (p.finish e) [.symbol "x" 1] [.symbol "x" 1] n)
          exact ⟨leftBrace :: name :: rightBrace :: elseWord :: leftBrace :: name :: rightBrace
            :: ts, program, h⟩
      | yes cond items n =>
          obtain ⟨ts, program, h⟩ :=
            ih outer (.choice cond (p.finish e :: items).reverse [.symbol "x" 1] n)
          exact ⟨rightBrace :: elseWord :: leftBrace :: name :: rightBrace :: ts, program, h⟩
      | no cond ys items n =>
          obtain ⟨ts, program, h⟩ := ih outer (.choice cond ys (p.finish e :: items).reverse n)
          exact ⟨rightBrace :: ts, program, h⟩
      | body params items n =>
          obtain ⟨ts, program, h⟩ := ih outer (.function params (p.finish e :: items).reverse n)
          exact ⟨rightBrace :: ts, program, h⟩

/-- **Every state can be brought to an end.** -/
theorem exists_completion (s : State) : ∃ ts program, s.run ts = .ok program := by
  let name := spare (.identifier "x")
  let leftBrace := spare (.mark .leftBrace)
  let rightBrace := spare (.mark .rightBrace)
  have operator : ∀ (place : Place) (p : Partial) (e : Expr),
      ∃ ts program, (State.operator place p e).run ts = .ok program :=
    fun place => exists_completion_operator place.around place.finished
  cases s with
  | idle => exact ⟨[], _, rfl⟩
  | operand place p =>
      obtain ⟨ts, program, h⟩ := operator place (p.startAt name) (.symbol "x" 1)
      exact ⟨name :: ts, program, h⟩
  | operator place p e => exact operator place p e
  | gap g place p =>
      cases g with
      | firstItem n =>
          obtain ⟨ts, program, h⟩ := operator place p (.list [] n)
          exact ⟨spare (.mark .rightBracket) :: ts, program, h⟩
      | firstArg callee n =>
          obtain ⟨ts, program, h⟩ := operator place p (.call callee [] n)
          exact ⟨spare (.mark .rightParen) :: ts, program, h⟩
      | elseWord test yes n =>
          obtain ⟨ts, program, h⟩ := operator place p (.choice test yes [.symbol "x" 1] n)
          exact ⟨spare (.keyword .elseWord) :: leftBrace :: name :: rightBrace :: ts, program, h⟩
      | elseBlock test yes n =>
          obtain ⟨ts, program, h⟩ := operator place p (.choice test yes [.symbol "x" 1] n)
          exact ⟨leftBrace :: name :: rightBrace :: ts, program, h⟩
      | firstParam n =>
          obtain ⟨ts, program, h⟩ := operator place p (.function [] [.symbol "x" 1] n)
          exact ⟨leftBrace :: name :: rightBrace :: ts, program, h⟩
      | param params n =>
          obtain ⟨ts, program, h⟩ :=
            operator place p (.function ("x" :: params).reverse [.symbol "x" 1] n)
          exact ⟨name :: leftBrace :: name :: rightBrace :: ts, program, h⟩
      | paramEnd params n =>
          obtain ⟨ts, program, h⟩ := operator place p (.function params.reverse [.symbol "x" 1] n)
          exact ⟨leftBrace :: name :: rightBrace :: ts, program, h⟩

/-! ## Viable tokens -/

section Steps

variable {s s' s'' : State} {ts us : List Token} {t : Token}

/-- The reader gets to one state only. -/
theorem Steps.unique (h : Steps s ts s') (h' : Steps s ts s'') : s' = s'' := by
  induction ts generalizing s with
  | nil => exact h.symm.trans h'
  | cons t ts ih =>
      obtain ⟨next, hs, h⟩ := h
      obtain ⟨next', hs', h'⟩ := h'
      obtain rfl := Except.ok.inj (hs.symm.trans hs')
      exact ih h h'

/-- Tokens are read one by one, so they may be read in two parts. -/
theorem steps_append : Steps s (ts ++ us) s' ↔ ∃ m, Steps s ts m ∧ Steps m us s' := by
  constructor
  · intro h
    induction ts generalizing s with
    | nil => exact ⟨s, rfl, h⟩
    | cons t ts ih =>
        obtain ⟨next, hs, h⟩ := h
        obtain ⟨m, hm, hus⟩ := ih h
        exact ⟨m, ⟨next, hs, hm⟩, hus⟩
  · rintro ⟨m, hts, hus⟩
    exact hts.append hus

/-- The end of the input is never passed. -/
theorem Steps.isEnd_eq_false (h : Steps s ts s') : ∀ t ∈ ts, t.isEnd = false := by
  induction ts generalizing s with
  | nil => exact List.forall_mem_nil _
  | cons t ts ih =>
      obtain ⟨next, hs, h⟩ := h
      refine List.forall_mem_cons.mpr ⟨?_, ih h⟩
      exact Bool.eq_false_iff.mpr fun hend => step_end hend hs

/-- What the reader has accepted so far can be completed to a program. -/
theorem Steps.viable (h : Steps .idle ts s) : Viable ts := by
  obtain ⟨more, program, hrun⟩ := exists_completion s
  refine ⟨more, program, ?_⟩
  rw [Program.ofTokens, h.run h.isEnd_eq_false]
  exact hrun

/-- A run that succeeds passes its first tokens. -/
theorem exists_steps_of_run {program : Program} (hts : ∀ t ∈ ts, t.isEnd = false)
    (h : s.run (ts ++ us) = .ok program) : ∃ s', Steps s ts s' := by
  induction ts generalizing s with
  | nil => exact ⟨s, rfl⟩
  | cons t ts ih =>
      obtain ⟨ht, hts⟩ := List.forall_mem_cons.mp hts
      rw [List.cons_append, State.run, if_neg (by rw [ht]; exact Bool.false_ne_true)] at h
      dsimp only at h
      split at h
      · next next hs =>
          obtain ⟨s', hs'⟩ := ih hts h
          exact ⟨s', next, hs, hs'⟩
      · cases h

/-- What begins a program is accepted. -/
theorem exists_steps_of_viable (h : Viable ts) (hts : ∀ t ∈ ts, t.isEnd = false) :
    ∃ s, Steps .idle ts s := by
  obtain ⟨more, program, hrun⟩ := h
  exact exists_steps_of_run hts hrun

/-- The reader refuses a token. -/
def Refuses (s : State) (t : Token) (e : SyntaxError) : Prop :=
  (t.isEnd = true → s.complete? = none) ∧ s.step t = .error e

/-- A token that is refused ends the reading, whatever follows. -/
theorem Refuses.run {e : SyntaxError} (h : Refuses s t e) (ts : List Token) :
    s.run (t :: ts) = .error e := by
  have hgo : (if t.isEnd then s.complete? else none) = none := by
    split
    · next hend => exact h.1 hend
    · rfl
  rw [State.run, hgo]
  simp only [h.2]

/-- With a token that is refused, tokens are not viable. -/
theorem Refuses.not_viable {e : SyntaxError} (h : Refuses s t e) (hs : Steps .idle ts s) :
    ¬ Viable (ts ++ [t]) := by
  rintro ⟨more, program, hrun⟩
  rw [Program.ofTokens, List.append_assoc, hs.run hs.isEnd_eq_false, List.cons_append,
    h.run] at hrun
  cases hrun

/-- A run that fails comes to a token that is refused, or to the end of the
    tokens where no program may end. -/
theorem exists_refused {e : SyntaxError} (h : s.run ts = .error e) :
    ∃ front rest s', ts = front ++ rest ∧ Steps s front s' ∧
      ((rest = [] ∧ e = .unexpectedToken "" 1) ∨
        ∃ t after, rest = t :: after ∧ Refuses s' t e) := by
  induction ts generalizing s with
  | nil =>
      refine ⟨[], [], s, rfl, rfl, .inl ⟨rfl, ?_⟩⟩
      rw [State.run] at h
      split at h <;> cases h
      rfl
  | cons t ts ih =>
      rw [State.run] at h
      split at h
      · cases h
      · next hgo =>
          split at h
          · next next hs =>
              obtain ⟨front, rest, s', rfl, hfront, hrest⟩ := ih h
              exact ⟨t :: front, rest, s', rfl, ⟨next, hs, hfront⟩, hrest⟩
          · next err hs =>
              cases h
              refine ⟨[], t :: ts, s, rfl, rfl, .inr ⟨t, ts, rfl, fun hend => ?_, hs⟩⟩
              rwa [if_pos hend] at hgo

end Steps

/-! ## Where an expression begins -/

/-- Whether an operand has just been read. -/
def State.isOperator : State → Bool
  | .operator .. => true
  | _ => false

/-- In this state an expression may begin, in the place `place`: behind the
    targets of `p`, a token that opens an expression, and does not go on with one
    in front of it, is read as its first. -/
structure Admits (s : State) (place : Place) (p : Partial) : Prop where
  waiting : p.waiting = []
  step : ∀ t, opens t.kind = true → (t.kind.joins = true → s.isOperator = false) →
    s.step t = readOperand place p t

/-- Where an operand is due, an expression may begin. -/
theorem admits_operand (place : Place) {p : Partial} (h : p.waiting = []) :
    Admits (.operand place p) place p :=
  ⟨h, fun _ _ _ => rfl⟩

/-- Behind an opening bracket the first item may begin. -/
theorem admits_firstItem (n : Nat) (place : Place) (p : Partial) :
    Admits (.gap (.firstItem n) place p) (place.enter (.list [] n) p) {} :=
  ⟨rfl, fun _ ho _ => readGap_firstItem ho⟩

/-- Behind an opening parenthesis the first argument may begin. -/
theorem admits_firstArg (callee : Expr) (n : Nat) (place : Place) (p : Partial) :
    Admits (.gap (.firstArg callee n) place p) (place.enter (.args callee [] n) p) {} :=
  ⟨rfl, fun _ ho _ => readGap_firstArg ho⟩

/-- Behind a finished expression the next one of its sequence may begin. -/
theorem admits_operator {place next : Place} {p : Partial} {e : Expr}
    (h : ∀ t, opens t.kind = true → readAfter place (p.finish e) t = readOperand next {} t) :
    Admits (.operator place p e) next {} := by
  refine ⟨rfl, fun t ho hj => ?_⟩
  have hjoins : t.kind.joins = false := by
    cases hk : t.kind.joins with
    | false => rfl
    | true => cases hj hk
  rw [State.step, readOperator_of_opens ho hjoins]
  exact h t ho

/-- The first token of an expression in progress is the one that it remembers,
    and it was read in a state in which an expression may begin. -/
def Partial.Anchored (front : List Token) (place : Place) (p : Partial) : Prop :=
  ∃ before t mid s, front = before ++ t :: mid ∧ p.start? = some t ∧ Steps .idle before s ∧
    Admits s place { targets := p.targets } ∧ (t.kind.joins = true → s.isOperator = false)

/-- So do the expressions that the constructs around belong to. -/
def AroundAnchored (front : List Token) (finished : List Expr) : List (Around × Partial) → Prop
  | [] => True
  | (_, outer) :: around =>
    outer.Anchored front ⟨around, finished⟩ ∧ AroundAnchored front finished around

def Place.Anchored (front : List Token) (place : Place) : Prop :=
  AroundAnchored front place.finished place.around

/-- Nothing of the expression has been read but targets. -/
def Partial.Fresh (p : Partial) : Prop :=
  p.waiting = [] ∧ p.start? = none

/-- Every expression in progress remembers its first token. -/
def State.Anchored (front : List Token) : State → Prop
  | .idle => True
  | .operand place p => place.Anchored front ∧ (p.Fresh ∨ p.Anchored front place)
  | .operator place p _ | .gap _ place p => place.Anchored front ∧ p.Anchored front place

section Anchored

variable {front : List Token} {place : Place} {p : Partial} {t : Token} {s s' : State}

/-- What is known of the tokens in front stays known. -/
theorem Partial.Anchored.append (h : p.Anchored front place) (more : List Token) :
    p.Anchored (front ++ more) place := by
  obtain ⟨before, u, mid, s, rfl, hrest⟩ := h
  exact ⟨before, u, mid ++ more, s, by simp, hrest⟩

theorem Place.Anchored.append (h : place.Anchored front) (more : List Token) :
    place.Anchored (front ++ more) := by
  obtain ⟨around, finished⟩ := place
  induction around with
  | nil => trivial
  | cons x around ih => exact ⟨h.1.append more, ih h.2⟩

/-- An expression begins with the token at hand. -/
theorem anchored_begin {targets : List (String × Nat)} (hs : Steps .idle front s)
    (ha : Admits s place { targets }) (hj : t.kind.joins = true → s.isOperator = false) :
    (Partial.startAt { targets } t).Anchored (front ++ [t]) place :=
  ⟨front, t, [], s, rfl, rfl, hs, ha, hj⟩

/-- An expression goes on with the token at hand. -/
theorem Partial.Anchored.startAt (h : p.Anchored front place) :
    (p.startAt t).Anchored (front ++ [t]) place := by
  obtain ⟨before, u, mid, s, hfront, hstart, hrest⟩ := h.append [t]
  refine ⟨before, u, mid, s, hfront, ?_, hrest⟩
  rw [Partial.startAt, hstart]
  rfl

theorem anchored_readOperand (h : readOperand place p t = .ok s')
    (hplace : place.Anchored (front ++ [t])) (hp : (p.startAt t).Anchored (front ++ [t]) place) :
    s'.Anchored (front ++ [t]) := by
  cases opened_of_readOperand h with
  | operand e => exact ⟨hplace, hp⟩
  | unary op => exact ⟨hplace, .inr hp⟩
  | enter a => exact ⟨⟨hp, hplace⟩, .inl ⟨rfl, rfl⟩⟩
  | gap g => exact ⟨hplace, hp⟩

/-- A token behind an expression that has ended begins the next one or closes what
    is around. -/
theorem anchored_readAfter {e : Expr} (hs : Steps .idle front (.operator place p e))
    (hplace : place.Anchored front) (hj : t.kind.joins = false)
    (h : readAfter place (p.finish e) t = .ok s') : s'.Anchored (front ++ [t]) := by
  -- the next expression of a sequence
  have hnext : ∀ {next : Place}, readOperand next {} t = .ok s' → next.Anchored (front ++ [t]) →
      (∀ t, opens t.kind = true → readAfter place (p.finish e) t = readOperand next {} t) →
      s'.Anchored (front ++ [t]) := by
    intro next hr hanchored hadmits
    refine anchored_readOperand hr hanchored ?_
    refine anchored_begin hs (admits_operator hadmits) fun htrue => ?_
    rw [hj] at htrue
    cases htrue
  obtain ⟨around, finished⟩ := place
  cases around with
  | nil => exact hnext h trivial fun _ _ => rfl
  | cons x around =>
      obtain ⟨a, outer⟩ := x
      obtain ⟨houter, haround⟩ := hplace.append [t]
      have hblock := fun t => @readAfter_block ⟨around, finished⟩ outer (p.finish e) t
      unfold readAfter at h
      dsimp only at h
      split at h
      case h_2 | h_5 | h_8 | h_10 => cases h
      case h_12 =>
          exact hnext h ⟨houter, haround⟩ fun u ho => (hblock u ho).1 _ _ _
      case h_14 =>
          exact hnext h ⟨houter, haround⟩ fun u ho => (hblock u ho).2.1 _ _ _ _
      case h_16 =>
          exact hnext h ⟨houter, haround⟩ fun u ho => (hblock u ho).2.2 _ _ _
      case h_3 | h_6 | h_9 =>
          cases h
          exact ⟨⟨houter, haround⟩, .inl ⟨rfl, rfl⟩⟩
      all_goals
        cases h
        exact ⟨haround, houter⟩

theorem anchored_readOperator {e : Expr} (hs : Steps .idle front (.operator place p e))
    (hplace : place.Anchored front) (hp : p.Anchored front place)
    (h : readOperator place p e t = .ok s') : s'.Anchored (front ++ [t]) := by
  unfold readOperator at h
  split at h
  · cases h
    exact ⟨hplace.append [t], hp.append [t]⟩
  · unfold readEquals at h
    split at h
    · cases h
      exact ⟨hplace.append [t], .inl ⟨rfl, rfl⟩⟩
    · cases h
  · next hparen _ =>
      split at h
      · cases h
        exact ⟨hplace.append [t], .inr (hp.append [t])⟩
      · next hop =>
          exact anchored_readAfter hs hplace (TokenKind.joins_eq_false hop hparen) h

theorem anchored_readGap {g : Gap} (hs : Steps .idle front (.gap g place p))
    (hplace : place.Anchored front) (hp : p.Anchored front place)
    (h : readGap g place p t = .ok s') : s'.Anchored (front ++ [t]) := by
  have hplace := hplace.append [t]
  have hp := hp.append [t]
  unfold readGap at h
  split at h
  case h_2 =>
      exact anchored_readOperand h ⟨hp, hplace⟩
        (anchored_begin hs (admits_firstItem ..) fun _ => rfl)
  case h_4 =>
      exact anchored_readOperand h ⟨hp, hplace⟩
        (anchored_begin hs (admits_firstArg ..) fun _ => rfl)
  case h_6 | h_8 | h_11 | h_13 | h_16 => cases h
  case h_7 | h_9 | h_15 =>
      cases h
      exact ⟨⟨hp, hplace⟩, .inl ⟨rfl, rfl⟩⟩
  all_goals
    cases h
    exact ⟨hplace, hp⟩

/-- One token keeps it so. -/
theorem State.Anchored.step (h : s.Anchored front) (hs : Steps .idle front s)
    (hstep : s.step t = .ok s') : s'.Anchored (front ++ [t]) := by
  cases s with
  | idle =>
      have hidle : Admits .idle {} {} := ⟨rfl, fun _ _ _ => rfl⟩
      exact anchored_readOperand hstep trivial (anchored_begin hs hidle fun _ => rfl)
  | operand place p =>
      obtain ⟨hplace, hfresh | hp⟩ := h
      · obtain ⟨targets, waiting, start⟩ := p
        obtain ⟨rfl, rfl⟩ := hfresh
        exact anchored_readOperand hstep (hplace.append [t])
          (anchored_begin hs (admits_operand place rfl) fun _ => rfl)
      · exact anchored_readOperand hstep (hplace.append [t]) hp.startAt
  | operator place p e => exact anchored_readOperator hs h.1 h.2 hstep
  | gap g place p => exact anchored_readGap hs h.1 h.2 hstep

/-- After any tokens, the state is spelled by them and remembers where its
    expressions begin. -/
theorem Steps.reads_anchored (hs : Steps .idle front s) : Reads front s ∧ s.Anchored front := by
  induction front using List.reverseRecOn generalizing s with
  | nil =>
      obtain rfl : State.idle = s := hs
      exact ⟨rfl, trivial⟩
  | append_singleton ts t ih =>
      obtain ⟨m, hm, next, hstep, rfl⟩ := steps_append.mp hs
      obtain ⟨hreads, hanchored⟩ := ih hm
      exact ⟨hreads.step hstep, hanchored.step hm hstep⟩

end Anchored

/-! ## What an error names -/

/-- The error names the token: its lexeme and its line. -/
def Names (e : SyntaxError) (t : Token) : Prop :=
  e.near = t.lexeme ∧ e.line = t.line

section Errors

variable {place : Place} {p : Partial} {t : Token} {e : SyntaxError}

/-- Where an operand is due, the token that is refused is the one named. -/
theorem names_of_readOperand (h : readOperand place p t = .error e) : Names e t := by
  unfold readOperand at h
  dsimp only at h
  split at h
  case h_13 =>
      cases h
      exact ⟨rfl, rfl⟩
  all_goals cases h

theorem names_of_readAfter {expr : Expr} (h : readAfter place expr t = .error e) : Names e t := by
  unfold readAfter at h
  split at h
  · exact names_of_readOperand h
  · dsimp only at h
    split at h
    case h_2 | h_5 | h_8 | h_10 =>
        cases h
        exact ⟨rfl, rfl⟩
    case h_12 | h_14 | h_16 => exact names_of_readOperand h
    all_goals cases h

theorem names_of_readGap {g : Gap} (h : readGap g place p t = .error e) : Names e t := by
  unfold readGap at h
  split at h
  case h_2 | h_4 => exact names_of_readOperand h
  case h_6 | h_8 | h_11 | h_13 | h_16 =>
      cases h
      exact ⟨rfl, rfl⟩
  all_goals cases h

/-- A token that is refused is named, unless it is an equals sign behind an
    operand. -/
theorem names_of_step {s : State} (h : s.step t = .error e)
    (hne : s.isOperator = true → t.kind ≠ .mark .equal) : Names e t := by
  cases s with
  | idle | operand => exact names_of_readOperand h
  | gap g place p => exact names_of_readGap h
  | operator place p expr =>
      rw [State.step] at h
      unfold readOperator at h
      split at h
      · cases h
      · next heq => exact absurd heq (hne rfl)
      · split at h
        · cases h
        · exact names_of_readAfter h

end Errors

/-! ## Definitions without a name -/

/-- Behind these tokens a definition may begin, and `start` begins an expression
    there: it does not go on with one that has ended, which an operator could. -/
structure TargetBegins (before : List Token) (start : Token) : Prop where
  define : ∀ (x : String) (name u : Token), name.kind = .identifier x → u.kind = .mark .equal →
    Viable (before ++ [name, u])
  alone : start.kind.joins = true → ∀ u : Token, u.kind = .mark .star → ¬ Viable (before ++ [u])

/-- The tokens end with an expression where the target of a definition could
    stand, but it is no name.  It begins with `start`. -/
inductive NamelessTarget (front : List Token) (start : Token) : Prop where
  | mk (before mid : List Token) (expr : Expr) (front_eq : front = before ++ start :: mid)
      (begins : TargetBegins before start) (spells : Spells (start :: mid) expr.slots)
      (canonical : expr.Canonical) (tier : 1 ≤ expr.tier) (nameless : ∀ x n, expr ≠ .symbol x n)

section Targets

variable {before mid front : List Token} {start : Token} {s : State} {place : Place}
  {p : Partial} {e : Expr}

/-- What stands in front of an expression that may begin. -/
theorem spells_of_admits (hs : Steps .idle before s) (ha : Admits s place p) :
    Spells before (place.slots ++ targetSlots p.targets) := by
  have hstep : s.step (spare (.identifier "x"))
      = .ok (.operator place (p.startAt (spare (.identifier "x"))) (.symbol "x" 1)) :=
    ha.step _ rfl nofun
  obtain ⟨⟨hinside, -⟩, -⟩ := (hs.append (Steps.one hstep)).reads_anchored
  have hslots : place.slots ++ ((p.startAt (spare (.identifier "x"))).slots
      ++ (Expr.symbol "x" 1).slots)
      = place.slots ++ targetSlots p.targets ++ [.naming (.identifier "x") 1] := by
    simp [Partial.slots, Partial.startAt, ha.waiting, waitingSlots, Expr.slots]
  have hspells := hinside.spells
  rw [hslots] at hspells
  obtain ⟨us, vs, hsplit, hus, hvs⟩ := spells_append.mp hspells
  obtain ⟨rfl, -⟩ := List.append_inj' hsplit hvs.length_eq.symm
  exact hus

/-- Where an operand is due, a star is refused. -/
theorem refuses_star {u : Token} (hs : s.isOperator = false) (hu : u.kind = .mark .star) :
    ∃ err, Refuses s u err := by
  obtain ⟨kind, lexeme, n⟩ := u
  obtain rfl : kind = .mark .star := hu
  cases s with
  | operator => cases hs
  | idle | operand => exact ⟨_, nofun, rfl⟩
  | gap g place p => cases g <;> exact ⟨_, nofun, rfl⟩

/-- Where an expression may begin, so may a definition. -/
theorem Admits.targetBegins (ha : Admits s place p) (hs : Steps .idle before s)
    (hj : start.kind.joins = true → s.isOperator = false) : TargetBegins before start := by
  refine ⟨?_, ?_⟩
  · intro x name u hname hu
    obtain ⟨kind, lexeme, n⟩ := name
    obtain ⟨kind', lexeme', n'⟩ := u
    obtain rfl : kind = .identifier x := hname
    obtain rfl : kind' = .mark .equal := hu
    have hstep := ha.step ⟨.identifier x, lexeme, n⟩ rfl nofun
    have hequals : readEquals place (p.startAt ⟨.identifier x, lexeme, n⟩) (.symbol x n)
        ⟨.mark .equal, lexeme', n'⟩ = .ok (.operand place { targets := (x, n') :: p.targets }) := by
      obtain ⟨targets, waiting, first⟩ := p
      obtain rfl : waiting = [] := ha.waiting
      rfl
    have hdefine : Steps s [⟨.identifier x, lexeme, n⟩, ⟨.mark .equal, lexeme', n'⟩] _ :=
      ⟨_, hstep, Steps.one hequals⟩
    exact (hs.append hdefine).viable
  · intro hjoins u hu
    obtain ⟨err, hrefuses⟩ := refuses_star (hj hjoins) hu
    exact hrefuses.not_viable hs

/-- Where a definition may begin, an expression may. -/
theorem TargetBegins.admits (h : TargetBegins before start) (hs : Steps .idle before s) :
    (∃ place p, Admits s place p) ∧ (start.kind.joins = true → s.isOperator = false) := by
  refine ⟨?_, ?_⟩
  · let name := spare (.identifier "x")
    let equals := spare (.mark .equal)
    have hviable : Viable (before ++ [name, equals]) := h.define "x" name equals rfl rfl
    have hends : ∀ t ∈ before ++ [name, equals], t.isEnd = false :=
      List.forall_mem_append.mpr ⟨hs.isEnd_eq_false, by decide⟩
    obtain ⟨s₂, hs₂⟩ := exists_steps_of_viable hviable hends
    obtain ⟨m, hm, s₁, hname, s₂, hequals, -⟩ := steps_append.mp hs₂
    obtain rfl := hm.unique hs
    cases m with
    | idle => exact ⟨{}, {}, rfl, fun _ _ _ => rfl⟩
    | operand place p =>
        obtain ⟨targets, waiting, first⟩ := p
        cases hname
        cases waiting with
        | nil => exact ⟨place, ⟨targets, [], first⟩, admits_operand place rfl⟩
        | cons w ws => cases hequals
    | operator place p e =>
        obtain ⟨around, finished⟩ := place
        cases around with
        | nil => exact ⟨⟨[], p.finish e :: finished⟩, {}, admits_operator fun _ _ => rfl⟩
        | cons x around =>
            obtain ⟨a, outer⟩ := x
            have hblock := fun t => @readAfter_block ⟨around, finished⟩ outer (p.finish e) t
            cases a with
            | group | list | args | test => cases hname
            | yes => exact ⟨_, {}, admits_operator fun u ho => (hblock u ho).1 _ _ _⟩
            | no => exact ⟨_, {}, admits_operator fun u ho => (hblock u ho).2.1 _ _ _ _⟩
            | body => exact ⟨_, {}, admits_operator fun u ho => (hblock u ho).2.2 _ _ _⟩
    | gap g place p =>
        cases g with
        | firstItem n => exact ⟨_, {}, admits_firstItem n place p⟩
        | firstArg callee n => exact ⟨_, {}, admits_firstArg callee n place p⟩
        | elseWord | elseBlock | paramEnd => cases hname
        | firstParam | param =>
            cases hname
            cases hequals
  · intro hjoins
    cases s with
    | operator place p e =>
        have hstar : (State.operator place p e).step (spare (.mark .star))
            = .ok (.operand place (p.extend .multiply e 1)) := rfl
        exact absurd (hs.append (Steps.one hstar)).viable (h.alone hjoins _ rfl)
    | _ => rfl

/-- An expression is read where one may begin. -/
theorem Admits.steps (ha : Admits s place p) (hspells : Spells (start :: mid) e.slots)
    (hcanonical : e.Canonical) (htier : 1 ≤ e.tier)
    (hj : start.kind.joins = true → s.isOperator = false) :
    ∃ q last, Steps s (start :: mid) (.operator place q last) ∧ q.targets = p.targets := by
  have hwaiting : operandTier p.waiting ≤ e.tier := by rwa [ha.waiting]
  obtain ⟨first, hsteps⟩ := (reads_canonical e hcanonical).2 htier place p _ hspells hwaiting
  have hopens : opens start.kind = true := by
    rw [← List.append_nil e.slots] at hspells
    obtain ⟨t, us, hcons, ho, -⟩ := spells_opens hspells
    obtain ⟨rfl, -⟩ := List.cons.inj hcons
    exact ho
  exact ⟨_, _, hsteps.congr (ha.step start hopens hj), rfl⟩

/-- Two stretches of tokens that spell the same slots at the front of the same
    tokens are one. -/
theorem start_unique {before' mid' : List Token} {start' : Token} {ss : List Slot}
    (h : Spells before ss) (h' : Spells before' ss)
    (heq : before ++ start :: mid = before' ++ start' :: mid') : start = start' := by
  have hlength : before.length = before'.length := h.length_eq.trans h'.length_eq.symm
  exact (List.cons.inj (List.append_inj heq hlength).2).1

/-- Tokens with such an expression at their end lead to the state behind its
    last operand, and the first token that this state remembers is the one with
    which the expression begins. -/
theorem NamelessTarget.state (h : NamelessTarget front start) (hs : Steps .idle front s) :
    ∃ place p e, s = .operator place p e ∧ p.start? = some start := by
  obtain ⟨before, mid, expr, rfl, hbegins, hspells, hcanonical, htier, -⟩ := h
  obtain ⟨m, hbefore, hmid⟩ := steps_append.mp hs
  obtain ⟨⟨place, p, hadmits⟩, hj⟩ := hbegins.admits hbefore
  obtain ⟨q, last, hsteps, htargets⟩ := hadmits.steps hspells hcanonical htier hj
  obtain rfl := hmid.unique hsteps
  refine ⟨place, q, last, rfl, ?_⟩
  obtain ⟨before', t, mid', m', heq, hstart, hbefore', hadmits', -⟩ := hs.reads_anchored.2.2
  have hslots := spells_of_admits hbefore hadmits
  have hslots' := spells_of_admits hbefore' hadmits'
  rw [← htargets] at hslots
  rw [hstart, start_unique hslots hslots' heq]

/-- Once an operator was applied, what is left is no name, and no definition. -/
theorem close_nameless (w : Waiting) (e : Expr) :
    (∀ x n, w.close e ≠ .symbol x n) ∧ 1 ≤ (w.close e).tier := by
  cases w with
  | unary op n => exact ⟨nofun, Nat.succ_le_succ (Nat.zero_le _)⟩
  | binary op lhs n => exact ⟨nofun, op.one_le_tier⟩

/-- With operators closed behind it, an operand is no name and no definition. -/
theorem foldl_close_nameless {ws : List Waiting} (hname : ws = [] → ∀ x n, e ≠ .symbol x n)
    (htier : 1 ≤ e.tier) :
    (∀ x n, ws.foldl (fun e w => w.close e) e ≠ .symbol x n) ∧
      1 ≤ (ws.foldl (fun e w => w.close e) e).tier := by
  induction ws generalizing e with
  | nil => exact ⟨hname rfl, htier⟩
  | cons w ws ih =>
      obtain ⟨hclosed, htier⟩ := close_nameless w e
      exact ih (fun _ => hclosed) htier

/-- An equals sign that is refused behind an operand has an expression in front of
    it that is no name, and the error names its first token. -/
theorem exists_namelessTarget {t : Token} {err : SyntaxError} (hs : Steps .idle front s)
    (hoperator : s.isOperator = true) (ht : t.kind = .mark .equal) (h : s.step t = .error err) :
    ∃ start, NamelessTarget front start ∧ err = .missingIdentifier start.lexeme start.line := by
  obtain ⟨place, p, e, rfl⟩ : ∃ place p e, s = .operator place p e := by
    cases s with
    | operator place p e => exact ⟨place, p, e, rfl⟩
    | _ => cases hoperator
  have h : readEquals place p e t = .error err := by
    obtain ⟨kind, lexeme, n⟩ := t
    obtain rfl : kind = .mark .equal := ht
    exact h
  obtain ⟨⟨hinside, hcanonical, htier⟩, -, hanchored⟩ := hs.reads_anchored
  obtain ⟨before, start, mid, m, rfl, hstart, hbefore, hadmits, hj⟩ := hanchored
  have hname : p.waiting = [] → ∀ x n, e ≠ .symbol x n := by
    rintro hwaiting x n rfl
    unfold readEquals at h
    rw [hwaiting] at h
    cases h
  obtain ⟨hnameless, htier'⟩ := foldl_close_nameless hname
    (Nat.le_trans (Nat.succ_le_succ (Nat.zero_le _)) htier)
  have hspells : Spells (start :: mid) (p.waiting.foldl (fun e w => w.close e) e).slots := by
    rw [slots_foldl_close]
    have hall := hinside.spells
    rw [Partial.slots, List.append_assoc, ← List.append_assoc place.slots] at hall
    obtain ⟨us, vs, hsplit, hus, hvs⟩ := spells_append.mp hall
    have hlength := (spells_of_admits hbefore hadmits).length_eq.trans hus.length_eq.symm
    rwa [(List.append_inj hsplit hlength).2]
  refine ⟨start, ⟨before, mid, _, rfl, hadmits.targetBegins hbefore hj, hspells, ?_, htier',
    hnameless⟩, ?_⟩
  · exact canonical_foldl_close hinside.waiting hcanonical (operandTier_le_of_call htier)
  · unfold readEquals at h
    split at h
    · cases h
    · cases h
      rw [hstart]
      rfl

end Targets

end Reader

open Reader (NamelessTarget Names)

/-- The error explains why `rest` cannot follow `front`.  Where nothing is left,
    there is no end of the input: no lexeme, and line 1.  Else no program begins
    with the front and the token behind it.  The error names this token, unless it
    is an equals sign behind an expression in the place of a definition's target
    that is no name; then it names the first token of this expression. -/
def Explains (e : SyntaxError) (front : List Token) : List Token → Prop
  | [] => (∀ t ∈ front, t.isEnd = false) ∧ e = .unexpectedToken "" 1
  | t :: _ =>
    ¬ Viable (front ++ [t]) ∧
    (∀ start, t.kind = .mark .equal → NamelessTarget front start →
      e = .missingIdentifier start.lexeme start.line) ∧
    ((t.kind = .mark .equal → ∀ start, ¬ NamelessTarget front start) → Names e t)

/-- **Syntax errors are at the first token that cannot go on.**  Tokens that cannot
    be read begin with viable ones, and the error is about what comes next. -/
theorem error_at_first_fault {ts : List Token} {e : SyntaxError}
    (h : Program.ofTokens ts = .error e) :
    ∃ front rest, ts = front ++ rest ∧ Viable front ∧ Explains e front rest := by
  obtain ⟨front, rest, s, rfl, hs, ⟨rfl, rfl⟩ | ⟨t, after, rfl, hrefuses⟩⟩ :=
    Reader.exists_refused h
  · exact ⟨front, [], rfl, hs.viable, hs.isEnd_eq_false, rfl⟩
  · refine ⟨front, t :: after, rfl, hs.viable, hrefuses.not_viable hs, ?_, ?_⟩
    · intro start hequal htarget
      obtain ⟨place, p, last, rfl, hstart⟩ := htarget.state hs
      obtain ⟨start', htarget', he⟩ :=
        Reader.exists_namelessTarget hs rfl hequal hrefuses.2
      obtain ⟨_, _, _, hsame, hstart'⟩ := htarget'.state hs
      cases hsame
      obtain rfl := Option.some.inj (hstart.symm.trans hstart')
      exact he
    · intro hnone
      refine Reader.names_of_step hrefuses.2 fun hoperator hequal => ?_
      obtain ⟨start, htarget, -⟩ :=
        Reader.exists_namelessTarget hs hoperator hequal hrefuses.2
      exact hnone hequal start htarget

/-- In `a = b + c = d` the second equals sign is refused, and the `b` is at fault. -/
theorem error_at_first_fault_sum :
    let ts : List Token :=
      [⟨.identifier "a", "a", 1⟩, ⟨.mark .equal, "=", 1⟩, ⟨.identifier "b", "b", 2⟩,
        ⟨.mark .plus, "+", 2⟩, ⟨.identifier "c", "c", 3⟩, ⟨.mark .equal, "=", 3⟩,
        ⟨.identifier "d", "d", 3⟩, .endAt 3]
    Program.ofTokens ts = .error (.missingIdentifier "b" 2) ∧
      ∃ front rest, ts = front ++ rest ∧ Viable front ∧
        Explains (.missingIdentifier "b" 2) front rest := by
  intro ts
  have h : Program.ofTokens ts = .error (.missingIdentifier "b" 2) := rfl
  exact ⟨h, error_at_first_fault h⟩

end Scriptlet
