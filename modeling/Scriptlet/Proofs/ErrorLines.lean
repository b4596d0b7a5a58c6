import Scriptlet.Proofs.Hosting
import Scriptlet.Proofs.Nodes

/-! # Errors are on lines of the source

    The line of an error goes a long way: the scanner counts it, a token carries
    it, the reader puts it into a node, and evaluation quotes it, perhaps units
    later, from a body that a closure has kept.  At each stage it stays a line of
    the source: of tokens and of faults of the text (`Token.scanFrom_lines`), of
    what the reader complains of (`Reader.State.StartsOn.run_error_line`), and of the code
    that a session deals with (`Trait.ofUnits`). -/

namespace Scriptlet

/-- The number of line feeds in a source text. -/
def newlines (source : String) : Nat :=
  source.toList.count '\n'

/-- `n` is the number of a line of the source text. -/
def IsLineOf (source : String) (n : Nat) : Prop :=
  1 ≤ n ∧ n ≤ 1 + newlines source

/-! ## Tokens and faults -/

namespace Token

/-- The tokens, or the fault, are on lines of a kind. -/
def LinesAre (L : Nat → Prop) : Except SyntaxError (List Token) → Prop
  | .ok tokens => ∀ t ∈ tokens, L t.line
  | .error e => L e.line

/-- Reading on at `line`, every token and every fault is on a line from there to
    the end of the text. -/
theorem scanFrom_lines {L : Nat → Prop} {line skip : Nat} {done : List Token} {cs : List Char}
    (hdone : ∀ t ∈ done, L t.line)
    (hL : ∀ n, line ≤ n → n ≤ line + (cs.drop skip).count '\n' → L n) :
    LinesAre L (scanFrom line skip done cs) := by
  induction cs generalizing line skip done with
  | nil =>
      have hend : L (endAt line).line := hL line (Nat.le_refl _) (Nat.le_add_right _ _)
      intro t ht
      rcases List.mem_cons.mp (List.mem_reverse.mp ht) with rfl | ht
      · exact hend
      · exact hdone t ht
  | cons c cs ih =>
      cases skip with
      | succ skip => exact ih hdone hL
      | zero =>
          -- the piece at the front has its own line feeds, and what is left has the others
          have hcount : (c :: cs).count '\n'
              = (c :: cs.take (Piece.front c cs).width).count '\n'
                + (cs.drop (Piece.front c cs).width).count '\n' := by
            rw [← List.count_append, List.cons_append, List.take_append_drop]
          rw [List.drop_zero, hcount] at hL
          unfold scanFrom
          dsimp only
          generalize (c :: cs.take (Piece.front c cs).width).count '\n' = here at hL ⊢
          have hhere : L (line + here) := hL _ (Nat.le_add_right _ _) (by omega)
          have hrest : ∀ n, line + here ≤ n →
              n ≤ line + here + (cs.drop (Piece.front c cs).width).count '\n' → L n :=
            fun n hle hge => hL n (by omega) (by omega)
          split
          · exact ih hdone hrest
          · exact ih (List.forall_mem_cons.mpr ⟨hhere, hdone⟩) hrest
          · next f _ => cases f <;> exact hhere

/-- Tokens and faults are on lines of the source. -/
theorem scan_lines (source : String) : LinesAre (IsLineOf source) (scan source) :=
  scanFrom_lines (List.forall_mem_nil _) fun _ hle hge => ⟨hle, hge⟩

end Token

/-! ## What the reader complains of -/

namespace Reader

variable {L : Nat → Prop} {place : Place} {p : Partial} {t : Token}

/-- The token that an expression in progress began with is on a line of a kind. -/
def Partial.StartsOn (L : Nat → Prop) (p : Partial) : Prop :=
  ∀ t, p.start? = some t → L t.line

def Place.StartsOn (L : Nat → Prop) (place : Place) : Prop :=
  ∀ x ∈ place.around, x.2.StartsOn L

/-- All expressions in progress began on lines of a kind. -/
def State.StartsOn (L : Nat → Prop) : State → Prop
  | .idle => True
  | .operand place p | .operator place p _ | .gap _ place p => place.StartsOn L ∧ p.StartsOn L

/-- The state after a token is such, or the error is on such a line. -/
def LinesAre (L : Nat → Prop) : Except SyntaxError State → Prop
  | .ok s => s.StartsOn L
  | .error e => L e.line

theorem startsOn_empty : Partial.StartsOn L {} := by
  intro t ht
  cases ht

/-- An expression in progress begins with the token at hand, if with none before. -/
theorem Partial.StartsOn.startAt (h : p.StartsOn L) (ht : L t.line) : (p.startAt t).StartsOn L := by
  intro u hu
  obtain rfl := Option.some.inj hu
  cases hstart : p.start? with
  | none => exact ht
  | some v => exact h v hstart

theorem Place.StartsOn.enter (h : place.StartsOn L) (hp : p.StartsOn L) (a : Around) :
    (place.enter a p).StartsOn L :=
  List.forall_mem_cons.mpr ⟨hp, h⟩

theorem lines_readOperand (h : place.StartsOn L) (hp : p.StartsOn L) (ht : L t.line) :
    LinesAre L (readOperand place p t) := by
  have hstart := hp.startAt ht
  unfold readOperand
  dsimp only
  split
  case h_7 | h_8 => exact ⟨h, hstart⟩
  case h_9 | h_10 => exact ⟨h.enter hstart _, startsOn_empty⟩
  case h_13 => exact ht
  all_goals exact ⟨h, hstart⟩

/-- One token behind an expression that has ended. -/
theorem lines_readAfter (h : place.StartsOn L) (e : Expr) (ht : L t.line) :
    LinesAre L (readAfter place e t) := by
  obtain ⟨around, finished⟩ := place
  cases around with
  | nil => exact lines_readOperand h startsOn_empty ht
  | cons x around =>
      obtain ⟨a, outer⟩ := x
      obtain ⟨houter, haround⟩ := List.forall_mem_cons.mp h
      have hup : Place.StartsOn L ⟨around, finished⟩ := haround
      unfold readAfter
      dsimp only
      split
      -- a token that was not due
      case h_2 | h_5 | h_8 | h_10 => exact ht
      -- the next expression of a block
      case h_12 | h_14 | h_16 => exact lines_readOperand (hup.enter houter _) startsOn_empty ht
      case h_3 | h_6 | h_9 => exact ⟨hup.enter houter _, startsOn_empty⟩
      all_goals exact ⟨hup, houter⟩

/-- An equals sign: what stands in front of it becomes a target, or the error is on
    the line where that began. -/
theorem lines_readEquals (h : place.StartsOn L) (hp : p.StartsOn L) (e : Expr) (ht : L t.line) :
    LinesAre L (readEquals place p e t) := by
  unfold readEquals
  split
  · exact ⟨h, startsOn_empty⟩
  · -- the first token of what stands in front is at fault
    show L (p.start?.getD t).line
    cases hstart : p.start? with
    | none => exact ht
    | some v => exact hp v hstart

/-- One token, where an operator may follow. -/
theorem lines_readOperator (h : place.StartsOn L) (hp : p.StartsOn L) (e : Expr)
    (ht : L t.line) : LinesAre L (readOperator place p e t) := by
  unfold readOperator
  split
  · exact ⟨h, hp⟩
  · exact lines_readEquals h hp e ht
  · split
    · exact ⟨h, hp⟩
    · exact lines_readAfter h _ ht

theorem lines_readGap (h : place.StartsOn L) (hp : p.StartsOn L) (g : Gap) (ht : L t.line) :
    LinesAre L (readGap g place p t) := by
  unfold readGap
  split
  case h_2 | h_4 => exact lines_readOperand (h.enter hp _) startsOn_empty ht
  case h_7 | h_9 | h_15 => exact ⟨h.enter hp _, startsOn_empty⟩
  case h_6 | h_8 | h_11 | h_13 | h_16 => exact ht
  all_goals exact ⟨h, hp⟩

/-- One token on such a line: the reader goes on, or complains of such a line. -/
theorem lines_step {s : State} (h : s.StartsOn L) (ht : L t.line) : LinesAre L (s.step t) := by
  cases s with
  | idle => exact lines_readOperand (List.forall_mem_nil _) startsOn_empty ht
  | operand place p => exact lines_readOperand h.1 h.2 ht
  | operator place p e => exact lines_readOperator h.1 h.2 e ht
  | gap g place p => exact lines_readGap h.1 h.2 g ht

/-- The reader comes from one state to another, and this is left of the tokens. -/
inductive Passes (s : State) (ts : List Token) : State → List Token → Prop where
  | here : Passes s ts s ts
  | next {s' s'' : State} {t : Token} {rest : List Token} : Passes s ts s' (t :: rest) →
      (t.isEnd = true → s'.complete? = none) → s'.step t = .ok s'' → Passes s ts s'' rest

variable {s s' : State} {ts rest : List Token}

/-- Reading goes on from every state that it comes to. -/
theorem Passes.run_eq (h : Passes s ts s' rest) : s.run ts = s'.run rest := by
  induction h with
  | here => rfl
  | @next s' s'' t rest _ hc hs ih =>
      have hgo : (if t.isEnd then s'.complete? else none) = none := by
        split
        · next he => exact hc he
        · rfl
      rw [ih]
      conv_lhs => rw [State.run, hgo]
      simp only [hs]

/-- The end of the input is not passed. -/
theorem Passes.end_left (h : Passes s ts s' rest) (hend : ∃ t ∈ ts, t.isEnd = true) :
    ∃ t ∈ rest, t.isEnd = true := by
  induction h with
  | here => exact hend
  | @next s' s'' t rest _ _ hs ih =>
      obtain ⟨u, hu, hisEnd⟩ := ih
      rcases List.mem_cons.mp hu with rfl | hu
      · exact absurd hs (step_end hisEnd)
      · exact ⟨u, hu, hisEnd⟩

/-- If the input has an end, all complaints are on lines of its tokens. -/
theorem State.StartsOn.run_error_line {e : SyntaxError} (h : s.StartsOn L)
    (hts : ∀ t ∈ ts, L t.line) (hend : ∃ t ∈ ts, t.isEnd = true) (hr : s.run ts = .error e) :
    L e.line := by
  induction ts generalizing s with
  | nil =>
      obtain ⟨t, ht, -⟩ := hend
      cases ht
  | cons t ts ih =>
      obtain ⟨ht, hrest⟩ := List.forall_mem_cons.mp hts
      have hstep := lines_step h ht
      rw [State.run] at hr
      split at hr
      · cases hr
      · split at hr
        · next next hs =>
            rw [hs] at hstep
            obtain ⟨u, hu, hisEnd⟩ := hend
            rcases List.mem_cons.mp hu with rfl | hu
            · exact absurd hs (step_end hisEnd)
            · exact ih hstep hrest ⟨u, hu, hisEnd⟩ hr
        · next err hs =>
            rw [hs] at hstep
            cases hr
            exact hstep

end Reader

/-! ## Units -/

namespace Program

variable {source : String} {program : Program}

/-- There is a mark at the end of the tokens. -/
theorem exists_end {tokens : List Token} (h : Token.scan source = .ok tokens) :
    ∃ t ∈ tokens, t.isEnd = true := by
  obtain ⟨ts, last, rfl, hlast, -⟩ := Token.scan_readable h
  exact ⟨last, List.mem_append_right _ (List.mem_singleton_self _), hlast⟩

/-- A source that cannot be read is at fault on one of its lines. -/
theorem read_error_line {e : SyntaxError} (h : read source = .error e) :
    IsLineOf source e.line := by
  have hlines := Token.scan_lines source
  unfold read at h
  split at h
  · next tokens hscan =>
      rw [hscan] at hlines
      have hstart : Reader.State.idle.StartsOn (IsLineOf source) := trivial
      exact hstart.run_error_line hlines (exists_end hscan) h
  · next fault hscan =>
      rw [hscan] at hlines
      cases h
      exact hlines

/-- The nodes of a program are on lines of its source. -/
theorem node_line (h : read source = .ok program) {p : Expr} (hp : program.HasNode p) :
    IsLineOf source p.line := by
  have hlines := Token.scan_lines source
  unfold read at h
  split at h
  · next tokens hscan =>
      rw [hscan] at hlines
      obtain ⟨t, ht, hline⟩ := exists_token_of_node h hp
      rw [← hline]
      exact hlines t ht
  · cases h

end Program

/-! ## Sessions -/

open Session

/-- The code of some units: the nodes of their programs, and lines of them. -/
def Trait.ofUnits (units : List Submission) : Trait where
  closure c := ∀ e ∈ c.body, ∃ u ∈ units, ∃ program,
    Program.read u.source = .ok program ∧ program.HasNode e
  code e := ∃ u ∈ units, ∃ program, Program.read u.source = .ok program ∧ program.HasNode e
  block _ := True
  line n := ∃ u ∈ units, ∃ program, Program.read u.source = .ok program ∧
    ∃ e, program.HasNode e ∧ e.line = n
  builtins _ := True
  part := by
    rintro e p ⟨u, hu, program, hread, he⟩ hp
    exact ⟨u, hu, program, hread, he.within (.part (.self p) hp)⟩
  line_of_code := by
    rintro e ⟨u, hu, program, hread, he⟩
    exact ⟨u, hu, program, hread, e, he, rfl⟩
  block_of_code _ _ _ := trivial
  block_rest _ := trivial
  body h := h
  block_of_closure _ := trivial
  scope _ := trivial

/-- Closures that are made of code of units have code of units. -/
theorem Trait.closes_ofUnits (units : List Submission) : (Trait.ofUnits units).Closes :=
  fun _ _ hcode _ _ he => (Trait.ofUnits units).part hcode he

/-- Handing over a unit, as an act. -/
def Session.Submission.act : Submission → Act
  | .interpret source => .interpret source
  | .run source => .run source

/-- A unit brings its own code. -/
theorem Session.Submission.brings {units : List Submission} {u : Submission} (h : u ∈ units) :
    u.act.Brings (.ofUnits units) := by
  cases u <;> exact fun program hread e he => ⟨_, h, program, hread, .of_mem he⟩

namespace Desk

variable {σ : Type} [Host σ]

theorem allows_units (d : Desk σ) (units : List Submission) :
    d.Allows (units.map Submission.act) := by
  induction units generalizing d with
  | nil => trivial
  | cons u units ih =>
      refine ⟨?_, ih _⟩
      cases u <;> trivial

/-- The session and the host after units, as acts. -/
theorem actAll_units (d : Desk σ) (units : List Submission) :
    (d.actAll (units.map Submission.act)).session = (d.session.submitAll d.host units).1 ∧
      (d.actAll (units.map Submission.act)).host = (d.session.submitAll d.host units).2 := by
  induction units generalizing d with
  | nil => exact ⟨rfl, rfl⟩
  | cons u units ih => cases u <;> exact ih _

end Desk

/-- An error is on a line of the source: a static one of the last unit, one
    during evaluation of a unit with a node on that line. -/
def Error.Located (units : List Submission) (last : Submission) : Error → Prop
  | .static e => IsLineOf last.source e.line
  | .runtime e => ∃ u ∈ units, ∃ program, Program.read u.source = .ok program ∧
      (∃ node, program.HasNode node ∧ node.line = e.line) ∧ IsLineOf u.source e.line

namespace Session

variable {σ : Type} [Host σ]

/-- An error during the last of some units is on the line of a node of one of
    them. -/
theorem runtime_error_line (settings : Settings) (randomness : Randomness) (host : σ)
    (earlier : List Submission) (u : Submission) {err : RuntimeError}
    (h : let after := (Session.new settings randomness).submitAll host earlier
      ((after.1.interpret u.source).run after.2).1.1 = .error (.runtime err)) :
    (Trait.ofUnits (earlier ++ [u])).line err.line := by
  let T := Trait.ofUnits (earlier ++ [u])
  have hT : T.Closes := Trait.closes_ofUnits _
  let d := (Desk.opened settings randomness host).actAll (earlier.map Submission.act)
  have hkeeps : d.Keeps T := by
    refine (Desk.keeps_opened settings randomness host trivial).actAll hT (Desk.allows_units _ _) ?_
    intro a ha
    obtain ⟨v, hv, rfl⟩ := List.mem_map.mp ha
    exact Submission.brings (List.mem_append_left _ hv)
  obtain ⟨hsession, hhost⟩ := Desk.actAll_units (Desk.opened settings randomness host) earlier
  have hbegin : (d.session.machine d.host (.read u.source)).Keeps T := by
    have hbrings : u.act.Brings T :=
      Submission.brings (List.mem_append_right _ (List.mem_singleton_self u))
    cases u with
    | interpret source => exact hkeeps.begin (a := .interpret source) trivial hbrings rfl
    | run source => exact hkeeps.begin (a := .run source) trivial hbrings rfl
  rcases hout : (d.session.interpret u.source).run d.host with ⟨⟨r, s'⟩, host'⟩
  have hlast := hbegin.reaches hT (reaches_interpret hout)
  have hr : r = .error (.runtime err) := by
    rw [hsession, hhost] at hout
    have hfirst := congrArg (fun out => out.1.1) hout
    exact hfirst.symm.trans h
  subst hr
  exact List.forall_mem_singleton.mp hlast.control.lines

/-- What is reported of a unit that fails. -/
theorem run_reports {s s' : Session} {host host' : σ} {source : String} {e : Error}
    (h : (s.interpret source).run host = ((.error e, s'), host')) :
    (s.run source).run host = ((none, s'), (Host.answer (.report e.report) host').2) := by
  rw [run, Dialogue.run_nest, h]
  rfl

/-- **Errors are on lines of the source.**  Whatever units a new session has been
    given, if the last one fails, then a static error is on a line of that unit,
    and an error during evaluation is on the line of a node of the program of one
    of the units, which is a line of that unit; and so is the report that the
    host gets.  All nodes are on lines of their source; and reading the tokens of
    a source never runs out of tokens. -/
theorem errors_on_source_lines (settings : Settings) (randomness : Randomness) (host : σ)
    (earlier : List Submission) (u : Submission) :
    (let after := (Session.new settings randomness).submitAll host earlier
      ∀ e s' host', (after.1.interpret u.source).run after.2 = ((.error e, s'), host') →
        e.Located (earlier ++ [u]) u ∧ e.report.line = e.line ∧
        (after.1.run u.source).run after.2
          = ((none, s'), (Host.answer (.report e.report) host').2)) ∧
    (∀ source program node, Program.read source = .ok program → program.HasNode node →
      IsLineOf source node.line) ∧
    ∀ source tokens s rest, Token.scan source = .ok tokens →
      Reader.Passes .idle tokens s rest →
        rest ≠ [] ∧ Program.ofTokens tokens = s.run rest := by
  refine ⟨?_, ?_, ?_⟩
  · intro after e s' host' h
    refine ⟨?_, ?_, run_reports h⟩
    · cases e with
      | static e =>
          cases hread : Program.read u.source with
          | error e' =>
              rw [run_interpret_unreadable hread] at h
              cases h
              exact Program.read_error_line hread
          | ok program =>
              rcases hp : (after.1.evalProgram [] program).run after.2 with ⟨⟨r, s₁⟩, host₁⟩
              rw [run_interpret_readable hread hp] at h
              cases r <;> cases h
      | runtime err =>
          have herror : ((after.1.interpret u.source).run after.2).1.1 = .error (.runtime err) := by
            rw [h]
          obtain ⟨v, hv, program, hread, node, hnode, hline⟩ :=
            runtime_error_line settings randomness host earlier u herror
          refine ⟨v, hv, program, hread, ⟨node, hnode, hline⟩, ?_⟩
          rw [← hline]
          exact Program.node_line hread hnode
    · cases e <;> rfl
  · intro source program node hread hnode
    exact Program.node_line hread hnode
  · intro source tokens s rest hscan hp
    refine ⟨?_, hp.run_eq⟩
    rintro rfl
    obtain ⟨t, ht, -⟩ := hp.end_left (Program.exists_end hscan)
    cases ht

/-- A function of an earlier unit fails on the second line of that unit, though
    the unit that calls it has one line. -/
theorem errors_on_source_lines_earlier :
    let settings : Settings := { maxDepth := 1 }
    let earlier : List Submission := [.interpret "f = \\x \x7b\n  y \x7d"]
    let u : Submission := .run "f(nil)"
    let start := Session.new settings fun _ => .always 0
    let after := start.submitAll ({} : Buffer) earlier
    let e : Error := .runtime (.undefinedSymbol "y" 2)
    (∃ s' host', (after.1.interpret u.source).run after.2 = ((.error e, s'), host')) ∧
      e.Located (earlier ++ [u]) u := by
  intro settings earlier u start after e
  let c : Closure Value := ⟨0, ["x"], [.symbol "y" 2], .ofBuiltins builtinFrame, some "f"⟩
  let s : Session :=
    ⟨settings, ⟨⟨⟨[("f", .function (.closure c))]⟩, [], builtinFrame⟩, .always 0, 1⟩, 0⟩
  let call : Expr := .call (.symbol "f" 1) [.literal .nil 1] 1
  have hafter : start.submitAll ({} : Buffer) earlier = (s, {}) := rfl
  have hread : Program.read "f(nil)" = .ok [call] := rfl
  have heval : (s.eval call).run ({} : Buffer) = ((.error (.undefinedSymbol "y" 2), s), {}) := rfl
  have hfails : (after.1.interpret u.source).run after.2
      = ((.error e, { s.withEnv s.env with depth := 0 }), {}) := by
    show ((start.submitAll ({} : Buffer) earlier).1.interpret "f(nil)").run
      (start.submitAll ({} : Buffer) earlier).2 = _
    rw [hafter]
    exact run_interpret_readable hread (run_evalProgram_error heval)
  have hlines := (errors_on_source_lines settings (fun _ => .always 0) ({} : Buffer) earlier u).1
  exact ⟨⟨_, _, hfails⟩, (hlines _ _ _ hfails).1⟩

end Session

end Scriptlet
