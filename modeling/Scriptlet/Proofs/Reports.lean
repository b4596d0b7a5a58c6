import Scriptlet.Buffer
import Scriptlet.Proofs.ErrorLines
import Scriptlet.Proofs.FirstFault
import Scriptlet.Proofs.Quoting

/-! # What a report says of the end of the input

    A report ends with the text that its error is near to, or, if that text is
    empty, with the words "at end of input".  So which of the two it says hangs on
    which texts can be empty.  The lexemes of a source are not, but for the one of
    its end; nor are expressions that are written out, as long as their symbols
    have names, as those of a source have.

    Hence a report speaks of the end of the input when the tokens of the source
    could go on but end, and then rightly so.  But it does so after an overflow as
    well, wherever that happens, since an overflow is near to nothing. -/

namespace Scriptlet

/-! ## The two forms of a report -/

namespace Report

/-- What a report begins with. -/
def opening (r : Report) : String :=
  "Error on line " ++ toString r.line ++ ": " ++ r.kind.text ++ " (" ++ r.severity.text ++ ")"

/-- The report speaks of the end of the input. -/
def SaysEnd (r : Report) : Prop :=
  r.text = r.opening ++ " at end of input."

/-- The report tells a text that the error is near to. -/
def SaysNear (r : Report) (near : String) : Prop :=
  r.text = r.opening ++ " near \"" ++ near ++ "\"."

/-- Without a place, a report speaks of the end of the input. -/
theorem saysEnd_of_near {r : Report} (h : r.near = "") : r.SaysEnd :=
  if_pos (String.isEmpty_iff.mpr h)

/-- With a place, it names the place. -/
theorem saysNear_of_near {r : Report} (h : r.near ≠ "") : r.SaysNear r.near :=
  if_neg fun hempty => h (String.isEmpty_iff.mp hempty)

/-- The two forms differ right behind the opening. -/
theorem SaysNear.not_saysEnd {r : Report} {near : String} (h : r.SaysNear near) : ¬ r.SaysEnd := by
  intro hend
  have hsame : r.opening ++ (" near \"" ++ (near ++ "\".")) = r.opening ++ " at end of input." := by
    rw [← String.append_assoc, ← String.append_assoc]
    exact h.symm.trans hend
  have htail := congrArg String.toList ((String.append_right_inj _).mp hsame)
  rw [String.toList_append] at htail
  cases htail

/-- A report speaks of the end exactly when it has no place. -/
theorem saysEnd_iff {r : Report} : r.SaysEnd ↔ r.near = "" := by
  constructor
  · intro hend
    by_contra hnear
    exact (saysNear_of_near hnear).not_saysEnd hend
  · exact saysEnd_of_near

end Report

/-! ## Texts that are not empty -/

namespace Number

theorem positional_ne_nil (d : Decimal) : positional d ≠ [] := by
  unfold positional
  dsimp only
  split
  · exact List.append_ne_nil_of_left_ne_nil Nat.toDigits_ne_nil _
  · split
    · exact List.cons_ne_nil _ _
    · exact List.append_ne_nil_of_right_ne_nil _ (List.cons_ne_nil _ _)

theorem magnitudeText_ne_nil (bits : Nat) : magnitudeText bits ≠ [] := by
  unfold magnitudeText
  split
  · exact List.cons_ne_nil _ _
  · split
    · decide
    · exact positional_ne_nil _

/-- A number has a text. -/
theorem chars_ne_nil (x : Float) : chars x ≠ [] := by
  unfold chars
  split
  · decide
  · split
    · exact List.cons_ne_nil _ _
    · exact magnitudeText_ne_nil _

end Number

theorem Literal.write_ne_nil (value : Literal) (rest : List Char) : value.write rest ≠ [] := by
  cases value with
  | nil => exact List.cons_ne_nil _ _
  | bool b => cases b <;> exact List.cons_ne_nil _ _
  | number x => exact List.append_ne_nil_of_left_ne_nil (Number.chars_ne_nil x) _
  | string s => exact List.cons_ne_nil _ _

theorem Builtin.name_ne_empty (b : Builtin) : b.name ≠ "" := by
  cases b <;> decide

/-- A function has a text. -/
theorem Callable.text_ne_empty (f : Callable Value) : f.text ≠ "" := by
  intro h
  have hchars := congrArg String.toList h
  cases f with
  | builtin b =>
      simp only [Callable.text, String.toList_append] at hchars
      cases hchars
  | closure c =>
      simp only [Callable.text, String.toList_append] at hchars
      cases hchars

namespace Expr

/-- Nothing is written for an expression only if it is a symbol without a name. -/
theorem text_eq_empty_iff {e : Expr} : e.text = "" ↔ ∃ n, e = .symbol "" n := by
  have hfront : ∀ (e : Expr) (c : Char) (cs : List Char), e.write (c :: cs) ≠ [] := by
    intro e c cs
    have happend := e.onto_write [] (c :: cs)
    rw [List.nil_append] at happend
    rw [happend]
    exact List.append_ne_nil_of_right_ne_nil _ (List.cons_ne_nil _ _)
  rw [text, String.ofList_eq_empty_iff]
  constructor
  · intro h
    cases e with
    | symbol name n =>
        refine ⟨n, ?_⟩
        rw [write, List.append_nil] at h
        rw [String.toList_eq_nil_iff.mp h]
    | literal value n => exact absurd h (value.write_ne_nil [])
    | define name value n =>
        exact absurd h (List.append_ne_nil_of_right_ne_nil _ (List.cons_ne_nil _ _))
    | unary op operand n =>
        cases op <;> exact absurd h (List.cons_ne_nil _ _)
    | binary op lhs rhs n => exact absurd h (hfront lhs _ _)
    | call callee args n => exact absurd h (hfront callee _ _)
    | list | group | choice | function => exact absurd h (List.cons_ne_nil _ _)
  · rintro ⟨n, rfl⟩
    rfl

/-- Every symbol in the expression has a name. -/
def Named (e : Expr) : Prop :=
  ∀ name n, (Expr.symbol name n).Within e → name ≠ ""

/-- The parts of an expression have names where it has. -/
theorem Named.part {e p : Expr} (h : e.Named) (hp : p ∈ e.parts) : p.Named :=
  fun name n hwithin => h name n (.part hwithin hp)

/-- An expression whose symbols have names has a text. -/
theorem Named.text_ne_empty {e : Expr} (h : e.Named) : e.text ≠ "" := by
  intro hempty
  obtain ⟨n, rfl⟩ := text_eq_empty_iff.mp hempty
  exact h "" n (.self _) rfl

end Expr

/-- The symbols of a source have names. -/
theorem Program.named_of_read {source : String} {program : Program} {e : Expr}
    (h : read source = .ok program) (he : e ∈ program) : e.Named := by
  intro name n hwithin
  have hnode : program.HasNode (.symbol name n) := ⟨e, he, hwithin⟩
  have hslot : Slot.naming (.identifier name) n ∈ program.slots :=
    hnode.slots_subset (List.mem_singleton_self _)
  obtain ⟨c, part, rfl, -⟩ : Token.IsName name :=
    (readable_of_read h).2 _ (List.mem_map_of_mem hslot)
  rw [ne_eq, String.ofList_eq_empty_iff]
  exact List.cons_ne_nil _ _

/-! ## Static errors -/

namespace Token

/-- The tokens have lexemes, but for the last, which is the end; and a fault has
    one. -/
def Worded : Except SyntaxError (List Token) → Prop
  | .ok tokens => ∃ ts n, tokens = ts ++ [endAt n] ∧ ∀ t ∈ ts, t.lexeme ≠ ""
  | .error e => e.near ≠ ""

/-- Every token but the end was made of some characters. -/
theorem scanFrom_worded {line skip : Nat} {done : List Token} {cs : List Char}
    (hdone : ∀ t ∈ done, t.lexeme ≠ "") : Worded (scanFrom line skip done cs) := by
  induction cs generalizing line skip done with
  | nil =>
      refine ⟨done.reverse, line, List.reverse_cons, ?_⟩
      exact fun t ht => hdone t (List.mem_reverse.mp ht)
  | cons c cs ih =>
      cases skip with
      | succ skip => exact ih hdone
      | zero =>
          -- a piece has its first character at least
          have hlexeme : ∀ part : List Char, String.ofList (c :: part) ≠ "" := by
            intro part
            rw [ne_eq, String.ofList_eq_empty_iff]
            exact List.cons_ne_nil _ _
          unfold scanFrom
          dsimp only
          split
          · exact ih hdone
          · exact ih (List.forall_mem_cons.mpr ⟨hlexeme _, hdone⟩)
          · next f _ => cases f <;> exact hlexeme _

theorem scan_worded (source : String) : Worded (scan source) :=
  scanFrom_worded (List.forall_mem_nil _)

end Token

/-- The error is about the end of the source: all tokens before it can go on, with
    the end they cannot, and the error names the end. -/
def SyntaxError.AtEndOf (source : String) (e : SyntaxError) : Prop :=
  ∃ front last, Token.scan source = .ok (front ++ [last]) ∧ last.isEnd = true ∧
    Viable front ∧ ¬ Viable (front ++ [last]) ∧ Reader.Names e last

/-- A token that is refused is named, or it is not the end, and one of the tokens
    before it is named. -/
theorem Reader.Refuses.names {front : List Token} {s : State} {t : Token} {e : SyntaxError}
    (h : Refuses s t e) (hs : Steps .idle front s) :
    Names e t ∨ t.isEnd = false ∧ ∃ start ∈ front, Names e start := by
  by_cases hequal : s.isOperator = true ∧ t.kind = .mark .equal
  · obtain ⟨hoperator, hkind⟩ := hequal
    obtain ⟨start, ⟨before, mid, _, rfl, -⟩, rfl⟩ :=
      exists_namelessTarget hs hoperator hkind h.2
    refine .inr ⟨Token.isEnd_eq_false ?_, start, ?_, rfl, rfl⟩
    · rw [hkind]
      nofun
    · exact List.mem_append_right _ List.mem_cons_self
  · exact .inl (names_of_step h.2 fun hoperator hkind => hequal ⟨hoperator, hkind⟩)

/-- A static error has no lexeme just if it is about the end of the source. -/
theorem SyntaxError.near_eq_empty_iff {source : String} {e : SyntaxError}
    (h : Program.read source = .error e) : e.near = "" ↔ e.AtEndOf source := by
  have hworded := Token.scan_worded source
  constructor
  · intro hnear
    unfold Program.read at h
    split at h
    · next tokens hscan =>
        rw [hscan] at hworded
        obtain ⟨ts, n, rfl, hts⟩ := hworded
        obtain ⟨front, rest, s, hsplit, hs, ⟨rfl, -⟩ | ⟨t, after, rfl, hrefuses⟩⟩ :=
          Reader.exists_refused h
        · -- the end would have been passed
          have hend : (Token.endAt n).isEnd = false := by
            refine hs.isEnd_eq_false _ ?_
            rw [List.append_nil] at hsplit
            rw [← hsplit]
            exact List.mem_append_right _ (List.mem_singleton_self _)
          cases hend
        · rcases List.eq_nil_or_concat after with rfl | ⟨after, u, rfl⟩
          · obtain ⟨rfl, hlast⟩ := List.append_inj' hsplit rfl
            cases hlast
            rcases hrefuses.names hs with hnames | ⟨hend, -⟩
            · exact ⟨ts, .endAt n, hscan, rfl, hs.viable, hrefuses.not_viable hs, hnames⟩
            · cases hend
          · -- the refused token and those before it have lexemes
            rw [List.concat_eq_append, ← List.cons_append, ← List.append_assoc] at hsplit
            obtain ⟨rfl, -⟩ := List.append_inj' hsplit rfl
            obtain ⟨hfront, hrest⟩ := List.forall_mem_append.mp hts
            rcases hrefuses.names hs with ⟨hlexeme, -⟩ | ⟨-, start, hstart, hlexeme, -⟩
            · exact absurd (hlexeme.symm.trans hnear) (hrest t List.mem_cons_self)
            · exact absurd (hlexeme.symm.trans hnear) (hfront start hstart)
    · next fault hscan =>
        rw [hscan] at hworded
        cases h
        exact absurd hnear hworded
  · rintro ⟨front, last, hscan, hlast, -, -, hnear, -⟩
    rw [hscan] at hworded
    obtain ⟨ts, n, htokens, -⟩ := hworded
    obtain ⟨-, hlast⟩ := List.append_inj' htokens rfl
    cases hlast
    exact hnear

/-! ## Errors during evaluation -/

/-- Code whose symbols have names, and closures of it. -/
def Trait.named : Trait where
  closure c := ∀ e ∈ c.body, e.Named
  code := Expr.Named
  block _ := True
  line _ := True
  builtins _ := True
  part h hp := h.part hp
  line_of_code _ := trivial
  block_of_code _ _ _ := trivial
  block_rest _ := trivial
  body h := h
  block_of_closure _ := trivial
  scope _ := trivial

/-- Closures that are made of such code have such code. -/
theorem Trait.closes_named : Trait.named.Closes :=
  fun _ _ hcode _ _ he => Expr.Named.part hcode he

theorem Act.brings_named {a : Act} (h : ∀ e, a = .eval e → e.Named) : a.Brings .named := by
  cases a with
  | interpret | run => exact fun _ hread _ he => Program.named_of_read hread he
  | eval e => exact h e rfl
  | _ => trivial

/-- Of the errors that quote code with names, only an overflow has no text. -/
theorem RuntimeError.Quotes.near_eq_empty_iff {limit : Nat} {err : RuntimeError}
    (h : err.Quotes Expr.Named limit) : err.near = "" ↔ ∃ n, err = .stackOverflow limit n := by
  constructor
  · intro hnear
    cases h with
    | undefinedSymbol hcode => exact absurd hnear (hcode _ _ (.self _))
    | uncallableValue hcode | incompatibleTypes hcode | divisionByZero hcode
    | argumentCount hcode => exact absurd hnear hcode.text_ne_empty
    | calledBack f => exact absurd hnear f.text_ne_empty
    | contractViolation b => exact absurd hnear b.name_ne_empty
    | stackOverflow => exact ⟨_, rfl⟩
  · rintro ⟨n, rfl⟩
    rfl

/-! ## Sessions -/

/-- The error is about the end of the source, or it is an overflow. -/
def Error.AtEndOrOverflow (source : String) (limit : Nat) : Error → Prop
  | .static e => e.AtEndOf source
  | .runtime err => ∃ n, err = .stackOverflow limit n

namespace Session

variable {σ : Type} [Host σ]

/-- A unit that cannot be read has a static error, and no other unit has one. -/
theorem read_of_static_error {s s' : Session} {host host' : σ} {source : String} {e : SyntaxError}
    (h : (s.interpret source).run host = ((.error (.static e), s'), host')) :
    Program.read source = .error e := by
  cases hread : Program.read source with
  | error e' =>
      rw [run_interpret_unreadable hread] at h
      cases h
      rfl
  | ok program =>
      rcases hp : (s.evalProgram [] program).run host with ⟨⟨r, s₁⟩, host₁⟩
      rw [run_interpret_readable hread hp] at h
      cases r <;> cases h

end Session

namespace Desk

variable {σ : Type} [Host σ]

/-- **When a report speaks of the end of the input.**  Whatever a host has done
    with a session, as long as the symbols in expressions of its own have names: if
    a source unit fails, its error is reported.  The report says that it is at the
    end of the input if the error is static and about the end of the source, or if
    it is an overflow, and in no other case.  In all others it tells a text that
    is not empty. -/
theorem report_says_end_iff (settings : Settings) (randomness : Randomness) (host : σ)
    (acts : List Act)
    (hallowed : (opened settings randomness host).Allows acts)
    (hnamed : ∀ e, Act.eval e ∈ acts → e.Named) (source : String) :
    let d := (opened settings randomness host).actAll acts
    ∀ e s' host', (d.session.interpret source).run d.host = ((.error e, s'), host') →
      (d.session.run source).run d.host
        = ((none, s'), (Host.answer (.report e.report) host').2) ∧
      (e.report.SaysEnd ↔ e.AtEndOrOverflow source d.session.settings.maxDepth) ∧
      (¬ e.AtEndOrOverflow source d.session.settings.maxDepth →
        e.report.near ≠ "" ∧ e.report.SaysNear e.report.near) := by
  intro d e s' host' hout
  have hkeeps : d.Keeps .named := by
    refine (keeps_opened settings randomness host trivial).actAll Trait.closes_named hallowed ?_
    intro a ha
    refine Act.brings_named ?_
    rintro e rfl
    exact hnamed e ha
  have hnear : e.report.near = "" ↔ e.AtEndOrOverflow source d.session.settings.maxDepth := by
    cases e with
    | static e => exact SyntaxError.near_eq_empty_iff (Session.read_of_static_error hout)
    | runtime err =>
        have hquotes : err.Quotes Expr.Named d.session.settings.maxDepth :=
          hkeeps.quotes Trait.closes_named (Act.brings_named nofun) hout
        exact hquotes.near_eq_empty_iff
  refine ⟨Session.run_reports hout, Report.saysEnd_iff.trans hnear, ?_⟩
  intro hother
  have hne : e.report.near ≠ "" := fun hempty => hother (hnear.mp hempty)
  exact ⟨hne, Report.saysNear_of_near hne⟩

/-- A function that calls itself once too often: the report speaks of the end of
    the input, though the error is in the middle of a unit that was read before. -/
theorem report_says_end_iff_overflow :
    let settings : Settings := { maxDepth := 1 }
    let acts : List Act := [.interpret "f = \\x \x7b f(x) \x7d", .eval (.symbol "f" 1)]
    let start := opened settings (fun _ => .always 0) ({} : Buffer)
    let d := start.actAll acts
    let e : Error := .runtime (.stackOverflow 1 1)
    start.Allows acts ∧ (∀ e, Act.eval e ∈ acts → e.Named) ∧
      (∃ s' host', (d.session.interpret "f(nil)").run d.host = ((.error e, s'), host')) ∧
      e.report.SaysEnd ∧
      e.report.text = "Error on line 1: stack overflow (runtime error) at end of input." := by
  intro settings acts start d e
  let c : Closure Value :=
    ⟨0, ["x"], [.call (.symbol "f" 1) [.symbol "x" 1] 1], .ofBuiltins builtinFrame, some "f"⟩
  let s : Session :=
    ⟨settings, ⟨⟨⟨[("f", .function (.closure c))]⟩, [], builtinFrame⟩, .always 0, 1⟩, 0⟩
  let call : Expr := .call (.symbol "f" 1) [.literal .nil 1] 1
  have hallowed : start.Allows acts := ⟨trivial, trivial, trivial⟩
  have hnamed : ∀ e, Act.eval e ∈ acts → e.Named := by
    intro e he
    obtain rfl : e = .symbol "f" 1 := by simpa [acts] using he
    intro name n hwithin
    cases hwithin with
    | self => decide
    | part _ hp => cases hp
  have hsession : d.session = s := rfl
  have hhost : d.host = {} := rfl
  have hread : Program.read "f(nil)" = .ok [call] := rfl
  have heval : (s.eval call).run ({} : Buffer) = ((.error (.stackOverflow 1 1), s), {}) := rfl
  have hfails : (d.session.interpret "f(nil)").run d.host
      = ((.error e, { s.withEnv s.env with depth := 0 }), {}) := by
    rw [hsession, hhost]
    exact Session.run_interpret_readable hread (Session.run_evalProgram_error heval)
  have hreport := report_says_end_iff settings (fun _ => .always 0) ({} : Buffer) acts hallowed
    hnamed "f(nil)"
  have hend : e.report.SaysEnd := (hreport e _ _ hfails).2.1.mpr ⟨1, rfl⟩
  have htext : (Error.runtime (.stackOverflow 1 1)).report.text
      = "Error on line 1: stack overflow (runtime error) at end of input." := by decide
  exact ⟨hallowed, hnamed, ⟨_, _, hfails⟩, hend, htext⟩

end Desk

end Scriptlet
