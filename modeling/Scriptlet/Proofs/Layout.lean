import Scriptlet.Buffer
import Scriptlet.Proofs.Bodies
import Scriptlet.Proofs.Units

/-! # Layout carries no meaning

    Blanks, line breaks, comments and the ways to spell a string are gone when a
    source text has been cut into tokens, but for the lexeme and the line that
    each token carries.  The reader hands lines on to nodes and quotes lexemes in
    errors, and decides nothing by either: it commutes with stripping both from
    tokens and states (`Reader.State.step_bare`, `Reader.State.run_bare`).  So
    tokens of the same kinds make programs that differ in lines only, and these
    come to the same. -/

namespace Scriptlet

/-! ## Without lexemes and lines -/

/-- The token without its lexeme and line. -/
def Token.bare (t : Token) : Token :=
  ⟨t.kind, "", 1⟩

/-- The error without lexeme and line. -/
def SyntaxError.bare : SyntaxError → SyntaxError
  | .unterminatedString .. => .unterminatedString "" 1
  | .unrecognizedCharacter .. => .unrecognizedCharacter "" 1
  | .unknownEscape .. => .unknownEscape "" 1
  | .unmatchedParenthesis .. => .unmatchedParenthesis "" 1
  | .unexpectedToken .. => .unexpectedToken "" 1
  | .missingIdentifier .. => .missingIdentifier "" 1

/-- An error keeps its kind without its lexeme and line. -/
theorem SyntaxError.kind_bare (e : SyntaxError) : e.bare.kind = e.kind := by
  cases e <;> rfl

/-- Expressions that agree on one line differ in lines only. -/
theorem Expr.Relined.of_onLine {n : Nat} {e f : Expr} (h : e.onLine n = f.onLine n) :
    e.Relined f := by
  have h₀ := congrArg (onLine 0) h
  rwa [onLine_onLine, onLine_onLine] at h₀

/-- Items that were collected last one first. -/
theorem Expr.onLineAll_reverse (n : Nat) (es : List Expr) :
    onLineAll n es.reverse = (onLineAll n es).reverse := by
  rw [onLineAll_eq_map, onLineAll_eq_map, List.map_reverse]

namespace Reader

open Scriptlet.Expr (onLineAll onLineAll_reverse)

def Waiting.bare : Waiting → Waiting
  | .unary op _ => .unary op 1
  | .binary op lhs _ => .binary op (lhs.onLine 1) 1

def Partial.bare (p : Partial) : Partial where
  targets := p.targets.map fun target => (target.1, 1)
  waiting := p.waiting.map Waiting.bare
  start? := p.start?.map Token.bare

def Around.bare : Around → Around
  | .group _ => .group 1
  | .list items _ => .list (onLineAll 1 items) 1
  | .args callee items _ => .args (callee.onLine 1) (onLineAll 1 items) 1
  | .test _ => .test 1
  | .yes cond items _ => .yes (cond.onLine 1) (onLineAll 1 items) 1
  | .no cond ys items _ => .no (cond.onLine 1) (onLineAll 1 ys) (onLineAll 1 items) 1
  | .body params items _ => .body params (onLineAll 1 items) 1

def Place.bare (place : Place) : Place where
  around := place.around.map fun x => (x.1.bare, x.2.bare)
  finished := onLineAll 1 place.finished

def Gap.bare : Gap → Gap
  | .firstItem _ => .firstItem 1
  | .firstArg callee _ => .firstArg (callee.onLine 1) 1
  | .elseWord test yes _ => .elseWord (test.onLine 1) (onLineAll 1 yes) 1
  | .elseBlock test yes _ => .elseBlock (test.onLine 1) (onLineAll 1 yes) 1
  | .firstParam _ => .firstParam 1
  | .param params _ => .param params 1
  | .paramEnd params _ => .paramEnd params 1

/-- The state without lexemes and lines. -/
def State.bare : State → State
  | .idle => .idle
  | .operand place p => .operand place.bare p.bare
  | .operator place p e => .operator place.bare p.bare (e.onLine 1)
  | .gap g place p => .gap g.bare place.bare p.bare

/-- The outcome without lexemes and lines, where `f` strips a result. -/
def bareOutcome {α : Type} (f : α → α) : Except SyntaxError α → Except SyntaxError α
  | .ok a => .ok (f a)
  | .error e => .error e.bare

/-! ## One token -/

theorem Waiting.close_bare (w : Waiting) (e : Expr) :
    w.bare.close (e.onLine 1) = (w.close e).onLine 1 := by
  cases w <;> rfl

theorem Waiting.yieldsTo_bare (w : Waiting) (op : BinaryOp) :
    w.bare.yieldsTo op = w.yieldsTo op := by
  cases w <;> rfl

/-- Which waiting operators an operator closes does not depend on lines. -/
theorem Partial.closeFor_bare (op : BinaryOp) (ws : List Waiting) (e : Expr) :
    closeFor op (ws.map Waiting.bare) (e.onLine 1)
      = ((closeFor op ws e).1.map Waiting.bare, (closeFor op ws e).2.onLine 1) := by
  induction ws generalizing e with
  | nil => rfl
  | cons w ws ih =>
      rw [List.map_cons, closeFor, closeFor, w.yieldsTo_bare, w.close_bare]
      split
      · exact ih (w.close e)
      · rfl

/-- Which operators wait does not depend on lines. -/
theorem Partial.extend_bare (p : Partial) (op : BinaryOp) (e : Expr) (n : Nat) :
    p.bare.extend op (e.onLine 1) 1 = (p.extend op e n).bare := by
  show Partial.mk _ _ _ = Partial.mk _ _ _
  rw [show p.bare.waiting = p.waiting.map Waiting.bare from rfl, closeFor_bare]
  rfl

/-- But for its lines, what an expression in progress is finished to does not depend
    on lines. -/
theorem Partial.finish_bare (p : Partial) (e : Expr) :
    p.bare.finish (e.onLine 1) = (p.finish e).onLine 1 := by
  have hclose : ∀ (ws : List Waiting) (e : Expr),
      (ws.map Waiting.bare).foldl (fun e w => w.close e) (e.onLine 1)
        = (ws.foldl (fun e w => w.close e) e).onLine 1 := by
    intro ws
    induction ws with
    | nil => exact fun e => rfl
    | cons w ws ih =>
        intro e
        rw [List.map_cons, List.foldl_cons, List.foldl_cons, w.close_bare, ih]
  have hdefine : ∀ (targets : List (String × Nat)) (e : Expr),
      (targets.map fun target => (target.1, 1)).foldl
          (fun e target => Expr.define target.1 e target.2) (e.onLine 1)
        = (targets.foldl (fun e target => Expr.define target.1 e target.2) e).onLine 1 := by
    intro targets
    induction targets with
    | nil => exact fun e => rfl
    | cons target targets ih => exact fun e => ih (.define target.1 e target.2)
  rw [finish, finish, ← hdefine, ← hclose]
  rfl

theorem Partial.startAt_bare (p : Partial) (t : Token) :
    p.bare.startAt t.bare = (p.startAt t).bare := by
  obtain ⟨targets, waiting, start⟩ := p
  cases start <;> rfl

theorem readOperand_bare (place : Place) (p : Partial) (t : Token) :
    readOperand place.bare p.bare t.bare = bareOutcome State.bare (readOperand place p t) := by
  obtain ⟨kind, lexeme, n⟩ := t
  have hstart := p.startAt_bare ⟨kind, lexeme, n⟩
  unfold readOperand
  rw [hstart]
  cases kind with
  | keyword k => cases k <;> rfl
  | mark m => cases m <;> rfl
  | _ => rfl

theorem readAfter_bare (place : Place) (e : Expr) (t : Token) :
    readAfter place.bare (e.onLine 1) t.bare = bareOutcome State.bare (readAfter place e t) := by
  obtain ⟨around, finished⟩ := place
  cases around with
  | nil => exact readOperand_bare ⟨[], e :: finished⟩ {} t
  | cons x around =>
      obtain ⟨a, outer⟩ := x
      -- the next expression of a block
      have hnext : ∀ b : Around,
          readOperand ((Place.mk around finished).enter b outer).bare {} t.bare
            = bareOutcome State.bare
                (readOperand ((Place.mk around finished).enter b outer) {} t) :=
        fun b => readOperand_bare _ {} t
      have hclose : ∀ c : Expr, Except.ok (.operator (Place.mk around finished).bare outer.bare
          (c.onLine 1)) = bareOutcome State.bare (.ok (.operator ⟨around, finished⟩ outer c)) :=
        fun c => rfl
      have hitems := fun items => onLineAll_reverse 1 (e :: items)
      obtain ⟨kind, lexeme, n⟩ := t
      cases a with
      | group m | test m =>
          cases kind with
          | mark k => cases k <;> rfl
          | _ => rfl
      | list items m =>
          have hlist := hclose (.list (e :: items).reverse m)
          rw [Expr.onLine, hitems] at hlist
          cases kind with
          | mark k =>
              cases k with
              | rightBracket => exact hlist
              | _ => rfl
          | _ => rfl
      | args callee items m =>
          have hcall := hclose (.call callee (e :: items).reverse m)
          rw [Expr.onLine, hitems] at hcall
          cases kind with
          | mark k =>
              cases k with
              | rightParen => exact hcall
              | _ => rfl
          | _ => rfl
      | yes cond items m =>
          cases kind with
          | mark k =>
              cases k with
              | rightBrace =>
                  show Except.ok
                    (State.gap (.elseWord _ (onLineAll 1 (e :: items)).reverse 1) _ _) = _
                  rw [← hitems]
                  rfl
              | _ => exact hnext (.yes cond (e :: items) m)
          | _ => exact hnext (.yes cond (e :: items) m)
      | no cond ys items m =>
          have hchoice := hclose (.choice cond ys (e :: items).reverse m)
          rw [Expr.onLine, hitems] at hchoice
          cases kind with
          | mark k =>
              cases k with
              | rightBrace => exact hchoice
              | _ => exact hnext (.no cond ys (e :: items) m)
          | _ => exact hnext (.no cond ys (e :: items) m)
      | body params items m =>
          have hfunction := hclose (.function params (e :: items).reverse m)
          rw [Expr.onLine, hitems] at hfunction
          cases kind with
          | mark k =>
              cases k with
              | rightBrace => exact hfunction
              | _ => exact hnext (.body params (e :: items) m)
          | _ => exact hnext (.body params (e :: items) m)

theorem readEquals_bare (place : Place) (p : Partial) (e : Expr) (t : Token) :
    readEquals place.bare p.bare (e.onLine 1) t.bare
      = bareOutcome State.bare (readEquals place p e t) := by
  obtain ⟨targets, waiting, start⟩ := p
  -- the first token of what is no name is at fault
  have hmissing : missingName ((start.map Token.bare).getD t.bare)
      = bareOutcome State.bare (missingName (start.getD t)) := by
    cases start <;> rfl
  cases waiting with
  | cons w ws => exact hmissing
  | nil =>
      cases e with
      | symbol name n => rfl
      | _ => exact hmissing

theorem readOperator_bare (place : Place) (p : Partial) (e : Expr) (t : Token) :
    readOperator place.bare p.bare (e.onLine 1) t.bare
      = bareOutcome State.bare (readOperator place p e t) := by
  obtain ⟨kind, lexeme, n⟩ := t
  have hafter := readAfter_bare place (p.finish e) ⟨kind, lexeme, n⟩
  rw [← Partial.finish_bare] at hafter
  have hextend : ∀ op : BinaryOp,
      Except.ok (.operand place.bare (p.bare.extend op (e.onLine 1) 1))
        = bareOutcome State.bare (.ok (.operand place (p.extend op e n))) := by
    intro op
    rw [p.extend_bare op e n]
    rfl
  cases kind with
  | keyword k =>
      cases k with
      | and | or => exact hextend _
      | _ => exact hafter
  | mark m =>
      cases m with
      | leftParen => rfl
      | equal => exact readEquals_bare place p e _
      | plus | minus | star | slash | caret | colon | dotDot => exact hextend _
      | equalEqual | slashEqual | less | greater | lessEqual | greaterEqual => exact hextend _
      | _ => exact hafter
  | _ => exact hafter

theorem readGap_bare (g : Gap) (place : Place) (p : Partial) (t : Token) :
    readGap g.bare place.bare p.bare t.bare = bareOutcome State.bare (readGap g place p t) := by
  -- the first item of a list or of arguments
  have hfirst := fun a : Around => readOperand_bare (place.enter a p) {} t
  obtain ⟨kind, lexeme, n⟩ := t
  cases g with
  | firstItem m =>
      cases kind with
      | mark k =>
          cases k with
          | rightBracket => rfl
          | _ => exact hfirst (.list [] m)
      | _ => exact hfirst (.list [] m)
  | firstArg callee m =>
      cases kind with
      | mark k =>
          cases k with
          | rightParen => rfl
          | _ => exact hfirst (.args callee [] m)
      | _ => exact hfirst (.args callee [] m)
  | elseWord test yes m =>
      cases kind with
      | keyword k => cases k <;> rfl
      | _ => rfl
  | elseBlock test yes m | firstParam m | param params m | paramEnd params m =>
      cases kind with
      | mark k => cases k <;> rfl
      | _ => rfl

/-- Reading one token commutes with stripping lexemes and lines. -/
theorem State.step_bare (s : State) (t : Token) :
    s.bare.step t.bare = bareOutcome State.bare (s.step t) := by
  cases s with
  | idle => exact readOperand_bare {} {} t
  | operand place p => exact readOperand_bare place p t
  | operator place p e => exact readOperator_bare place p e t
  | gap g place p => exact readGap_bare g place p t

/-! ## All tokens -/

/-- Whether the tokens so far are a program does not depend on lines. -/
theorem State.complete?_bare (s : State) :
    s.bare.complete? = s.complete?.map (onLineAll 1) := by
  cases s with
  | operator place p e =>
      obtain ⟨around, finished⟩ := place
      cases around with
      | nil =>
          show some (p.bare.finish (e.onLine 1) :: onLineAll 1 finished).reverse
            = some (onLineAll 1 (p.finish e :: finished).reverse)
          rw [onLineAll_reverse, p.finish_bare]
          rfl
      | cons x around => rfl
  | _ => rfl

/-- Reading all tokens commutes with stripping lexemes and lines. -/
theorem State.run_bare (s : State) (ts : List Token) :
    s.bare.run (ts.map Token.bare) = bareOutcome (onLineAll 1) (s.run ts) := by
  induction ts generalizing s with
  | nil =>
      rw [List.map_nil, State.run, State.run, s.complete?_bare]
      cases s.complete? <;> rfl
  | cons t ts ih =>
      have hend : (if t.bare.isEnd then s.bare.complete? else none)
          = (if t.isEnd then s.complete? else none).map (onLineAll 1) := by
        rw [s.complete?_bare]
        show (if t.isEnd then _ else none) = _
        split <;> rfl
      rw [List.map_cons, State.run, State.run, hend, s.step_bare]
      cases (if t.isEnd then s.complete? else none) with
      | some program => rfl
      | none =>
          cases hstep : s.step t with
          | ok next => exact ih next
          | error e => rfl

end Reader

namespace Program

/-- Two lists of tokens of the same kinds make programs that differ in lines
    only, or errors of the same kind. -/
theorem ofTokens_relined {ts us : List Token} (h : ts.map Token.kind = us.map Token.kind) :
    ExceptLike (fun e f : SyntaxError => e.kind = f.kind) (List.Forall₂ Expr.Relined)
      (ofTokens ts) (ofTokens us) := by
  have hbare : ts.map Token.bare = us.map Token.bare := by
    have hkinds := congrArg (List.map fun kind => Token.mk kind "" 1) h
    rwa [List.map_map, List.map_map] at hkinds
  have hruns : Reader.bareOutcome (Expr.onLineAll 1) (ofTokens ts)
      = Reader.bareOutcome (Expr.onLineAll 1) (ofTokens us) := by
    rw [ofTokens, ofTokens, ← Reader.State.run_bare, ← Reader.State.run_bare, hbare]
  generalize ofTokens ts = r, ofTokens us = r' at hruns ⊢
  cases r with
  | ok p =>
      cases r' with
      | ok q =>
          have hlines := Except.ok.inj hruns
          rw [Expr.onLineAll_eq_map, Expr.onLineAll_eq_map, ← List.forall₂_eq_eq_eq,
            List.forall₂_map_left_iff, List.forall₂_map_right_iff] at hlines
          exact .ok (hlines.imp fun _ _ he => Expr.Relined.of_onLine he)
      | error f => cases hruns
  | error e =>
      cases r' with
      | ok q => cases hruns
      | error f =>
          refine .error ?_
          rw [← e.kind_bare, ← f.kind_bare, Except.error.inj hruns]

end Program

/-! ## Units -/

/-- Errors that differ in layout only: static ones of the same kind, or the same
    error during evaluation but for the line. -/
inductive Error.Relined : Error → Error → Prop where
  | static {e f : SyntaxError} : e.kind = f.kind → Relined (.static e) (.static f)
  | runtime {e f : RuntimeError} : e.mapLine (fun _ => 0) = f.mapLine (fun _ => 0) →
      Relined (.runtime e) (.runtime f)

namespace Session

variable {σ : Type} [Host σ]

/-- Programs that differ in lines only come to the same, but for lines. -/
theorem interpret_relined {source source' : String}
    (hprograms : ExceptLike (fun e f : SyntaxError => e.kind = f.kind)
      (List.Forall₂ Expr.Relined) (Program.read source) (Program.read source'))
    {s t : Session} (h : Session.SameBut Expr.Relined s t) (host : σ) :
    let out := (s.interpret source).run host
    let out' := (t.interpret source').run host
    ExceptLike Error.Relined (List.Forall₂ Value.Relined) out.1.1 out'.1.1
      ∧ Session.SameBut Expr.Relined out.1.2 out'.1.2 ∧ out.2 = out'.2 := by
  intro out out'
  show ExceptLike Error.Relined (List.Forall₂ Value.Relined)
    ((s.interpret source).run host).1.1 ((t.interpret source').run host).1.1
      ∧ Session.SameBut Expr.Relined ((s.interpret source).run host).1.2
        ((t.interpret source').run host).1.2
      ∧ ((s.interpret source).run host).2 = ((t.interpret source').run host).2
  generalize hread : Program.read source = r, hread' : Program.read source' = r' at hprograms
  cases hprograms with
  | error hkind =>
      rw [run_interpret_unreadable hread, run_interpret_unreadable hread']
      exact ⟨.error (.static hkind), h, rfl⟩
  | @ok p q hpq =>
      obtain ⟨hr, hst, hhost⟩ := CodeLikeness.lines.run_evalProgram h hpq host
      rcases hp : (s.evalProgram [] p).run host with ⟨⟨r, s'⟩, host'⟩
      rcases hq : (t.evalProgram [] q).run host with ⟨⟨r', t'⟩, host''⟩
      rw [hp, hq] at hr hst hhost
      rw [run_interpret_readable hread hp, run_interpret_readable hread' hq]
      refine ⟨?_, hst, hhost⟩
      cases hr with
      | ok hvs => exact .ok hvs
      | error he => exact .error (.runtime (he.mapLine_eq 0))

/-- **Layout carries no meaning.**  Let two source texts be cut into tokens of the
    same kinds, and take two sessions that are the same but for lines in the
    bodies of functions.  Then both texts are read, as programs that differ in
    lines only, or both are rejected, with errors of one kind.  In the sessions
    they come to the same values but for lines in the bodies of functions, or to
    the same error but for its line; they print and read the same, and the
    sessions afterwards are again the same but for such lines. -/
theorem layout_carries_no_meaning {source source' : String} {ts us : List Token}
    (hscan : Token.scan source = .ok ts) (hscan' : Token.scan source' = .ok us)
    (hkinds : ts.map Token.kind = us.map Token.kind) {s t : Session}
    (h : Session.SameBut Expr.Relined s t) (host : σ) :
    let out := (s.interpret source).run host
    let out' := (t.interpret source').run host
    ExceptLike (fun e f : SyntaxError => e.kind = f.kind) (List.Forall₂ Expr.Relined)
        (Program.read source) (Program.read source')
      ∧ ExceptLike Error.Relined (List.Forall₂ Value.Relined) out.1.1 out'.1.1
      ∧ Session.SameBut Expr.Relined out.1.2 out'.1.2 ∧ out.2 = out'.2 := by
  have hread : Program.read source = Program.ofTokens ts := by rw [Program.read, hscan]
  have hread' : Program.read source' = Program.ofTokens us := by rw [Program.read, hscan']
  have hprograms := Program.ofTokens_relined hkinds
  rw [← hread, ← hread'] at hprograms
  exact ⟨hprograms, interpret_relined hprograms h host⟩

/-- A string with a line break, spelled as an escape and as itself, given to a
    function whose body stands on another line in each session. -/
theorem layout_carries_no_meaning_call :
    let source := "f(\"a\\nb\")"
    let source' := "f # a comment\n (\"a\nb\" )"
    let function (line : Nat) : Value :=
      .function (.closure ⟨0, ["x"], [.unary .negate (.symbol "x" line) line], {}, none⟩)
    let session (line : Nat) : Session :=
      (Session.new {} fun _ => .always 0).withEnv { innermost := ⟨[("f", function line)]⟩ }
    let out := ((session 1).interpret source).run ({} : Buffer)
    let out' := ((session 7).interpret source').run ({} : Buffer)
    ∃ ts us, Token.scan source = .ok ts ∧ Token.scan source' = .ok us
      ∧ ts.map Token.kind = us.map Token.kind ∧ ts.map Token.line ≠ us.map Token.line
      ∧ Session.SameBut Expr.Relined (session 1) (session 7)
      ∧ ExceptLike (fun e f : SyntaxError => e.kind = f.kind) (List.Forall₂ Expr.Relined)
        (Program.read source) (Program.read source')
      ∧ ExceptLike Error.Relined (List.Forall₂ Value.Relined) out.1.1 out'.1.1
      ∧ Session.SameBut Expr.Relined out.1.2 out'.1.2 ∧ out.2 = out'.2 := by
  intro source source' function session out out'
  let ts : List Token :=
    [⟨.identifier "f", "f", 1⟩, ⟨.mark .leftParen, "(", 1⟩, ⟨.string "a\nb", "\"a\\nb\"", 1⟩,
      ⟨.mark .rightParen, ")", 1⟩, .endAt 1]
  let us : List Token :=
    [⟨.identifier "f", "f", 1⟩, ⟨.mark .leftParen, "(", 2⟩, ⟨.string "a\nb", "\"a\nb\"", 3⟩,
      ⟨.mark .rightParen, ")", 3⟩, .endAt 3]
  have hscan : Token.scan "f(\"a\\nb\")" = .ok ts := rfl
  have hscan' : Token.scan "f # a comment\n (\"a\nb\" )" = .ok us := rfl
  have hkinds : ts.map Token.kind = us.map Token.kind := rfl
  have hlines : ts.map Token.line ≠ us.map Token.line := by decide
  have hscope : Env.Like Value.Relined {} {} := .mk (.mk .nil) .nil (.mk .nil)
  have hfunction : Value.Relined (function 1) (function 7) :=
    .closure (.mk rfl rfl rfl (.cons rfl .nil) hscope)
  have hsame : Session.SameBut Expr.Relined (session 1) (session 7) :=
    ⟨rfl, .mk (.mk (.cons (.mk "f" hfunction) .nil)) .nil (.mk .nil), rfl, rfl, rfl⟩
  refine ⟨ts, us, hscan, hscan', hkinds, hlines, hsame, ?_⟩
  exact @layout_carries_no_meaning Buffer _ source source' ts us hscan hscan' hkinds _ _ hsame {}

end Session

end Scriptlet
