import Scriptlet.Proofs.Bodies

/-! # Parentheses do not matter

    A group is evaluated by evaluating what it holds, so an expression comes to
    the same without its parentheses (`Expr.erase`), wherever they stand.

    There is one exception.  A function that is written as the value of a
    definition gets the name, and `f = (\x { x })` is not written like that.  So
    the parentheses around such a function stay; those inside its body go.

    Two runs are compared, one of an expression and one of its erasure.  The
    closures they make differ in their bodies, and so do the sessions they start
    from (`Session.SameBut`).  What an error quotes differs too, since the
    parentheses are part of the text. -/

namespace Scriptlet

/-! ## Erasing parentheses -/

namespace Expr

/-- Whether an expression is a function within any number of parentheses. -/
def wrapsFunction : Expr → Bool
  | .function .. => true
  | .group inner _ => inner.wrapsFunction
  | _ => false

mutual

/-- The expression without parentheses.  Those in front are kept on demand; as
    the value of a definition, those around a function are. -/
def eraseKeeping (keep : Bool) : Expr → Expr
  | .literal value n => .literal value n
  | .list items n => .list (eraseAll items) n
  | .symbol name n => .symbol name n
  | .define name value n => .define name (value.eraseKeeping value.wrapsFunction) n
  | .group inner n =>
    if keep then .group (inner.eraseKeeping true) n else inner.eraseKeeping false
  | .unary op operand n => .unary op (operand.eraseKeeping false) n
  | .binary op lhs rhs n => .binary op (lhs.eraseKeeping false) (rhs.eraseKeeping false) n
  | .choice test yes no n => .choice (test.eraseKeeping false) (eraseAll yes) (eraseAll no) n
  | .function params body n => .function params (eraseAll body) n
  | .call callee args n => .call (callee.eraseKeeping false) (eraseAll args) n

/-- Every expression without parentheses. -/
def eraseAll : List Expr → List Expr
  | [] => []
  | e :: es => e.eraseKeeping false :: eraseAll es

end

/-- The expression without parentheses, but for those around a function that is
    the value of a definition. -/
def erase (e : Expr) : Expr :=
  e.eraseKeeping false

example : erase (.define "f" (.group (.function ["x"] [.group (.symbol "x" 1) 1] 1) 1) 1)
    = .define "f" (.group (.function ["x"] [.symbol "x" 1] 1) 1) 1 := rfl

/-- One expression is the erasure of the other. -/
def ErasesTo (e f : Expr) : Prop :=
  f = e.erase

theorem forall₂_eraseAll (es : List Expr) : List.Forall₂ ErasesTo es (eraseAll es) := by
  induction es with
  | nil => exact .nil
  | cons e es ih => exact .cons rfl ih

/-- What is left of an expression is a function exactly when it was one within
    parentheses. -/
theorem isFunction_erase (e : Expr) : e.erase.isFunction = e.wrapsFunction := by
  induction e using Expr.induction with
  | group inner n ih => exact ih
  | _ => rfl

/-- As the value of a definition, an expression stays a function or none. -/
theorem isFunction_eraseKeeping (e : Expr) :
    (e.eraseKeeping e.wrapsFunction).isFunction = e.isFunction := by
  cases e with
  | group inner n =>
      cases hw : inner.wrapsFunction with
      | true =>
          rw [wrapsFunction, hw]
          rfl
      | false =>
          rw [wrapsFunction, hw]
          exact (isFunction_erase inner).trans hw
  | _ => rfl

/-- One expression is what is left of the other, where parentheses in front are
    kept around functions only. -/
def Strips (e f : Expr) : Prop :=
  ∃ keep, (keep = true → e.wrapsFunction = true) ∧ f = e.eraseKeeping keep

/-- Erasing all parentheses is one way to strip them. -/
theorem ErasesTo.strips {e f : Expr} (h : ErasesTo e f) : Strips e f :=
  ⟨false, nofun, h⟩

theorem strips_erase (e : Expr) : Strips e (e.eraseKeeping false) :=
  ErasesTo.strips rfl

theorem forall₂_strips (es : List Expr) : List.Forall₂ Strips es (eraseAll es) :=
  (forall₂_eraseAll es).imp fun _ _ h => h.strips

/-- Layer by layer, nothing but parentheses is missing. -/
theorem Strips.layer {e f : Expr} (h : Strips e f) : Layer Eq Strips e f := by
  obtain ⟨keep, hkeep, rfl⟩ := h
  cases e with
  | literal value n => exact .literal value n n
  | list items n => exact .list (forall₂_strips items)
  | symbol name n => exact .symbol name rfl
  | define name value n =>
      exact .define name (isFunction_eraseKeeping value).symm ⟨value.wrapsFunction, id, rfl⟩
  | group inner n =>
      cases keep with
      | true => exact .group ⟨true, hkeep, rfl⟩
      | false => exact .ungroup (strips_erase inner)
  | unary op operand n => exact .unary op rfl (strips_erase operand)
  | binary op lhs rhs n => exact .binary op rfl (strips_erase lhs) (strips_erase rhs)
  | choice test yes no n =>
      exact .choice rfl (strips_erase test) (forall₂_strips yes) (forall₂_strips no)
  | function params body n => exact .function params (forall₂_strips body)
  | call callee args n => exact .call rfl (strips_erase callee) (forall₂_strips args)

/-- The body of a function loses all of its parentheses. -/
theorem Strips.body {params params' : List String} {body body' : List Expr} {m n : Nat}
    (h : Strips (.function params body m) (.function params' body' n)) :
    List.Forall₂ ErasesTo body body' := by
  obtain ⟨keep, -, hf⟩ := h
  obtain ⟨-, rfl, -⟩ := Expr.function.inj hf
  exact forall₂_eraseAll body

end Expr

/-! ## Two runs -/

/-- The same code with and without parentheses, in environments whose functions
    have bodies with and without.  Texts of expressions may differ. -/
def Likeness.parentheses : Likeness where
  View := Unit
  line := Eq
  text _ _ := True
  excused _ := False
  closure := Closure.SameBut Expr.ErasesTo
  env _ := Env.Like (Value.Like (Closure.SameBut Expr.ErasesTo))
  expr _ := Expr.Strips
  text_refl _ := trivial
  text_expr _ := trivial
  layer := Expr.Strips.layer
  lookup _ h := h.lookup? _
  push h := h.push
  bind h hv name := h.bind name hv
  head := by
    rintro c d ⟨hid, hparams, hself, -, -⟩
    exact ⟨hid, hparams, hself⟩
  body := by
    rintro c d ⟨-, -, -, hbody, hscope⟩
    exact ⟨(), hscope, hbody.imp fun _ _ h => h.strips⟩
  close := by
    intro _ a b params body body' m n henv h identity selfName?
    exact .mk rfl rfl rfl h.body henv

/-- Errors that differ in what they quote are of one kind and on one line. -/
theorem RuntimeError.Like.kind_line_eq {text : String → String → Prop} {e f : RuntimeError}
    (h : RuntimeError.Like text Eq e f) : e.kind = f.kind ∧ e.line = f.line := by
  cases h with
  | undefinedSymbol hn | contractViolation hn | stackOverflow hn => exact ⟨rfl, hn⟩
  | uncallableValue _ hn | incompatibleTypes _ hn | divisionByZero _ hn | argumentCount _ hn =>
      exact ⟨rfl, hn⟩

namespace Session

variable {σ : Type} [Host σ]

/-- **Parentheses do not matter.**  In two sessions that are the same, but that
    the second one's functions have bodies without parentheses, an expression and
    its erasure either both succeed, with values that are the same but for
    parentheses in the bodies of functions, or both fail, with errors of one kind
    and on one line.  What they print and read is the same, and so are the
    sessions afterwards, but again for parentheses in the bodies of functions. -/
theorem parentheses_transparent {s t : Session} (h : Session.SameBut Expr.ErasesTo s t) (e : Expr)
    (host : σ) :
    let out := (s.eval e).run host
    let out' := (t.eval e.erase).run host
    ExceptLike (fun err err' => err.kind = err'.kind ∧ err.line = err'.line)
        (Value.Like (Closure.SameBut Expr.ErasesTo)) out.1.1 out'.1.1
      ∧ out.2 = out'.2 ∧ Session.SameBut Expr.ErasesTo out.1.2 out'.1.2 := by
  intro out out'
  have hlimit := congrArg Settings.maxDepth h.settings
  have hsessions : Likeness.parentheses.Sessions () s.settings.maxDepth s.settings.maxDepth s t :=
    ⟨⟨h.env, h.random, h.nextIdentity⟩, h.depth, congrArg Settings.seed? h.settings, rfl,
      hlimit.symm⟩
  have hout : Likeness.parentheses.Outcome _ _ out out' :=
    hsessions.eval_alike (Or.inl rfl) (Expr.strips_erase e) host
  generalize out = x, out' = y at hout ⊢
  cases hout with
  | excused he => exact he.elim
  | alike hr hst =>
      refine ⟨?_, rfl, ⟨hst.settings_eq, hst.store.env, hst.store.random, hst.store.nextIdentity,
        hst.depth⟩⟩
      cases hr with
      | ok hv => exact .ok hv
      | error he => exact .error he.kind_line_eq

/-- A function whose body is in parentheses, called through parentheses. -/
theorem parentheses_transparent_call :
    let function (body : List Expr) : Value := .function (.closure ⟨0, ["x"], body, {}, none⟩)
    let s := (Session.new {} fun _ => .always 0).withEnv
      { innermost := ⟨[("f", function [.group (.symbol "x" 1) 1])]⟩ }
    let t := (Session.new {} fun _ => .always 0).withEnv
      { innermost := ⟨[("f", function [.symbol "x" 1])]⟩ }
    let e : Expr := .call (.group (.symbol "f" 1) 1) [.group (.symbol "y" 2) 1] 1
    let out := (s.eval e).run ({} : Buffer)
    let out' := (t.eval (.call (.symbol "f" 1) [.symbol "y" 2] 1)).run ({} : Buffer)
    Session.SameBut Expr.ErasesTo s t ∧
      ExceptLike (fun err err' => err.kind = err'.kind ∧ err.line = err'.line)
        (Value.Like (Closure.SameBut Expr.ErasesTo)) out.1.1 out'.1.1 ∧
      out.2 = out'.2 ∧ Session.SameBut Expr.ErasesTo out.1.2 out'.1.2 := by
  intro function s t e out out'
  have hbody : List.Forall₂ Expr.ErasesTo [.group (.symbol "x" 1) 1] [.symbol "x" 1] :=
    .cons rfl .nil
  have hscope : Env.Like (Value.Like (Closure.SameBut Expr.ErasesTo)) {} {} :=
    .mk (.mk .nil) .nil (.mk .nil)
  have henv : Env.Like (Value.Like (Closure.SameBut Expr.ErasesTo)) s.env t.env :=
    .mk (.mk (.cons (.mk "f" (.closure (.mk rfl rfl rfl hbody hscope))) .nil)) .nil (.mk .nil)
  have hsame : Session.SameBut Expr.ErasesTo s t := ⟨rfl, henv, rfl, rfl, rfl⟩
  exact ⟨hsame, parentheses_transparent hsame e ({} : Buffer)⟩

/-- The exception is needed: a function in parentheses does not know the name
    that it is bound to. -/
example :
    let f : Expr := .function [] [.symbol "f" 1] 1
    let outcome (value : Expr) := (((Session.new {} fun _ => .always 0).evalProgram []
      [.define "f" value 1, .call (.symbol "f" 1) [] 1]).run ({} : Buffer)).1.1
    outcome (.group f 1) = .error (.undefinedSymbol "f" 1) ∧ (outcome f).isOk = true :=
  ⟨rfl, rfl⟩

end Session

end Scriptlet
