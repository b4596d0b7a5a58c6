import Mathlib.Data.List.Forall2
import Scriptlet.Proofs.RulesComplete

/-! # What two runs may differ in

    Many properties of a program compare two runs: with another limit, in
    another environment, of the same text on other lines.  What may differ is
    said once, as a `Likeness`: which lines, texts, closures, environments and
    expressions correspond, and which errors of the first run are excused.  The
    laws of a likeness are what evaluation needs in order to keep to it.

    Values are alike when they are the same data, with corresponding closures
    in the same places (`Value.Like`).  This module has the definitions, and what
    follows for text, equality, operators and builtins; that whole runs keep to
    a likeness is shown in `TwoRuns`. -/

namespace Scriptlet

/-! ## Values inside values -/

/-- A value is bound somewhere in an environment. -/
def Env.Holds {α : Type} (env : Env α) (a : α) : Prop :=
  ∃ frame ∈ env.builtins :: env.frames, ∃ entry ∈ frame.entries, entry.2 = a

namespace Env

variable {α : Type}

/-- Binding a symbol changes what that symbol means, and no other. -/
theorem lookup?_bind (env : Env α) (name other : String) (a : α) :
    (env.bind name a).lookup? other = if other = name then some a else env.lookup? other := by
  simp only [lookup?, frames, bind, List.findSome?_cons, Frame.get?_set]
  by_cases h : other = name
  · simp only [if_pos h, Option.some_or]
  · simp only [if_neg h]

/-- What is looked up is held. -/
theorem holds_of_lookup? {env : Env α} {name : String} {a : α} (h : env.lookup? name = some a) :
    env.Holds a := by
  have hframe : ∀ frame : Frame α, frame.get? name = some a →
      ∃ entry ∈ frame.entries, entry.2 = a := by
    intro frame hget
    obtain ⟨before, after, hentries, -⟩ := List.lookup_eq_some_iff.mp hget
    exact ⟨(name, a), by simp [hentries], rfl⟩
  rcases Option.or_eq_some_iff.mp h with h | ⟨-, h⟩
  · obtain ⟨frame, hmem, hget⟩ := List.exists_of_findSome?_eq_some h
    exact ⟨frame, List.mem_cons_of_mem _ hmem, hframe frame hget⟩
  · exact ⟨env.builtins, List.mem_cons_self .., hframe _ h⟩

end Env

/-- Induction over values: for a list, over its items; for a closure, over all
    that its environment holds. -/
@[elab_as_elim]
theorem Value.induction {motive : Value → Prop}
    (nil : motive .nil)
    (bool : ∀ b, motive (.bool b))
    (number : ∀ x, motive (.number x))
    (string : ∀ s, motive (.string s))
    (list : ∀ items, (∀ v ∈ items.toList, motive v) → motive (.list items))
    (builtin : ∀ b, motive (.function (.builtin b)))
    (closure : ∀ c, (∀ v, c.scope.Holds v → motive v) → motive (.function (.closure c)))
    (v : Value) : motive v :=
  @Value.rec motive (fun items => ∀ v ∈ items.toList, motive v) (fun f => motive (.function f))
    (fun vs => ∀ v ∈ vs, motive v) (fun c => motive (.function (.closure c)))
    (fun env => ∀ v, env.Holds v → motive v)
    (fun frame => ∀ entry ∈ frame.entries, motive entry.2)
    (fun frames => ∀ frame ∈ frames, ∀ entry ∈ frame.entries, motive entry.2)
    (fun entries => ∀ entry ∈ entries, motive entry.2) (fun entry => motive entry.2)
    nil bool number string list (fun _ ih => ih) (fun _ _ ih => ih) builtin (fun _ ih => ih)
    nofun (fun _ _ hd tl => List.forall_mem_cons.mpr ⟨hd, tl⟩)
    (fun _ _ _ _ _ ih => closure _ ih)
    (fun _ _ _ inner outer builtins v => by
      rintro ⟨frame, hframe, entry, hentry, rfl⟩
      have hall := List.forall_mem_cons.mpr ⟨builtins, List.forall_mem_cons.mpr ⟨inner, outer⟩⟩
      exact hall frame hframe entry hentry)
    (fun _ ih => ih) nofun (fun _ _ hd tl => List.forall_mem_cons.mpr ⟨hd, tl⟩)
    nofun (fun _ _ hd tl => List.forall_mem_cons.mpr ⟨hd, tl⟩) (fun _ _ ih => ih) v

/-! ## Likeness of values and errors -/

/-- The same data, with corresponding closures in the same places. -/
inductive Value.Like (closure : Closure Value → Closure Value → Prop) : Value → Value → Prop where
  | nil : Like closure .nil .nil
  | bool (b : Bool) : Like closure (.bool b) (.bool b)
  | number (x : Float) : Like closure (.number x) (.number x)
  | string (s : String) : Like closure (.string s) (.string s)
  | list {vs ws : List Value} (size : Nat) : List.Forall₂ (Like closure) vs ws →
      Like closure (.list ⟨vs, size⟩) (.list ⟨ws, size⟩)
  | builtin (b : Builtin) : Like closure (.function (.builtin b)) (.function (.builtin b))
  | closure {c d : Closure Value} : closure c d →
      Like closure (.function (.closure c)) (.function (.closure d))

/-- Induction over alike values, with one hypothesis for all pairs of items. -/
@[elab_as_elim]
theorem Value.Like.induction {K : Closure Value → Closure Value → Prop}
    {motive : (v w : Value) → Value.Like K v w → Prop}
    (nil : motive .nil .nil .nil)
    (bool : ∀ b, motive (.bool b) (.bool b) (.bool b))
    (number : ∀ x, motive (.number x) (.number x) (.number x))
    (string : ∀ s, motive (.string s) (.string s) (.string s))
    (list : ∀ vs ws size (hs : List.Forall₂ (Value.Like K) vs ws),
      List.Forall₂ (fun v w => ∃ h, motive v w h) vs ws →
      motive (.list ⟨vs, size⟩) (.list ⟨ws, size⟩) (.list size hs))
    (builtin : ∀ b, motive (.function (.builtin b)) (.function (.builtin b)) (.builtin b))
    (closure : ∀ c d (h : K c d),
      motive (.function (.closure c)) (.function (.closure d)) (.closure h))
    {v w : Value} (h : Value.Like K v w) : motive v w h :=
  @Value.Like.rec K motive (fun vs ws _ => List.Forall₂ (fun v w => ∃ h, motive v w h) vs ws)
    nil bool number string (fun size hs ih => list _ _ size hs ih) builtin
    (fun h => closure _ _ h) .nil (fun h _ ih ihs => .cons ⟨h, ih⟩ ihs) v w h

/-- Every value is like itself, if closures correspond to themselves whenever all
    that their environments hold is like itself. -/
theorem Value.Like.refl {K : Closure Value → Closure Value → Prop}
    (hK : ∀ c, (∀ v, c.scope.Holds v → Value.Like K v v) → K c c) (v : Value) :
    Value.Like K v v := by
  induction v using Value.induction with
  | nil => exact .nil
  | bool b => exact .bool b
  | number x => exact .number x
  | string s => exact .string s
  | list items ih => exact .list items.size (List.forall₂_same.mpr ih)
  | builtin b => exact .builtin b
  | closure c ih => exact .closure (hK c ih)

/-- Errors of one sort whose texts and lines correspond. -/
inductive RuntimeError.Like (text : String → String → Prop) (line : Nat → Nat → Prop) :
    RuntimeError → RuntimeError → Prop where
  | undefinedSymbol {name : String} {m n : Nat} : line m n →
      Like text line (.undefinedSymbol name m) (.undefinedSymbol name n)
  | uncallableValue {s t : String} {m n : Nat} : text s t → line m n →
      Like text line (.uncallableValue s m) (.uncallableValue t n)
  | incompatibleTypes {s t : String} {m n : Nat} : text s t → line m n →
      Like text line (.incompatibleTypes s m) (.incompatibleTypes t n)
  | divisionByZero {s t : String} {m n : Nat} : text s t → line m n →
      Like text line (.divisionByZero s m) (.divisionByZero t n)
  | argumentCount {s t : String} {expected found m n : Nat} : text s t → line m n →
      Like text line (.argumentCount s expected found m) (.argumentCount t expected found n)
  | contractViolation {builtin details : String} {m n : Nat} : line m n →
      Like text line (.contractViolation builtin details m) (.contractViolation builtin details n)
  | stackOverflow {depth m n : Nat} : line m n →
      Like text line (.stackOverflow depth m) (.stackOverflow depth n)

theorem RuntimeError.Like.eq {e f : RuntimeError} (h : RuntimeError.Like Eq Eq e f) : e = f := by
  cases h <;> subst_vars <;> rfl

/-- Both are errors, or both are results, and they correspond. -/
inductive ExceptLike {ε α β : Type} (error : ε → ε → Prop) (value : α → β → Prop) :
    Except ε α → Except ε β → Prop where
  | ok {a : α} {b : β} : value a b → ExceptLike error value (.ok a) (.ok b)
  | error {e f : ε} : error e f → ExceptLike error value (.error e) (.error f)

/-! ## Likeness of expressions -/

/-- Two expressions are built alike, as far as one layer of them goes: their
    parts correspond, and so do the lines that an error can name.  Parentheses
    of the first one may be missing from the second. -/
inductive Expr.Layer (line : Nat → Nat → Prop) (part : Expr → Expr → Prop) :
    Expr → Expr → Prop where
  | literal (value : Literal) (m n : Nat) :
      Layer line part (.literal value m) (.literal value n)
  | list {items items' : List Expr} {m n : Nat} : List.Forall₂ part items items' →
      Layer line part (.list items m) (.list items' n)
  | symbol (name : String) {m n : Nat} : line m n →
      Layer line part (.symbol name m) (.symbol name n)
  | define (name : String) {value value' : Expr} {m n : Nat} :
      value.isFunction = value'.isFunction → part value value' →
      Layer line part (.define name value m) (.define name value' n)
  | group {inner inner' : Expr} {m n : Nat} : part inner inner' →
      Layer line part (.group inner m) (.group inner' n)
  | ungroup {inner e : Expr} {m : Nat} : part inner e → Layer line part (.group inner m) e
  | unary (op : UnaryOp) {operand operand' : Expr} {m n : Nat} : line m n →
      part operand operand' → Layer line part (.unary op operand m) (.unary op operand' n)
  | binary (op : BinaryOp) {lhs lhs' rhs rhs' : Expr} {m n : Nat} : line m n →
      part lhs lhs' → part rhs rhs' →
      Layer line part (.binary op lhs rhs m) (.binary op lhs' rhs' n)
  | choice {test test' : Expr} {yes yes' no no' : List Expr} {m n : Nat} : line m n →
      part test test' → List.Forall₂ part yes yes' → List.Forall₂ part no no' →
      Layer line part (.choice test yes no m) (.choice test' yes' no' n)
  | function (params : List String) {body body' : List Expr} {m n : Nat} :
      List.Forall₂ part body body' →
      Layer line part (.function params body m) (.function params body' n)
  | call {callee callee' : Expr} {args args' : List Expr} {m n : Nat} : line m n →
      part callee callee' → List.Forall₂ part args args' →
      Layer line part (.call callee args m) (.call callee' args' n)

/-- The expressions that an expression is made of. -/
def Expr.parts : Expr → List Expr
  | .literal .. | .symbol .. => []
  | .list items _ => items
  | .define _ value _ => [value]
  | .group inner _ => [inner]
  | .unary _ operand _ => [operand]
  | .binary _ lhs rhs _ => [lhs, rhs]
  | .choice test yes no _ => test :: (yes ++ no)
  | .function _ body _ => body
  | .call callee args _ => callee :: args

/-- The sequences that an expression may evaluate. -/
def Expr.blocks : Expr → List (List Expr)
  | .choice _ yes no _ => [yes, no]
  | .function _ body _ => [body]
  | _ => []

/-- An expression is built like itself, if its parts correspond to themselves. -/
theorem Expr.Layer.self {part : Expr → Expr → Prop} {e : Expr} (h : ∀ p ∈ e.parts, part p p) :
    Expr.Layer Eq part e e := by
  cases e with
  | literal value n => exact .literal value n n
  | list items n => exact .list (List.forall₂_same.mpr h)
  | symbol name n => exact .symbol name rfl
  | define name value n => exact .define name rfl (h _ (List.mem_singleton_self _))
  | group inner n => exact .group (h _ (List.mem_singleton_self _))
  | unary op operand n => exact .unary op rfl (h _ (List.mem_singleton_self _))
  | binary op lhs rhs n => exact .binary op rfl (h _ (by simp [parts])) (h _ (by simp [parts]))
  | choice test yes no n =>
      obtain ⟨ht, hblocks⟩ := List.forall_mem_cons.mp h
      obtain ⟨hy, hn⟩ := List.forall_mem_append.mp hblocks
      exact .choice rfl ht (List.forall₂_same.mpr hy) (List.forall₂_same.mpr hn)
  | function params body n => exact .function params (List.forall₂_same.mpr h)
  | call callee args n =>
      obtain ⟨hc, ha⟩ := List.forall_mem_cons.mp h
      exact .call rfl hc (List.forall₂_same.mpr ha)

/-- A way in which two runs may differ.  What is known of the environments of a
    piece of code, its view of them, may change from one piece to another. -/
structure Likeness where
  View : Type
  line : Nat → Nat → Prop
  text : String → String → Prop
  /-- The errors of the first run after which nothing is asked of the second. -/
  excused : RuntimeError → Prop
  closure : Closure Value → Closure Value → Prop
  env : View → Env Value → Env Value → Prop
  expr : View → Expr → Expr → Prop
  text_refl : ∀ s, text s s
  text_expr : ∀ {view e f}, expr view e f → text e.text f.text
  layer : ∀ {view e f}, expr view e f → Expr.Layer line (expr view) e f
  lookup : ∀ {view a b name m n}, expr view (.symbol name m) (.symbol name n) → env view a b →
    Option.Rel (Value.Like closure) (a.lookup? name) (b.lookup? name)
  push : ∀ {view a b}, env view a b → env view a.push b.push
  bind : ∀ {view a b v w}, env view a b → Value.Like closure v w →
    ∀ name, env view (a.bind name v) (b.bind name w)
  /-- Corresponding closures have the same head ... -/
  head : ∀ {c d}, closure c d →
    c.identity = d.identity ∧ c.params = d.params ∧ c.selfName? = d.selfName?
  /-- ... and bodies that correspond in some view of their environments. -/
  body : ∀ {c d}, closure c d →
    ∃ view, env view c.scope d.scope ∧ List.Forall₂ (expr view) c.body d.body
  /-- Corresponding functions make corresponding closures. -/
  close : ∀ {view a b params body body' m n}, env view a b →
    expr view (.function params body m) (.function params body' n) →
    ∀ identity selfName?, closure ⟨identity, params, body, a, selfName?⟩
      ⟨identity, params, body', b, selfName?⟩

namespace Likeness

variable (L : Likeness)

/-- Alike values. -/
abbrev value : Value → Value → Prop :=
  Value.Like L.closure

/-- Alike errors. -/
abbrev error : RuntimeError → RuntimeError → Prop :=
  RuntimeError.Like L.text L.line

variable {L} {v v' w w' : Value}

/-! ## What alike values have in common -/

/-- Functions that are alike take the same number of arguments. -/
theorem arity_eq {f g : Callable Value} (h : L.value (.function f) (.function g)) :
    f.arity = g.arity := by
  cases h with
  | builtin b => rfl
  | closure h => exact congrArg List.length (L.head h).2.1

theorem callableText_eq {f g : Callable Value} (h : L.value (.function f) (.function g)) :
    f.text = g.text := by
  cases h with
  | builtin b => rfl
  | closure h => rw [Callable.text, Callable.text, (L.head h).2.1]

/-- Values that are alike have the same type. -/
theorem typeName_eq (h : L.value v w) : v.typeName = w.typeName := by
  cases h <;> rfl

theorem writeItems_eq {vs ws : List Value}
    (h : List.Forall₂ (fun v w => ∀ rest, v.write rest = w.write rest) vs ws)
    (rest : List Char) : Value.writeItems vs rest = Value.writeItems ws rest := by
  induction h with
  | nil => rfl
  | cons hv hs ih =>
      cases hs with
      | nil => exact hv rest
      | cons hv' hs' => rw [Value.writeItems, Value.writeItems, ih, hv]

/-- Values that are alike are written alike, lists item by item. -/
theorem write_eq (h : L.value v w) : ∀ rest, v.write rest = w.write rest := by
  induction h using Value.Like.induction with
  | list vs ws size _ ih =>
      intro rest
      rw [Value.write, Value.write, writeItems_eq (ih.imp fun _ _ hx => hx.2)]
  | closure c d h =>
      intro rest
      rw [Value.write, Value.write, callableText_eq (.closure h)]
  | _ => exact fun _ => rfl

/-- Alike values have one text. -/
theorem plainText_eq (h : L.value v w) : v.plainText = w.plainText := by
  have htext : v.text = w.text := congrArg String.ofList (write_eq h [])
  cases h with
  | string s => rfl
  | _ => exact htext

/-- Lists whose items are alike compare alike. -/
theorem equalItems_eq {vs ws vs' ws' : List Value}
    (h : List.Forall₂ (fun v w => ∀ v' w', L.value v' w' → v.equal v' = w.equal w') vs ws)
    (h' : List.Forall₂ L.value vs' ws') :
    Value.equalItems vs vs' = Value.equalItems ws ws' := by
  induction h generalizing vs' ws' with
  | nil => rw [Value.equalItems, Value.equalItems] <;> exact nofun
  | cons hv _ ih =>
      cases h' with
      | nil => rw [Value.equalItems, Value.equalItems] <;> exact nofun
      | cons hv' hs' => rw [Value.equalItems, Value.equalItems, hv _ _ hv', ih hs']

/-- Likeness is all that equality looks at. -/
theorem equal_eq (h : L.value v w) : ∀ v' w', L.value v' w' → v.equal v' = w.equal w' := by
  induction h using Value.Like.induction with
  | list vs ws size _ ih =>
      intro v' w' h'
      cases h' with
      | list size' hs =>
          simp only [Value.equal, equalItems_eq (ih.imp fun _ _ hx => hx.2) hs]
      | _ => simp only [Value.equal]
  | closure c d h =>
      intro v' w' h'
      cases h' with
      | closure h' => simp only [Value.equal, Callable.isSame, (L.head h).1, (L.head h').1]
      | _ => simp only [Value.equal, Callable.isSame]
  | _ =>
      intro v' w' h'
      cases h' <;> simp only [Value.equal, Callable.isSame]

theorem like_ofLiteral (value : Literal) : L.value (.ofLiteral value) (.ofLiteral value) := by
  cases value <;> constructor

theorem like_ofList {vs ws : List Value} (h : List.Forall₂ L.value vs ws) :
    L.value (.ofList vs) (.ofList ws) := by
  rw [Value.ofList, Value.ofList, Items.ofList, Items.ofList, h.length_eq]
  exact .list _ h

/-! ## Operators -/

variable {s t : String} {m n : Nat} {r : Except RuntimeError Value}

/-- What a unary operator gives for one value, it gives for an alike one. -/
theorem unary_gives {op : UnaryOp} (h : op.Gives s m v r) (hv : L.value v w) (ht : L.text s t)
    (hn : L.line m n) : ∃ r', op.Gives t n w r' ∧ ExceptLike L.error L.value r r' := by
  cases h with
  | negate x =>
      cases hv
      exact ⟨_, .negate x, .ok (.number _)⟩
  | not b =>
      cases hv
      exact ⟨_, .not b, .ok (.bool _)⟩
  | notNumber hx =>
      refine ⟨_, .notNumber ?_, .error (.incompatibleTypes ht hn)⟩
      cases hv <;> first | rfl | cases hx
  | notBool hb =>
      refine ⟨_, .notBool ?_, .error (.incompatibleTypes ht hn)⟩
      cases hv <;> first | rfl | cases hb

/-- A unary operator on operands that are alike. -/
theorem unary_apply (op : UnaryOp) (hv : L.value v w) {e f : Expr} (ht : L.text e.text f.text)
    (hn : L.line m n) : ExceptLike L.error L.value (op.apply v e m) (op.apply w f n) := by
  obtain ⟨r', hg, hr⟩ := unary_gives (op.gives_apply v e m) hv ht hn
  rw [hg.apply_eq]
  exact hr

/-- An operator is made for operands by their types, so it is for both pairs or for none. -/
theorem takes_iff (op : BinaryOp) (h : L.value v w) (h' : L.value v' w') :
    op.Takes v v' ↔ op.Takes w w' := by
  have hnumber : ∀ {v w}, L.value v w → v.number?.isSome = w.number?.isSome := by
    intro v w h
    cases h <;> rfl
  have hstring : ∀ {v w}, L.value v w → v.string?.isSome = w.string?.isSome := by
    intro v w h
    cases h <;> rfl
  have hlist : ∀ {v w}, L.value v w → v.list?.isSome = w.list?.isSome := by
    intro v w h
    cases h <;> rfl
  cases op <;> simp only [BinaryOp.Takes, hnumber h, hnumber h', hstring h, hstring h', hlist h']

/-- What a binary operator gives for two values, it gives for alike ones. -/
theorem binary_gives {op : BinaryOp} (h : op.Gives s m v v' r) (hv : L.value v w)
    (hv' : L.value v' w') (ht : L.text s t) (hn : L.line m n) :
    ∃ r', op.Gives t n w w' r' ∧ ExceptLike L.error L.value r r' := by
  cases h with
  | equal =>
      rw [equal_eq hv _ _ hv']
      exact ⟨_, .equal w w', .ok (.bool _)⟩
  | notEqual =>
      rw [equal_eq hv _ _ hv']
      exact ⟨_, .notEqual w w', .ok (.bool _)⟩
  | concat =>
      cases hv
      cases hv'
      exact ⟨_, .concat _ _, .ok (.string _)⟩
  | cons =>
      cases hv' with
      | list size hs => exact ⟨_, .cons w _, .ok (.list _ (.cons hv hs))⟩
  | add | subtract | multiply | power =>
      cases hv
      cases hv'
      exact ⟨_, by constructor, .ok (.number _)⟩
  | less | greater | lessEqual | greaterEqual =>
      cases hv
      cases hv'
      exact ⟨_, by constructor, .ok (.bool _)⟩
  | divide hq =>
      cases hv
      cases hv'
      exact ⟨_, .divide hq, .ok (.number _)⟩
  | divideByZero hq =>
      cases hv
      cases hv'
      exact ⟨_, .divideByZero hq, .error (.divisionByZero ht hn)⟩
  | mismatch hnot =>
      have hnot' : ¬ op.Takes w w' := fun htakes => hnot ((takes_iff op hv hv').mpr htakes)
      exact ⟨_, .mismatch hnot', .error (.incompatibleTypes ht hn)⟩

/-- A binary operator on operands that are alike. -/
theorem binary_apply (op : BinaryOp) (hv : L.value v w) (hv' : L.value v' w') {e f : Expr}
    (ht : L.text e.text f.text) (hn : L.line m n) :
    ExceptLike L.error L.value (op.apply v v' e m) (op.apply w w' f n) := by
  obtain ⟨r', hg, hr⟩ := binary_gives (op.gives_apply v v' e m) hv hv' ht hn
  rw [hg.apply_eq]
  exact hr

/-! ## Builtins of one argument -/

theorem like_countTo (x : Float) :
    List.Forall₂ L.value (Builtin.countTo x) (Builtin.countTo x) := by
  unfold Builtin.countTo
  split
  · refine List.forall₂_same.mpr fun v hv => ?_
    obtain ⟨i, _, rfl⟩ := List.mem_map.mp hv
    exact .number _
  · exact .nil

/-- What a builtin gives for one value, it gives for an alike one. -/
theorem builtin_gives {b : Builtin} (h : b.Gives m v r) (hv : L.value v w) (hn : L.line m n) :
    ∃ r', b.Gives n w r' ∧ ExceptLike L.error L.value r r' := by
  cases h with
  | text =>
      rw [plainText_eq hv]
      exact ⟨_, .text w, .ok (.string _)⟩
  | readNumber hs =>
      cases hv
      exact ⟨_, .readNumber hs, .ok (.number _)⟩
  | noNumber hs =>
      cases hv
      exact ⟨_, .noNumber hs, .ok .nil⟩
  | exp | sin | cos =>
      cases hv
      exact ⟨_, by constructor, .ok (.number _)⟩
  | first he hf =>
      cases hv with
      | list size hs =>
          cases hs with
          | nil => cases hf
          | cons hx _ =>
              obtain rfl := Option.some.inj hf
              exact ⟨_, .first he rfl, .ok hx⟩
  | rest he hr =>
      cases hv with
      | list size hs =>
          cases hs with
          | nil => cases hr
          | cons _ hxs =>
              obtain rfl := Option.some.inj hr
              exact ⟨_, .rest he rfl, .ok (.list _ hxs)⟩
  | length =>
      cases hv with
      | list size hs => exact ⟨_, .length _, .ok (.number _)⟩
  | iota x =>
      cases hv
      exact ⟨_, .iota x, .ok (like_ofList (like_countTo x))⟩
  | noItems hb he =>
      cases hv with
      | list size hs =>
          refine ⟨_, .noItems hb (he.imp id fun hnil => ?_), .error (.contractViolation hn)⟩
          obtain rfl := hnil
          exact List.forall₂_nil_left_iff.mp hs
  | mismatch htype hne =>
      rw [typeName_eq hv] at hne ⊢
      exact ⟨_, .mismatch htype hne, .error (.contractViolation hn)⟩

end Likeness

end Scriptlet
