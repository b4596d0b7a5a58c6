import Scriptlet.Session

/-! # The rules of evaluation

    The language as a set of rules, one for each construct and one for each
    way in which it can fail (`Yields`).  A rule says in which order the parts
    are evaluated, in which state each of them starts, and what the whole
    comes to; the rule for a part that fails says that nothing behind it is
    evaluated.

    The rules do not say how deep they nest.  Only the rule that enters a
    closure looks at the number of open calls, and counts one more for the
    time of the call. -/

namespace Scriptlet

/-- What an evaluation starts from and ends with: the store, the number of
    open calls, and the host. -/
structure State (σ : Type) extends Store where
  depth : Nat
  host : σ

namespace State

variable {σ : Type}

/-- The closure made of a function here. -/
def closure (S : State σ) (params : List String) (body : List Expr) (selfName? : Option String) :
    Value :=
  .function (.closure ⟨S.nextIdentity, params, body, S.env, selfName?⟩)

/-- One more closure was made. -/
def counted (S : State σ) : State σ :=
  { S with nextIdentity := S.nextIdentity + 1 }

/-- A symbol is bound in the innermost frame. -/
def bind (S : State σ) (name : String) (v : Value) : State σ :=
  { S with env := S.env.bind name v }

/-- A text was printed. -/
def tell [Host σ] (S : State σ) (text : String) : State σ :=
  { S with host := (Host.answer (.print text) S.host).2 }

end State

/-! ## Operators -/

/-- What a unary operator comes to.  An error quotes `expr`. -/
inductive UnaryOp.Gives (expr : String) (line : Nat) :
    UnaryOp → Value → Except RuntimeError Value → Prop where
  | negate (x : Float) : Gives expr line .negate (.number x) (.ok (.number (-x)))
  | not (b : Bool) : Gives expr line .not (.bool b) (.ok (.bool (!b)))
  | notNumber {v : Value} : v.number? = none →
      Gives expr line .negate v (.error (.incompatibleTypes expr line))
  | notBool {v : Value} : v.bool? = none →
      Gives expr line .not v (.error (.incompatibleTypes expr line))

namespace BinaryOp

/-- The operators that may not need their right operand. -/
def isLogical : BinaryOp → Bool
  | .and | .or => true
  | _ => false

/-- Whether a truth value on the left settles a logical operator. -/
def settles : BinaryOp → Bool → Bool
  | .and, false => true
  | .or, true => true
  | _, _ => false

/-- The operands that an operator is made for. -/
def Takes : BinaryOp → Value → Value → Prop
  | .and, _, _ | .or, _, _ => False
  | .equal, _, _ | .notEqual, _, _ => True
  | .concat, l, r => l.string?.isSome = true ∧ r.string?.isSome = true
  | .cons, _, r => r.list?.isSome = true
  | _, l, r => l.number?.isSome = true ∧ r.number?.isSome = true

/-- What a binary operator comes to when both operands are known.  An error
    quotes `expr`. -/
inductive Gives (expr : String) (line : Nat) :
    BinaryOp → Value → Value → Except RuntimeError Value → Prop where
  | equal (l r : Value) : Gives expr line .equal l r (.ok (.bool (l.equal r)))
  | notEqual (l r : Value) : Gives expr line .notEqual l r (.ok (.bool (!l.equal r)))
  | concat (s t : String) :
      Gives expr line .concat (.string s) (.string t) (.ok (.string (s ++ t)))
  | cons (v : Value) (items : Items Value) :
      Gives expr line .cons v (.list items) (.ok (.list (items.cons v)))
  | add (x y : Float) : Gives expr line .add (.number x) (.number y) (.ok (.number (x + y)))
  | subtract (x y : Float) :
      Gives expr line .subtract (.number x) (.number y) (.ok (.number (x - y)))
  | multiply (x y : Float) :
      Gives expr line .multiply (.number x) (.number y) (.ok (.number (x * y)))
  | power (x y : Float) : Gives expr line .power (.number x) (.number y) (.ok (.number (x ^ y)))
  | less (x y : Float) : Gives expr line .less (.number x) (.number y) (.ok (.bool (x < y)))
  | greater (x y : Float) : Gives expr line .greater (.number x) (.number y) (.ok (.bool (y < x)))
  | lessEqual (x y : Float) :
      Gives expr line .lessEqual (.number x) (.number y) (.ok (.bool (x ≤ y)))
  | greaterEqual (x y : Float) :
      Gives expr line .greaterEqual (.number x) (.number y) (.ok (.bool (y ≤ x)))
  | divide {x y : Float} : (x / y).isFinite = true →
      Gives expr line .divide (.number x) (.number y) (.ok (.number (x / y)))
  | divideByZero {x y : Float} : (x / y).isFinite = false →
      Gives expr line .divide (.number x) (.number y) (.error (.divisionByZero expr line))
  | mismatch {op : BinaryOp} {l r : Value} : ¬ op.Takes l r →
      Gives expr line op l r (.error (.incompatibleTypes expr line))

end BinaryOp

/-! ## Builtins -/

namespace Builtin

/-- The type on which a builtin of one argument insists. -/
def argumentType? : Builtin → Option String
  | .parseNumber => some "string"
  | .exp | .sin | .cos | .iota => some "number"
  | .first | .rest | .length => some "list"
  | _ => none

/-- The builtins that call a function back. -/
def callsBack : Builtin → Bool
  | .map | .filter => true
  | _ => false

/-- What a builtin of one argument gives when it needs neither the host nor
    another function. -/
inductive Gives (line : Nat) : Builtin → Value → Except RuntimeError Value → Prop where
  | text (v : Value) : Gives line .toString v (.ok (.string v.plainText))
  | readNumber {s : String} {x : Float} : Number.readTrimmed? s = some x →
      Gives line .parseNumber (.string s) (.ok (.number x))
  | noNumber {s : String} : Number.readTrimmed? s = none →
      Gives line .parseNumber (.string s) (.ok .nil)
  | exp (x : Float) : Gives line .exp (.number x) (.ok (.number x.exp))
  | sin (x : Float) : Gives line .sin (.number x) (.ok (.number x.sin))
  | cos (x : Float) : Gives line .cos (.number x) (.ok (.number x.cos))
  | first {items : Items Value} {v : Value} : items.isEmpty = false → items.first? = some v →
      Gives line .first (.list items) (.ok v)
  | rest {items tail : Items Value} : items.isEmpty = false → items.rest? = some tail →
      Gives line .rest (.list items) (.ok (.list tail))
  | length (items : Items Value) :
      Gives line .length (.list items) (.ok (.number (Float.ofNat items.size)))
  | iota (x : Float) : Gives line .iota (.number x) (.ok (.ofList (countTo x)))
  | noItems {b : Builtin} {items : Items Value} : b = .first ∨ b = .rest →
      items.isEmpty = true ∨ items.toList = [] →
      Gives line b (.list items) (.error (.contractViolation b.name "the list is empty" line))
  | mismatch {b : Builtin} {type : String} {v : Value} : b.argumentType? = some type →
      v.typeName ≠ type →
      Gives line b v (.error (.contractViolation b.name
        ("expected a " ++ type ++ ", found " ++ v.typeName) line))

end Builtin

/-! ## Evaluation -/

/-- Whether an expression is written as a function. -/
def Expr.isFunction : Expr → Bool
  | .function .. => true
  | _ => false

/-- What is bound when a closure is entered, in this order: its own name, if
    it has one, and its parameters. -/
def Closure.opening (c : Closure Value) (args : List Value) : List (String × Value) :=
  (c.selfName?.map fun name => (name, Value.function (.closure c))).toList ++ c.params.zip args

/-- What can be evaluated, with the type of its result. -/
inductive Task : Type → Type where
  /-- The value of an expression. -/
  | eval (e : Expr) : Task Value
  /-- The values of expressions, from left to right. -/
  | evalAll (es : List Expr) : Task (List Value)
  /-- The value of the last of several expressions. -/
  | evalSteps (es : List Expr) : Task Value
  /-- The value of a function for some arguments. -/
  | call (f : Callable Value) (args : List Value) (line : Nat) : Task Value
  /-- The values of a function for each of several arguments. -/
  | mapItems (f : Callable Value) (line : Nat) (vs : List Value) : Task (List Value)
  /-- Those of several arguments for which a function says true. -/
  | filterItems (f : Callable Value) (line : Nat) (vs : List Value) : Task (List Value)

variable {σ : Type} [Host σ]

/-- `Yields limit t S r S'` when the task `t`, started in the state `S`, comes
    to `r` and ends in the state `S'`; at most `limit` calls may be open. -/
inductive Yields (limit : Nat) :
    {α : Type} → Task α → State σ → Except RuntimeError α → State σ → Prop where
  -- constants, symbols and functions
  | literal {S : State σ} {value : Literal} {n : Nat} :
      Yields limit (.eval (.literal value n)) S (.ok (.ofLiteral value)) S
  | symbol {S : State σ} {name : String} {n : Nat} {v : Value} :
      S.env.lookup? name = some v → Yields limit (.eval (.symbol name n)) S (.ok v) S
  | undefinedSymbol {S : State σ} {name : String} {n : Nat} :
      S.env.lookup? name = none →
      Yields limit (.eval (.symbol name n)) S (.error (.undefinedSymbol name n)) S
  | function {S : State σ} {params : List String} {body : List Expr} {n : Nat} :
      Yields limit (.eval (.function params body n)) S (.ok (S.closure params body none)) S.counted
  -- lists
  | list {S S' : State σ} {items : List Expr} {vs : List Value} {n : Nat} :
      Yields limit (.evalAll items) S (.ok vs) S' →
      Yields limit (.eval (.list items n)) S (.ok (.ofList vs)) S'
  | listFails {S S' : State σ} {items : List Expr} {err : RuntimeError} {n : Nat} :
      Yields limit (.evalAll items) S (.error err) S' →
      Yields limit (.eval (.list items n)) S (.error err) S'
  -- definitions: only a function that is written out gets the name
  | defineFunction {S : State σ} {name : String} {params : List String} {body : List Expr}
      {m n : Nat} :
      Yields limit (.eval (.define name (.function params body m) n)) S
        (.ok (S.closure params body (some name)))
        (S.counted.bind name (S.closure params body (some name)))
  | define {S S' : State σ} {name : String} {value : Expr} {v : Value} {n : Nat} :
      value.isFunction = false → Yields limit (.eval value) S (.ok v) S' →
      Yields limit (.eval (.define name value n)) S (.ok v) (S'.bind name v)
  | defineFails {S S' : State σ} {name : String} {value : Expr} {err : RuntimeError} {n : Nat} :
      value.isFunction = false → Yields limit (.eval value) S (.error err) S' →
      Yields limit (.eval (.define name value n)) S (.error err) S'
  | group {S S' : State σ} {inner : Expr} {r : Except RuntimeError Value} {n : Nat} :
      Yields limit (.eval inner) S r S' → Yields limit (.eval (.group inner n)) S r S'
  -- unary operators
  | unary {S S' : State σ} {op : UnaryOp} {operand : Expr} {v : Value}
      {r : Except RuntimeError Value} {n : Nat} :
      Yields limit (.eval operand) S (.ok v) S' →
      op.Gives (Expr.unary op operand n).text n v r →
      Yields limit (.eval (.unary op operand n)) S r S'
  | unaryFails {S S' : State σ} {op : UnaryOp} {operand : Expr} {err : RuntimeError} {n : Nat} :
      Yields limit (.eval operand) S (.error err) S' →
      Yields limit (.eval (.unary op operand n)) S (.error err) S'
  -- binary operators that need both operands
  | binary {S S₁ S₂ : State σ} {op : BinaryOp} {lhs rhs : Expr} {l r : Value}
      {out : Except RuntimeError Value} {n : Nat} :
      op.isLogical = false → Yields limit (.eval lhs) S (.ok l) S₁ →
      Yields limit (.eval rhs) S₁ (.ok r) S₂ →
      op.Gives (Expr.binary op lhs rhs n).text n l r out →
      Yields limit (.eval (.binary op lhs rhs n)) S out S₂
  | leftFails {S S' : State σ} {op : BinaryOp} {lhs rhs : Expr} {err : RuntimeError} {n : Nat} :
      Yields limit (.eval lhs) S (.error err) S' →
      Yields limit (.eval (.binary op lhs rhs n)) S (.error err) S'
  | rightFails {S S₁ S₂ : State σ} {op : BinaryOp} {lhs rhs : Expr} {l : Value}
      {err : RuntimeError} {n : Nat} :
      op.isLogical = false → Yields limit (.eval lhs) S (.ok l) S₁ →
      Yields limit (.eval rhs) S₁ (.error err) S₂ →
      Yields limit (.eval (.binary op lhs rhs n)) S (.error err) S₂
  -- logical operators
  | settled {S S' : State σ} {op : BinaryOp} {lhs rhs : Expr} {b : Bool} {n : Nat} :
      op.settles b = true → Yields limit (.eval lhs) S (.ok (.bool b)) S' →
      Yields limit (.eval (.binary op lhs rhs n)) S (.ok (.bool b)) S'
  | unsettled {S S₁ S₂ : State σ} {op : BinaryOp} {lhs rhs : Expr} {b c : Bool} {n : Nat} :
      op.isLogical = true → op.settles b = false →
      Yields limit (.eval lhs) S (.ok (.bool b)) S₁ →
      Yields limit (.eval rhs) S₁ (.ok (.bool c)) S₂ →
      Yields limit (.eval (.binary op lhs rhs n)) S (.ok (.bool c)) S₂
  | unsettledFails {S S₁ S₂ : State σ} {op : BinaryOp} {lhs rhs : Expr} {b : Bool}
      {err : RuntimeError} {n : Nat} :
      op.isLogical = true → op.settles b = false →
      Yields limit (.eval lhs) S (.ok (.bool b)) S₁ →
      Yields limit (.eval rhs) S₁ (.error err) S₂ →
      Yields limit (.eval (.binary op lhs rhs n)) S (.error err) S₂
  | leftNotBool {S S' : State σ} {op : BinaryOp} {lhs rhs : Expr} {l : Value} {n : Nat} :
      op.isLogical = true → Yields limit (.eval lhs) S (.ok l) S' → l.bool? = none →
      Yields limit (.eval (.binary op lhs rhs n)) S
        (.error (.incompatibleTypes (Expr.binary op lhs rhs n).text n)) S'
  | rightNotBool {S S₁ S₂ : State σ} {op : BinaryOp} {lhs rhs : Expr} {b : Bool} {r : Value}
      {n : Nat} :
      op.isLogical = true → op.settles b = false →
      Yields limit (.eval lhs) S (.ok (.bool b)) S₁ →
      Yields limit (.eval rhs) S₁ (.ok r) S₂ → r.bool? = none →
      Yields limit (.eval (.binary op lhs rhs n)) S
        (.error (.incompatibleTypes (Expr.binary op lhs rhs n).text n)) S₂
  -- choices: the branch has a frame of its own, which goes however it ends
  | choice {S S₁ S₂ : State σ} {test : Expr} {yes no : List Expr} {b : Bool}
      {r : Except RuntimeError Value} {n : Nat} :
      Yields limit (.eval test) S (.ok (.bool b)) S₁ →
      Yields limit (.evalSteps (if b then yes else no)) { S₁ with env := S₁.env.push } r S₂ →
      Yields limit (.eval (.choice test yes no n)) S r { S₂ with env := S₂.env.pop }
  | testNotBool {S S' : State σ} {test : Expr} {yes no : List Expr} {v : Value} {n : Nat} :
      Yields limit (.eval test) S (.ok v) S' → v.bool? = none →
      Yields limit (.eval (.choice test yes no n)) S
        (.error (.incompatibleTypes test.text n)) S'
  | testFails {S S' : State σ} {test : Expr} {yes no : List Expr} {err : RuntimeError} {n : Nat} :
      Yields limit (.eval test) S (.error err) S' →
      Yields limit (.eval (.choice test yes no n)) S (.error err) S'
  -- call expressions: the callee, its type, the count, the arguments, the call
  | call {S S₁ S₂ S₃ : State σ} {callee : Expr} {args : List Expr} {f : Callable Value}
      {vs : List Value} {r : Except RuntimeError Value} {n : Nat} :
      Yields limit (.eval callee) S (.ok (.function f)) S₁ → f.arity = args.length →
      Yields limit (.evalAll args) S₁ (.ok vs) S₂ →
      Yields limit (.call f vs n) S₂ r S₃ →
      Yields limit (.eval (.call callee args n)) S r S₃
  | argsFail {S S₁ S₂ : State σ} {callee : Expr} {args : List Expr} {f : Callable Value}
      {err : RuntimeError} {n : Nat} :
      Yields limit (.eval callee) S (.ok (.function f)) S₁ → f.arity = args.length →
      Yields limit (.evalAll args) S₁ (.error err) S₂ →
      Yields limit (.eval (.call callee args n)) S (.error err) S₂
  | wrongCount {S S' : State σ} {callee : Expr} {args : List Expr} {f : Callable Value} {n : Nat} :
      Yields limit (.eval callee) S (.ok (.function f)) S' → f.arity ≠ args.length →
      Yields limit (.eval (.call callee args n)) S
        (.error (.argumentCount (Expr.call callee args n).text f.arity args.length n)) S'
  | uncallable {S S' : State σ} {callee : Expr} {args : List Expr} {v : Value} {n : Nat} :
      Yields limit (.eval callee) S (.ok v) S' → v.function? = none →
      Yields limit (.eval (.call callee args n)) S
        (.error (.uncallableValue callee.text n)) S'
  | calleeFails {S S' : State σ} {callee : Expr} {args : List Expr} {err : RuntimeError} {n : Nat} :
      Yields limit (.eval callee) S (.error err) S' →
      Yields limit (.eval (.call callee args n)) S (.error err) S'
  -- several expressions, all of whose values count
  | noItems {S : State σ} : Yields limit (.evalAll []) S (.ok []) S
  | items {S S₁ S₂ : State σ} {e : Expr} {es : List Expr} {v : Value} {vs : List Value} :
      Yields limit (.eval e) S (.ok v) S₁ → Yields limit (.evalAll es) S₁ (.ok vs) S₂ →
      Yields limit (.evalAll (e :: es)) S (.ok (v :: vs)) S₂
  | itemFails {S S' : State σ} {e : Expr} {es : List Expr} {err : RuntimeError} :
      Yields limit (.eval e) S (.error err) S' →
      Yields limit (.evalAll (e :: es)) S (.error err) S'
  | itemsFail {S S₁ S₂ : State σ} {e : Expr} {es : List Expr} {v : Value} {err : RuntimeError} :
      Yields limit (.eval e) S (.ok v) S₁ → Yields limit (.evalAll es) S₁ (.error err) S₂ →
      Yields limit (.evalAll (e :: es)) S (.error err) S₂
  -- several expressions, of whose values the last one counts
  | noSteps {S : State σ} : Yields limit (.evalSteps []) S (.ok .nil) S
  | lastStep {S S' : State σ} {e : Expr} {r : Except RuntimeError Value} :
      Yields limit (.eval e) S r S' → Yields limit (.evalSteps [e]) S r S'
  | steps {S S₁ S₂ : State σ} {e f : Expr} {es : List Expr} {v : Value}
      {r : Except RuntimeError Value} :
      Yields limit (.eval e) S (.ok v) S₁ → Yields limit (.evalSteps (f :: es)) S₁ r S₂ →
      Yields limit (.evalSteps (e :: f :: es)) S r S₂
  | stepFails {S S' : State σ} {e f : Expr} {es : List Expr} {err : RuntimeError} :
      Yields limit (.eval e) S (.error err) S' →
      Yields limit (.evalSteps (e :: f :: es)) S (.error err) S'
  -- calls
  | countMismatch {S : State σ} {f : Callable Value} {args : List Value} {n : Nat} :
      f.arity ≠ args.length →
      Yields limit (.call f args n) S (.error (.argumentCount f.text f.arity args.length n)) S
  | enter {S S' : State σ} {c : Closure Value} {args : List Value} {r : Except RuntimeError Value}
      {n : Nat} :
      c.params.length = args.length → S.depth < limit →
      Yields limit (.evalSteps c.body)
        { S with env := c.scope.push.bindAll (c.opening args), depth := S.depth + 1 } r S' →
      Yields limit (.call (.closure c) args n) S r
        { S' with env := S.env, depth := S'.depth - 1 }
  | overflow {S : State σ} {c : Closure Value} {args : List Value} {n : Nat} :
      c.params.length = args.length → limit ≤ S.depth →
      Yields limit (.call (.closure c) args n) S (.error (.stackOverflow limit n)) S
  -- builtins that use the host or the random numbers
  | print {S : State σ} {v : Value} {n : Nat} :
      Yields limit (.call (.builtin .print) [v] n) S (.ok .nil) (S.tell v.plainText)
  | println {S : State σ} {v : Value} {n : Nat} :
      Yields limit (.call (.builtin .println) [v] n) S (.ok .nil)
        ((S.tell v.plainText).tell "\n")
  | input {S : State σ} {text : String} {host : σ} {n : Nat} :
      Host.answer .readLine S.host = (text, host) →
      Yields limit (.call (.builtin .input) [] n) S (.ok (.string text)) { S with host }
  | epoch {S : State σ} {milliseconds : Nat} {host : σ} {n : Nat} :
      Host.answer .clock S.host = ((milliseconds : Int), host) →
      Yields limit (.call (.builtin .epoch) [] n) S
        (.ok (.number (Float.ofNat milliseconds / 1000.0))) { S with host }
  | epochTooEarly {S : State σ} {milliseconds : Int} {host : σ} {n : Nat} :
      Host.answer .clock S.host = (milliseconds, host) → milliseconds < 0 →
      Yields limit (.call (.builtin .epoch) [] n) S
        (.error (.contractViolation "epoch" "second time provided was later than self" n))
        { S with host }
  | random {S : State σ} {x : Float} {random : Supply Float} {n : Nat} :
      S.random.next = (x, random) →
      Yields limit (.call (.builtin .random) [] n) S (.ok (.number x)) { S with random }
  | builtin {S : State σ} {b : Builtin} {v : Value} {r : Except RuntimeError Value} {n : Nat} :
      b.Gives n v r → Yields limit (.call (.builtin b) [v] n) S r S
  -- builtins that call back
  | map {S S' : State σ} {f : Callable Value} {items : Items Value} {vs : List Value} {n : Nat} :
      f.arity = 1 → Yields limit (.mapItems f n items.toList) S (.ok vs) S' →
      Yields limit (.call (.builtin .map) [.function f, .list items] n) S (.ok (.ofList vs)) S'
  | mapFails {S S' : State σ} {f : Callable Value} {items : Items Value} {err : RuntimeError}
      {n : Nat} :
      f.arity = 1 → Yields limit (.mapItems f n items.toList) S (.error err) S' →
      Yields limit (.call (.builtin .map) [.function f, .list items] n) S (.error err) S'
  | filter {S S' : State σ} {f : Callable Value} {items : Items Value} {vs : List Value} {n : Nat} :
      f.arity = 1 → Yields limit (.filterItems f n items.toList) S (.ok vs) S' →
      Yields limit (.call (.builtin .filter) [.function f, .list items] n) S (.ok (.ofList vs)) S'
  | filterFails {S S' : State σ} {f : Callable Value} {items : Items Value} {err : RuntimeError}
      {n : Nat} :
      f.arity = 1 → Yields limit (.filterItems f n items.toList) S (.error err) S' →
      Yields limit (.call (.builtin .filter) [.function f, .list items] n) S (.error err) S'
  | notUnary {S : State σ} {b : Builtin} {f : Callable Value} {items : Items Value} {n : Nat} :
      b.callsBack = true → f.arity ≠ 1 →
      Yields limit (.call (.builtin b) [.function f, .list items] n) S
        (.error (.contractViolation b.name
          ("expected a function of one argument, found " ++ f.text) n)) S
  | notList {S : State σ} {b : Builtin} {f : Callable Value} {v : Value} {n : Nat} :
      b.callsBack = true → v.list? = none →
      Yields limit (.call (.builtin b) [.function f, v] n) S
        (.error (.contractViolation b.name ("expected a list, found " ++ v.typeName) n)) S
  | notFunction {S : State σ} {b : Builtin} {v w : Value} {n : Nat} :
      b.callsBack = true → v.function? = none →
      Yields limit (.call (.builtin b) [v, w] n) S
        (.error (.contractViolation b.name ("expected a function, found " ++ v.typeName) n)) S
  -- calling back on every item
  | mapNone {S : State σ} {f : Callable Value} {n : Nat} :
      Yields limit (.mapItems f n []) S (.ok []) S
  | mapNext {S S₁ S₂ : State σ} {f : Callable Value} {v w : Value} {vs ws : List Value} {n : Nat} :
      Yields limit (.call f [v] n) S (.ok w) S₁ →
      Yields limit (.mapItems f n vs) S₁ (.ok ws) S₂ →
      Yields limit (.mapItems f n (v :: vs)) S (.ok (w :: ws)) S₂
  | mapItemFails {S S' : State σ} {f : Callable Value} {v : Value} {vs : List Value}
      {err : RuntimeError} {n : Nat} :
      Yields limit (.call f [v] n) S (.error err) S' →
      Yields limit (.mapItems f n (v :: vs)) S (.error err) S'
  | mapRestFails {S S₁ S₂ : State σ} {f : Callable Value} {v w : Value} {vs : List Value}
      {err : RuntimeError} {n : Nat} :
      Yields limit (.call f [v] n) S (.ok w) S₁ →
      Yields limit (.mapItems f n vs) S₁ (.error err) S₂ →
      Yields limit (.mapItems f n (v :: vs)) S (.error err) S₂
  | filterNone {S : State σ} {f : Callable Value} {n : Nat} :
      Yields limit (.filterItems f n []) S (.ok []) S
  | filterNext {S S₁ S₂ : State σ} {f : Callable Value} {v : Value} {vs ws : List Value}
      {keep : Bool} {n : Nat} :
      Yields limit (.call f [v] n) S (.ok (.bool keep)) S₁ →
      Yields limit (.filterItems f n vs) S₁ (.ok ws) S₂ →
      Yields limit (.filterItems f n (v :: vs)) S (.ok (if keep then v :: ws else ws)) S₂
  | filterItemFails {S S' : State σ} {f : Callable Value} {v : Value} {vs : List Value}
      {err : RuntimeError} {n : Nat} :
      Yields limit (.call f [v] n) S (.error err) S' →
      Yields limit (.filterItems f n (v :: vs)) S (.error err) S'
  | filterRestFails {S S₁ S₂ : State σ} {f : Callable Value} {v : Value} {vs : List Value}
      {keep : Bool} {err : RuntimeError} {n : Nat} :
      Yields limit (.call f [v] n) S (.ok (.bool keep)) S₁ →
      Yields limit (.filterItems f n vs) S₁ (.error err) S₂ →
      Yields limit (.filterItems f n (v :: vs)) S (.error err) S₂
  | filterNotBool {S S' : State σ} {f : Callable Value} {v w : Value} {vs : List Value} {n : Nat} :
      Yields limit (.call f [v] n) S (.ok w) S' → w.bool? = none →
      Yields limit (.filterItems f n (v :: vs)) S
        (.error (.contractViolation Builtin.filter.name
          ("expected a boolean from the predicate, found " ++ w.typeName) n)) S'

end Scriptlet
