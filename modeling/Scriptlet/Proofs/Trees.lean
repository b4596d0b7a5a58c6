import Scriptlet.Expr

/-! # Induction over expressions

    An expression holds lists of expressions, so plain induction asks for a
    second motive about lists.  Here the lists are folded away once: the
    hypothesis about a list speaks of each of its members.

    Two expressions are alike when they differ in lines only, that is, when
    they agree once every node is moved to one line. -/

namespace Scriptlet.Expr

/-- Induction over expressions, with one hypothesis for every member of a
    list. -/
@[elab_as_elim]
theorem induction {motive : Expr → Prop}
    (literal : ∀ value line, motive (.literal value line))
    (list : ∀ items line, (∀ e ∈ items, motive e) → motive (.list items line))
    (symbol : ∀ name line, motive (.symbol name line))
    (define : ∀ name value line, motive value → motive (.define name value line))
    (group : ∀ inner line, motive inner → motive (.group inner line))
    (unary : ∀ op operand line, motive operand → motive (.unary op operand line))
    (binary : ∀ op lhs rhs line, motive lhs → motive rhs → motive (.binary op lhs rhs line))
    (choice : ∀ test yes no line, motive test → (∀ e ∈ yes, motive e) →
      (∀ e ∈ no, motive e) → motive (.choice test yes no line))
    (function : ∀ params body line, (∀ e ∈ body, motive e) →
      motive (.function params body line))
    (call : ∀ callee args line, motive callee → (∀ e ∈ args, motive e) →
      motive (.call callee args line))
    (e : Expr) : motive e :=
  @Expr.rec motive (fun es => ∀ e ∈ es, motive e)
    literal list symbol define group unary binary choice function call
    (fun _ he => nomatch he)
    (fun _ _ hd tl => List.forall_mem_cons.mpr ⟨hd, tl⟩) e

mutual

/-- The expression with every node moved to one line. -/
def onLine (n : Nat) : Expr → Expr
  | .literal value _ => .literal value n
  | .list items _ => .list (onLineAll n items) n
  | .symbol name _ => .symbol name n
  | .define name value _ => .define name (value.onLine n) n
  | .group inner _ => .group (inner.onLine n) n
  | .unary op operand _ => .unary op (operand.onLine n) n
  | .binary op lhs rhs _ => .binary op (lhs.onLine n) (rhs.onLine n) n
  | .choice test yes no _ => .choice (test.onLine n) (onLineAll n yes) (onLineAll n no) n
  | .function params body _ => .function params (onLineAll n body) n
  | .call callee args _ => .call (callee.onLine n) (onLineAll n args) n

/-- Every expression moved to one line. -/
def onLineAll (n : Nat) : List Expr → List Expr
  | [] => []
  | e :: es => e.onLine n :: onLineAll n es

end

end Scriptlet.Expr
