import Scriptlet.Proofs.PrintRead
import Scriptlet.Proofs.Units

/-! # Data survive printing

    A value without functions and without numbers that are not finite is
    printed as an expression that evaluates to it.  The expression is not a
    literal throughout: a list is a list of expressions, and a number below
    zero, negative zero among them, is read as a negation.

      * `Expr.Depicts`: what is asked of the expression behind a text,
      * `Value.IsData.depicted`: every data value has one,
      * `Session.interpret_text_data`: so its text evaluates to it, and no
        other data value has that text. -/

namespace Scriptlet

/-- A value built from nil, truth values, strings and finite numbers by
    forming lists. -/
inductive Value.IsData : Value → Prop where
  | nil : IsData .nil
  | bool (b : Bool) : IsData (.bool b)
  | string (s : String) : IsData (.string s)
  | number {x : Float} : x.isFinite = true → IsData (.number x)
  | list {vs : List Value} : (∀ v ∈ vs, IsData v) → IsData (.ofList vs)

namespace Expr

/-- The expression has the text of the value, is read back from that text, and
    evaluates to the value without doing anything else. -/
structure Depicts (e : Expr) (v : Value) : Prop where
  line : e.onLine 1 = e
  canonical : e.Canonical
  printable : ∀ s ∈ e.slots, s.kind.Printable
  write : ∀ rest, e.write rest = v.write rest
  eval : ∀ {σ : Type} [Host σ] (enter : Enter) (s : Store) (host : σ),
    (e.eval enter s).result host = ((.ok v, s), host)

/-- A literal is its own picture. -/
theorem depicts_literal {l : Literal} (h : l.kind.Printable) :
    Depicts (.literal l 1) (.ofLiteral l) where
  line := rfl
  canonical := trivial
  printable := by simpa [slots] using h
  write rest := by
    rw [Expr.write]
    cases l with
    | bool b => cases b <;> rfl
    | _ => rfl
  eval _ _ _ := rfl

/-- A negative number is written as the negation of a positive one. -/
theorem eval_negate_number {x y : Float} (h : -x = y) {σ : Type} [Host σ] (m n : Nat)
    (enter : Enter) (s : Store) (host : σ) :
    ((unary .negate (.literal (.number x) m) n).eval enter s).result host
      = ((.ok (.number y), s), host) := by
  subst h
  rw [Expr.eval, Eval.result_bind, Expr.eval]
  rfl

/-- A number with its sign set is depicted by the negation of its magnitude. -/
theorem depicts_negative {bits : Nat} (h : bits < Number.infinityBits) :
    Depicts (.unary .negate (.literal (.number (Number.ofMagnitude false bits)) 1) 1)
      (.number (Number.ofMagnitude true bits)) where
  line := rfl
  canonical := ⟨trivial, by simp [tier, unaryTier, primaryTier, callTier]⟩
  printable := by
    simp only [slots, List.forall_mem_cons]
    exact ⟨trivial, ⟨bits, h, rfl⟩, List.forall_mem_nil _⟩
  write rest := by
    have hneg := Number.chars_ofMagnitude h true
    have hpos := Number.chars_ofMagnitude h false
    rw [if_pos rfl] at hneg
    rw [if_neg Bool.false_ne_true] at hpos
    show '-' :: (Number.chars (Number.ofMagnitude false bits) ++ rest)
      = Number.chars (Number.ofMagnitude true bits) ++ rest
    rw [hneg, hpos, List.cons_append]
  eval := eval_negate_number (Number.neg_ofMagnitude h) 1 1

/-- Every finite number has a picture. -/
theorem depicts_number {x : Float} (h : x.isFinite = true) : ∃ e, Depicts e (.number x) := by
  obtain ⟨hfin, hx⟩ := Number.eq_ofMagnitude h
  rw [hx]
  cases Number.isNegative x with
  | true => exact ⟨_, depicts_negative hfin⟩
  | false => exact ⟨_, depicts_literal (l := .number _) ⟨_, hfin, rfl⟩⟩

theorem exists_depicts_items {vs : List Value} (h : ∀ v ∈ vs, ∃ e, Depicts e v) :
    ∃ es, List.Forall₂ Depicts es vs := by
  induction vs with
  | nil => exact ⟨[], .nil⟩
  | cons v vs ih =>
      obtain ⟨⟨e, he⟩, hvs⟩ := List.forall_mem_cons.mp h
      obtain ⟨es, hes⟩ := ih hvs
      exact ⟨e :: es, .cons he hes⟩

/-- Pictures of items have the text of the items. -/
theorem write_items_of_depicts {es : List Expr} {vs : List Value}
    (h : List.Forall₂ Depicts es vs) (rest : List Char) :
    writeItems es rest = Value.writeItems vs rest := by
  induction h with
  | nil => rfl
  | cons he h ih =>
      cases h with
      | nil => exact he.write rest
      | cons hf h => rw [writeItems, Value.writeItems, he.write, ih]

theorem printable_items_of_depicts {es : List Expr} {vs : List Value}
    (h : List.Forall₂ Depicts es vs) : ∀ s ∈ slotsItems es, s.kind.Printable := by
  induction h with
  | nil => exact nofun
  | cons he h ih =>
      cases h with
      | nil => exact he.printable
      | cons hf h =>
          exact List.forall_mem_append.mpr ⟨he.printable, List.forall_mem_cons.mpr ⟨trivial, ih⟩⟩

/-- Pictures of items evaluate to the items, without doing anything else. -/
theorem eval_items_of_depicts {es : List Expr} {vs : List Value}
    (h : List.Forall₂ Depicts es vs) {σ : Type} [Host σ] (enter : Enter) (s : Store) (host : σ) :
    (evalAll enter es s).result host = ((.ok vs, s), host) := by
  induction h with
  | nil => rfl
  | cons he h ih =>
      rw [evalAll, Eval.result_bind, he.eval]
      dsimp only
      rw [Eval.result_bind, ih]
      rfl

/-- A list of pictures is a picture of the list. -/
theorem depicts_list {es : List Expr} {vs : List Value} (h : List.Forall₂ Depicts es vs) :
    Depicts (.list es 1) (.ofList vs) where
  line := by
    have hes := ((List.forall₂_and_left _ _).mp (h.imp fun _ _ he => ⟨he.line, he⟩)).1
    rw [onLine, onLineAll_eq_map, List.map_congr_left hes, List.map_id']
  canonical :=
    canonicalAll_iff.mpr
      ((List.forall₂_and_left _ _).mp (h.imp fun _ _ he => ⟨he.canonical, he⟩)).1
  printable := by
    rw [slots]
    refine List.forall_mem_append.mpr ⟨List.forall_mem_cons.mpr ⟨trivial, ?_⟩, ?_⟩
    · exact printable_items_of_depicts h
    · exact List.forall_mem_singleton.mpr trivial
  write rest := by
    rw [Expr.write, write_items_of_depicts h]
    rfl
  eval enter s host := by
    rw [Expr.eval, Eval.result_bind, eval_items_of_depicts h]
    rfl

end Expr

/-- Every data value is depicted by some expression. -/
theorem Value.IsData.depicted {v : Value} (h : v.IsData) : ∃ e, Expr.Depicts e v := by
  induction h with
  | nil => exact ⟨_, Expr.depicts_literal (l := .nil) trivial⟩
  | bool b => exact ⟨_, Expr.depicts_literal (l := .bool b) (by cases b <;> trivial)⟩
  | string s => exact ⟨_, Expr.depicts_literal (l := .string s) trivial⟩
  | number hx => exact Expr.depicts_number hx
  | list _ ih =>
      obtain ⟨es, hes⟩ := Expr.exists_depicts_items ih
      exact ⟨_, Expr.depicts_list hes⟩

/-- The text of a depicted value is read as the expression. -/
theorem Expr.Depicts.read_text {e : Expr} {v : Value} (h : e.Depicts v) :
    Program.read v.text = .ok [e] := by
  have hcanonical : Program.Canonical [e] := ⟨⟨h.canonical, trivial⟩, nofun⟩
  have hprintable : ∀ k ∈ Program.yield [e], k.Printable := by
    rw [yield_eq_flatMap, List.flatMap_singleton]
    intro k hk
    obtain ⟨s, hs, rfl⟩ := List.mem_map.mp hk
    exact h.printable s hs
  have htext : v.text = " ".intercalate ([e].map Expr.text) := by
    rw [Value.text, ← h.write]
    simp [Expr.text]
  rw [htext, read_intercalate_text hcanonical hprintable, List.map_singleton, h.line]

namespace Session

/-- Interpreting the text of a value that has a picture gives the value back. -/
theorem run_interpret_depicted {σ : Type} [Host σ] {e : Expr} {v : Value}
    (h : e.Depicts v) (s : Session) (host : σ) :
    (s.interpret v.text).run host = ((.ok [v], s), host) := by
  have heval : (s.eval e).run host = ((.ok v, s), host) := by
    rw [Session.eval, run_perform, h.eval]
  exact run_interpret_readable h.read_text (Succeeds.run_all (.next heval .done))

/-- **Data survive printing.**  In every session, the text of a data value is
    evaluated to that one value and changes neither the session nor the host;
    so two data values of one text are the same. -/
theorem interpret_text_data :
    (∀ {σ : Type} [Host σ] (s : Session) (host : σ) (v : Value), v.IsData →
      (s.interpret v.text).run host = ((.ok [v], s), host)) ∧
    ∀ v w : Value, v.IsData → w.IsData → v.text = w.text → v = w := by
  have hself {σ : Type} [Host σ] (s : Session) (host : σ) (v : Value) (hv : v.IsData) :
      (s.interpret v.text).run host = ((.ok [v], s), host) := by
    obtain ⟨e, he⟩ := hv.depicted
    exact run_interpret_depicted he s host
  refine ⟨hself, ?_⟩
  -- one text has one outcome, in any session whatever
  intro v w hv hw htext
  let s := Session.new {} fun _ => .always 0
  let host : Buffer := {}
  have hsame : ((Except.ok [v] : Except Error (List Value)), s) = (.ok [w], s) := by
    have hrun := hself s host w hw
    rw [← htext, hself s host v hv] at hrun
    exact congrArg Prod.fst hrun
  cases hsame
  rfl

/-- A list with a negative zero, a quote and a line break in a string, and a
    list in it. -/
theorem interpret_text_data_nested :
    let s := Session.new {} fun _ => .always 0
    let v := Value.ofList [.number (-0.0), .string "∀ \"\n", .ofList [.bool true, .nil]]
    v.IsData ∧ v.text = "[-0, \"∀ \\\"\\n\", [true, nil]]"
      ∧ (s.interpret v.text).run ({} : Buffer) = ((.ok [v], s), {})
      ∧ ∀ w : Value, w.IsData → v.text = w.text → v = w := by
  intro s v
  have hinner : (Value.ofList [.bool true, .nil]).IsData := by
    refine .list ?_
    simp only [List.forall_mem_cons]
    exact ⟨.bool true, .nil, nofun⟩
  have hv : v.IsData := by
    refine .list ?_
    simp only [List.forall_mem_cons]
    exact ⟨.number (by decide +kernel), .string _, hinner, nofun⟩
  have htext : v.text = "[-0, \"∀ \\\"\\n\", [true, nil]]" := by decide +kernel
  exact ⟨hv, htext, interpret_text_data.1 s _ v hv, fun w => interpret_text_data.2 v w hv⟩

end Session

end Scriptlet
