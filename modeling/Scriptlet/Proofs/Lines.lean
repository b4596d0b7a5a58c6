import Scriptlet.Expr.Print
import Scriptlet.Proofs.Grammar

/-! # Lines of trees

    Lines can be changed throughout a tree (`Expr.mapLine`): all to one line
    (`Expr.onLine`), or down by some number of lines.  The tokens of a tree
    have the new lines then, and nothing else about it changes: neither its
    text nor whether it is canonical. -/

namespace Scriptlet

/-- The slot with the line of its node changed. -/
def Slot.mapLine (f : Nat → Nat) (s : Slot) : Slot :=
  ⟨s.kind, s.line?.map f⟩

/-- The token on another line. -/
def Token.mapLine (f : Nat → Nat) (t : Token) : Token :=
  { t with line := f t.line }

/-- The error on another line. -/
def SyntaxError.mapLine (f : Nat → Nat) : SyntaxError → SyntaxError
  | .unterminatedString s n => .unterminatedString s (f n)
  | .unrecognizedCharacter s n => .unrecognizedCharacter s (f n)
  | .unknownEscape s n => .unknownEscape s (f n)
  | .unmatchedParenthesis s n => .unmatchedParenthesis s (f n)
  | .unexpectedToken s n => .unexpectedToken s (f n)
  | .missingIdentifier s n => .missingIdentifier s (f n)

/-- The error on another line. -/
def RuntimeError.mapLine (f : Nat → Nat) : RuntimeError → RuntimeError
  | .undefinedSymbol name n => .undefinedSymbol name (f n)
  | .uncallableValue s n => .uncallableValue s (f n)
  | .incompatibleTypes s n => .incompatibleTypes s (f n)
  | .divisionByZero s n => .divisionByZero s (f n)
  | .argumentCount s expected found n => .argumentCount s expected found (f n)
  | .contractViolation builtin details n => .contractViolation builtin details (f n)
  | .stackOverflow depth n => .stackOverflow depth (f n)

/-- The error on another line. -/
def Error.mapLine (f : Nat → Nat) : Error → Error
  | .static e => .static (e.mapLine f)
  | .runtime e => .runtime (e.mapLine f)

/-- What fits fits on another line. -/
theorem Slot.Fits.mapLine {t : Token} {s : Slot} (h : s.Fits t) (f : Nat → Nat) :
    (s.mapLine f).Fits (t.mapLine f) := by
  refine ⟨h.1, ?_⟩
  rintro _ hline
  obtain ⟨n, hn, rfl⟩ := Option.map_eq_some_iff.mp hline
  exact congrArg f (h.2 n hn)

/-- Tokens that are moved to other lines spell the slots that are moved likewise. -/
theorem spells_mapLine {ts : List Token} {ss : List Slot} (h : Spells ts ss) (f : Nat → Nat) :
    Spells (ts.map (Token.mapLine f)) (ss.map (Slot.mapLine f)) := by
  rw [Spells, List.forall₂_map_left_iff, List.forall₂_map_right_iff]
  exact h.imp fun _ _ hts => hts.mapLine f

namespace Expr

mutual

/-- The expression with the line of every node changed. -/
def mapLine (f : Nat → Nat) : Expr → Expr
  | .literal value n => .literal value (f n)
  | .list items n => .list (mapLineAll f items) (f n)
  | .symbol name n => .symbol name (f n)
  | .define name value n => .define name (value.mapLine f) (f n)
  | .group inner n => .group (inner.mapLine f) (f n)
  | .unary op operand n => .unary op (operand.mapLine f) (f n)
  | .binary op lhs rhs n => .binary op (lhs.mapLine f) (rhs.mapLine f) (f n)
  | .choice test yes no n =>
    .choice (test.mapLine f) (mapLineAll f yes) (mapLineAll f no) (f n)
  | .function params body n => .function params (mapLineAll f body) (f n)
  | .call callee args n => .call (callee.mapLine f) (mapLineAll f args) (f n)

/-- Every expression with its lines changed. -/
def mapLineAll (f : Nat → Nat) : List Expr → List Expr
  | [] => []
  | e :: es => e.mapLine f :: mapLineAll f es

end

variable (f : Nat → Nat)

theorem mapLineAll_eq_map (es : List Expr) : mapLineAll f es = es.map (mapLine f) := by
  induction es with
  | nil => rfl
  | cons e es ih => rw [mapLineAll, ih, List.map_cons]

theorem onLineAll_eq_map (n : Nat) (es : List Expr) : onLineAll n es = es.map (onLine n) := by
  induction es with
  | nil => rfl
  | cons e es ih => rw [onLineAll, ih, List.map_cons]

/-- Moving to one line is changing every line to that one. -/
theorem onLine_eq_mapLine (n : Nat) (e : Expr) : e.onLine n = e.mapLine fun _ => n := by
  have hall : ∀ es : List Expr, (∀ e ∈ es, e.onLine n = e.mapLine fun _ => n) →
      onLineAll n es = mapLineAll (fun _ => n) es := by
    intro es h
    rw [onLineAll_eq_map, mapLineAll_eq_map]
    exact List.map_congr_left h
  induction e using Expr.induction with
  | literal value k => rfl
  | symbol name k => rfl
  | list items k ih => rw [onLine, mapLine, hall items ih]
  | define name value k ih => rw [onLine, mapLine, ih]
  | group inner k ih => rw [onLine, mapLine, ih]
  | unary op operand k ih => rw [onLine, mapLine, ih]
  | binary op lhs rhs k ihl ihr => rw [onLine, mapLine, ihl, ihr]
  | choice test yes no k iht ihy ihn => rw [onLine, mapLine, iht, hall yes ihy, hall no ihn]
  | function params body k ih => rw [onLine, mapLine, hall body ih]
  | call callee args k ihc iha => rw [onLine, mapLine, ihc, hall args iha]

/-- Only the last change to one line counts. -/
theorem onLine_mapLine (n : Nat) (e : Expr) : (e.mapLine f).onLine n = e.onLine n := by
  have hall : ∀ es : List Expr, (∀ e ∈ es, (e.mapLine f).onLine n = e.onLine n) →
      onLineAll n (mapLineAll f es) = onLineAll n es := by
    intro es h
    rw [mapLineAll_eq_map, onLineAll_eq_map, onLineAll_eq_map, List.map_map]
    exact List.map_congr_left h
  induction e using Expr.induction with
  | literal value k => rfl
  | symbol name k => rfl
  | list items k ih => rw [mapLine, onLine, onLine, hall items ih]
  | define name value k ih => rw [mapLine, onLine, onLine, ih]
  | group inner k ih => rw [mapLine, onLine, onLine, ih]
  | unary op operand k ih => rw [mapLine, onLine, onLine, ih]
  | binary op lhs rhs k ihl ihr => rw [mapLine, onLine, onLine, ihl, ihr]
  | choice test yes no k iht ihy ihn =>
      rw [mapLine, onLine, onLine, iht, hall yes ihy, hall no ihn]
  | function params body k ih => rw [mapLine, onLine, onLine, hall body ih]
  | call callee args k ihc iha => rw [mapLine, onLine, onLine, ihc, hall args iha]

/-- The last line wins. -/
theorem onLine_onLine (m n : Nat) (e : Expr) : (e.onLine m).onLine n = e.onLine n := by
  rw [e.onLine_eq_mapLine m, onLine_mapLine]

/-! ## Tokens -/

/-- A change that each item passes on to its slots is passed on with the commas. -/
theorem slotsItems_map {f : Expr → Expr} {g : Slot → Slot} {es : List Expr}
    (hcomma : g (.plain (.mark .comma)) = .plain (.mark .comma))
    (h : ∀ e ∈ es, (f e).slots = e.slots.map g) :
    slotsItems (es.map f) = (slotsItems es).map g := by
  induction es with
  | nil => rfl
  | cons e es ih =>
      obtain ⟨he, hes⟩ := List.forall_mem_cons.mp h
      cases es with
      | nil => exact he
      | cons e' es =>
          rw [List.map_cons, List.map_cons, slotsItems, slotsItems, List.map_append, he,
            List.map_cons, hcomma, ← ih hes, List.map_cons]

theorem slotsSteps_map {f : Expr → Expr} {g : Slot → Slot} {es : List Expr}
    (h : ∀ e ∈ es, (f e).slots = e.slots.map g) :
    slotsSteps (es.map f) = (slotsSteps es).map g := by
  induction es with
  | nil => rfl
  | cons e es ih =>
      obtain ⟨he, hes⟩ := List.forall_mem_cons.mp h
      rw [List.map_cons, slotsSteps, slotsSteps, List.map_append, he, ih hes]

/-- No node has its line from a parameter. -/
theorem slotsNames_mapLine (ps : List String) :
    (slotsNames ps).map (Slot.mapLine f) = slotsNames ps := by
  fun_induction slotsNames ps with
  | case1 => rfl
  | case2 p => rfl
  | case3 p q ps ih => rw [List.map_cons, List.map_cons, ih]; rfl

/-- A tree with its lines changed is written out as before, on these lines. -/
theorem slots_mapLine (e : Expr) : (e.mapLine f).slots = e.slots.map (Slot.mapLine f) := by
  have hitems : ∀ es : List Expr, (∀ e ∈ es, (e.mapLine f).slots = e.slots.map (Slot.mapLine f)) →
      slotsItems (mapLineAll f es) = (slotsItems es).map (Slot.mapLine f) := by
    intro es h
    rw [mapLineAll_eq_map, slotsItems_map rfl h]
  have hsteps : ∀ es : List Expr, (∀ e ∈ es, (e.mapLine f).slots = e.slots.map (Slot.mapLine f)) →
      slotsSteps (mapLineAll f es) = (slotsSteps es).map (Slot.mapLine f) := by
    intro es h
    rw [mapLineAll_eq_map, slotsSteps_map h]
  induction e using Expr.induction with
  | literal value k => rfl
  | symbol name k => rfl
  | list items k ih =>
      simp only [mapLine, slots, hitems items ih, List.map_append, List.map_cons]
      rfl
  | define name value k ih =>
      simp only [mapLine, slots, ih, List.map_cons]
      rfl
  | group inner k ih =>
      simp only [mapLine, slots, ih, List.map_append, List.map_cons]
      rfl
  | unary op operand k ih =>
      simp only [mapLine, slots, ih, List.map_cons]
      rfl
  | binary op lhs rhs k ihl ihr =>
      simp only [mapLine, slots, ihl, ihr, List.map_append, List.map_cons]
      rfl
  | choice test yes no k iht ihy ihn =>
      simp only [mapLine, slots, iht, hsteps yes ihy, hsteps no ihn, List.map_append,
        List.map_cons]
      rfl
  | function params body k ih =>
      simp only [mapLine, slots, hsteps body ih, slotsNames_mapLine, List.map_append,
        List.map_cons]
      rfl
  | call callee args k ihc iha =>
      simp only [mapLine, slots, ihc, hitems args iha, List.map_append, List.map_cons]
      rfl

/-! ## Canonical trees -/

/-- Lines do not change the tier. -/
theorem tier_mapLine (e : Expr) : (e.mapLine f).tier = e.tier := by
  cases e <;> rfl

/-- Lines do not change whether an expression goes on with the one in front. -/
theorem joins_mapLine (e : Expr) : (e.mapLine f).joins = e.joins := by
  rw [joins, slots_mapLine, List.head?_map, Option.any_map]
  rfl

theorem separated_mapLine {es : List Expr} (h : Separated es) :
    Separated (es.map (mapLine f)) := by
  intro e he
  rw [← List.map_tail] at he
  obtain ⟨e, hmem, rfl⟩ := List.mem_map.mp he
  rw [joins_mapLine]
  exact h e hmem

/-- Whether a tree is canonical does not depend on its lines. -/
theorem canonical_mapLine {e : Expr} (h : e.Canonical) : (e.mapLine f).Canonical := by
  have hall : ∀ es : List Expr, (∀ e ∈ es, e.Canonical → (e.mapLine f).Canonical) →
      CanonicalAll es → CanonicalAll (mapLineAll f es) := by
    intro es ih hes
    rw [mapLineAll_eq_map, canonicalAll_iff]
    intro e he
    obtain ⟨e, hmem, rfl⟩ := List.mem_map.mp he
    exact ih e hmem (canonicalAll_iff.mp hes e hmem)
  have hblock : ∀ es : List Expr, (∀ e ∈ es, e.Canonical → (e.mapLine f).Canonical) →
      es ≠ [] ∧ CanonicalAll es ∧ Separated es →
      mapLineAll f es ≠ [] ∧ CanonicalAll (mapLineAll f es) ∧ Separated (mapLineAll f es) := by
    rintro es ih ⟨hne, hes, hsep⟩
    refine ⟨?_, hall es ih hes, ?_⟩
    · rw [mapLineAll_eq_map]
      exact fun hnil => hne (List.map_eq_nil_iff.mp hnil)
    · rw [mapLineAll_eq_map]
      exact separated_mapLine f hsep
  induction e using Expr.induction with
  | literal value k => trivial
  | symbol name k => trivial
  | list items k ih => exact hall items ih h
  | define name value k ih => exact ih h
  | group inner k ih => exact ih h
  | unary op operand k ih =>
      rw [mapLine, Canonical, tier_mapLine]
      exact ⟨ih h.1, h.2⟩
  | binary op lhs rhs k ihl ihr =>
      rw [mapLine, Canonical, tier_mapLine, tier_mapLine]
      exact ⟨ihl h.1, ihr h.2.1, h.2.2⟩
  | choice test yes no k iht ihy ihn =>
      exact ⟨iht h.1, hblock yes ihy h.2.1, hblock no ihn h.2.2⟩
  | function params body k ih => exact hblock body ih h
  | call callee args k ihc iha =>
      rw [mapLine, Canonical, tier_mapLine]
      exact ⟨ihc h.1, h.2.1, hall args iha h.2.2⟩

/-! ## Text -/

/-- Items that are written the same are written the same with the commas. -/
theorem writeItems_map {g : Expr → Expr} {es : List Expr} (h : ∀ e ∈ es, (g e).write = e.write) :
    writeItems (es.map g) = writeItems es := by
  induction es with
  | nil => rfl
  | cons e es ih =>
      obtain ⟨he, hes⟩ := List.forall_mem_cons.mp h
      funext rest
      cases es with
      | nil => exact congrFun he rest
      | cons e' es =>
          rw [List.map_cons, List.map_cons, writeItems, writeItems, he, ← ih hes, List.map_cons]

theorem writeSteps_map {g : Expr → Expr} {es : List Expr} (h : ∀ e ∈ es, (g e).write = e.write) :
    writeSteps (es.map g) = writeSteps es := by
  induction es with
  | nil => rfl
  | cons e es ih =>
      obtain ⟨he, hes⟩ := List.forall_mem_cons.mp h
      funext rest
      cases es with
      | nil => exact congrFun he rest
      | cons e' es =>
          rw [List.map_cons, List.map_cons, writeSteps, writeSteps, he, ← ih hes, List.map_cons]

/-- No line is written. -/
theorem write_mapLine (e : Expr) : (e.mapLine f).write = e.write := by
  have hitems : ∀ es : List Expr, (∀ e ∈ es, (e.mapLine f).write = e.write) →
      writeItems (mapLineAll f es) = writeItems es := by
    intro es h
    rw [mapLineAll_eq_map, writeItems_map h]
  have hsteps : ∀ es : List Expr, (∀ e ∈ es, (e.mapLine f).write = e.write) →
      writeSteps (mapLineAll f es) = writeSteps es := by
    intro es h
    rw [mapLineAll_eq_map, writeSteps_map h]
  induction e using Expr.induction with
  | literal value k => rfl
  | symbol name k => rfl
  | list items k ih => funext rest; simp only [mapLine, write, hitems items ih]
  | define name value k ih => funext rest; simp only [mapLine, write, ih]
  | group inner k ih => funext rest; simp only [mapLine, write, ih]
  | unary op operand k ih => funext rest; simp only [mapLine, write, ih]
  | binary op lhs rhs k ihl ihr => funext rest; simp only [mapLine, write, ihl, ihr]
  | choice test yes no k iht ihy ihn =>
      funext rest
      simp only [mapLine, write, iht, hsteps yes ihy, hsteps no ihn]
  | function params body k ih => funext rest; simp only [mapLine, write, hsteps body ih]
  | call callee args k ihc iha => funext rest; simp only [mapLine, write, ihc, hitems args iha]

end Expr

namespace Program

/-- A canonical program is canonical on any lines. -/
theorem Canonical.mapLine {p : Program} (h : p.Canonical) (f : Nat → Nat) :
    Program.Canonical (p.map (Expr.mapLine f)) := by
  refine ⟨?_, Expr.separated_mapLine f h.2⟩
  rw [Expr.canonicalAll_iff]
  intro e he
  obtain ⟨e, hmem, rfl⟩ := List.mem_map.mp he
  exact Expr.canonical_mapLine f (Expr.canonicalAll_iff.mp h.1 e hmem)

theorem slots_mapLine (f : Nat → Nat) (p : Program) :
    Program.slots (p.map (Expr.mapLine f)) = p.slots.map (Slot.mapLine f) :=
  Expr.slotsSteps_map fun e _ => Expr.slots_mapLine f e

end Program

end Scriptlet
