import Mathlib.Data.Option.Basic
import Mathlib.Logic.Function.Basic
import Scriptlet.Items

/-! # Lists represent sequences

    A list keeps its length beside its cells, and every operation brings the
    length up to date by itself.  So that the two belong together is a property
    of how a list came about.

    Lists go by names, and each operation makes the list of one name out of
    nothing, of given items or of the list of another name
    (`Items.Operation`).  The same operations on plain sequences
    (`Items.sequences`) say what the lists have to be: going through a list cell
    by cell meets the items of its sequence, and its length is their number
    (`Items.Represents`).  Each operation keeps this, however the lists share
    their cells. -/

namespace Scriptlet.Items

variable {α : Type}

/-! ## Going through a list -/

/-- Going through a list cell by cell, from the first item on, meets these items
    and then comes to the end. -/
inductive Visits : Items α → List α → Prop where
  | done {xs : Items α} : xs.first? = none → xs.rest? = none → Visits xs []
  | next {xs ys : Items α} {a : α} {met : List α} :
      xs.first? = some a → xs.rest? = some ys → Visits ys met → Visits xs (a :: met)

/-- Going through a list meets its items. -/
theorem visits_toList (xs : Items α) : xs.Visits xs.toList := by
  obtain ⟨as, n⟩ := xs
  induction as generalizing n with
  | nil => exact .done rfl rfl
  | cons a as ih => exact .next rfl rfl (ih (n - 1))

/-- Going through a list meets nothing but its items. -/
theorem Visits.eq_toList {xs : Items α} {met : List α} (h : xs.Visits met) :
    met = xs.toList := by
  induction h with
  | @done xs hfirst _ => exact (List.head?_eq_none_iff.mp hfirst).symm
  | @next xs ys a met hfirst hrest _ ih =>
      obtain ⟨as, n⟩ := xs
      cases as with
      | nil => cases hfirst
      | cons b as =>
          cases hfirst
          cases hrest
          exact congrArg (a :: ·) ih

/-! ## Representing a sequence -/

/-- A list represents a sequence: going through the list meets exactly the items of
    the sequence, and the length that the list keeps is their number. -/
structure Represents (xs : Items α) (as : List α) : Prop where
  visits : ∀ met, xs.Visits met ↔ met = as
  items : xs.toList = as
  size : xs.size = as.length

section Represents

variable {xs : Items α} {as : List α}

/-- A list that keeps its length represents its items. -/
theorem Counted.represents (h : xs.Counted) : xs.Represents xs.toList := by
  refine ⟨?_, rfl, h⟩
  intro met
  constructor
  · exact Visits.eq_toList
  · rintro rfl
    exact visits_toList xs

theorem Represents.counted (h : xs.Represents as) : xs.Counted := by
  rw [Counted, h.items, h.size]

/-- The empty list represents the empty sequence. -/
theorem represents_empty : (empty : Items α).Represents [] :=
  counted_empty.represents

theorem represents_ofList (as : List α) : (ofList as).Represents as :=
  (counted_ofList as).represents

theorem Represents.cons (h : xs.Represents as) (a : α) : (xs.cons a).Represents (a :: as) := by
  obtain rfl := h.items
  exact (h.counted.cons a).represents

/-- The rest of a list and of its sequence both exist or neither does. -/
theorem Represents.rest (h : xs.Represents as) : Option.Rel Represents xs.rest? as.tail? := by
  obtain rfl := h.items
  have hrest : ∀ ys, xs.rest? = some ys → ys.Counted := fun ys hys => h.counted.rest hys
  obtain ⟨as, n⟩ := xs
  cases as with
  | nil => exact .none
  | cons a as => exact .some (hrest _ rfl).represents

end Represents

/-- A list of given items can be built from back to front, each item being put in
    front of those behind it. -/
theorem ofList_eq_foldl (as : List α) :
    ofList as = as.reverse.foldl (fun xs a => xs.cons a) empty := by
  rw [List.foldl_reverse]
  induction as with
  | nil => rfl
  | cons a as ih =>
      rw [List.foldr_cons, ← ih]
      rfl

/-! ## What a list says about itself -/

section Answers

variable {xs ys : Items α}

/-- A list that keeps its length is empty when it has no first item. -/
theorem Counted.isEmpty_iff (h : xs.Counted) : xs.isEmpty = true ↔ xs.first? = none := by
  rw [isEmpty, beq_iff_eq, h, List.length_eq_zero_iff, first?, List.head?_eq_none_iff]

theorem rest?_eq_none_iff : xs.rest? = none ↔ xs.first? = none := by
  obtain ⟨as, n⟩ := xs
  cases as with
  | nil => exact iff_of_true rfl rfl
  | cons a as => exact iff_of_false (Option.some_ne_none _) (Option.some_ne_none _)

/-- Where there is a rest there is an item to be taken off the length. -/
theorem Counted.size_rest (h : xs.Counted) (hrest : xs.rest? = some ys) :
    0 < xs.size ∧ ys.size + 1 = xs.size := by
  obtain ⟨as, n⟩ := xs
  cases as with
  | nil => cases hrest
  | cons a as =>
      cases hrest
      have hn : n = as.length + 1 := h
      subst hn
      exact ⟨Nat.succ_pos _, rfl⟩

end Answers

/-! ## Lists that go by names -/

/-- An operation that makes the list of a name. -/
inductive Operation (ι α : Type) where
  | new (target : ι)
  | ofList (target : ι) (as : List α)
  | cons (target : ι) (a : α) (origin : ι)
  | rest (target origin : ι)
  | clone (target origin : ι)

/-- What the operations on lists are, on lists or on something else. -/
structure Operations (α β : Type) where
  empty : β
  ofList : List α → β
  cons : α → β → β
  rest? : β → Option β

/-- The operations on lists. -/
def operations : Operations α (Items α) :=
  ⟨empty, ofList, cons, rest?⟩

/-- The operations on plain sequences. -/
def sequenceOperations : Operations α (List α) :=
  ⟨[], id, List.cons, List.tail?⟩

variable {ι β : Type}

namespace Operation

/-- The name whose list is made. -/
def target : Operation ι α → ι
  | .new target | .ofList target _ | .cons target _ _ | .rest target _ | .clone target _ => target

/-- What an operation makes.  The rest of what has no items is nothing, and the name
    goes without a list then. -/
def outcome (on : Operations α β) (named : ι → Option β) : Operation ι α → Option β
  | .new _ => some on.empty
  | .ofList _ as => some (on.ofList as)
  | .cons _ a origin => (named origin).map (on.cons a)
  | .rest _ origin => (named origin).bind on.rest?
  | .clone _ origin => named origin

/-- What goes by the names after an operation. -/
def perform [DecidableEq ι] (on : Operations α β) (named : ι → Option β)
    (op : Operation ι α) : ι → Option β :=
  Function.update named op.target (op.outcome on named)

end Operation

/-- What goes by the names after some operations. -/
def afterAll [DecidableEq ι] (on : Operations α β) (ops : List (Operation ι α)) : ι → Option β :=
  ops.foldl (Operation.perform on) fun _ => none

/-- The lists after some operations. -/
def lists [DecidableEq ι] (ops : List (Operation ι α)) : ι → Option (Items α) :=
  afterAll operations ops

/-- The sequences after the same operations. -/
def sequences [DecidableEq ι] (ops : List (Operation ι α)) : ι → Option (List α) :=
  afterAll sequenceOperations ops

section Names

variable {named : ι → Option (Items α)} {named' : ι → Option (List α)}

/-- What follows from a list, if there is one, represents what follows from its
    sequence. -/
theorem rel_bind {xs? : Option (Items α)} {as? : Option (List α)} {f : Items α → Option (Items α)}
    {g : List α → Option (List α)} (h : Option.Rel Represents xs? as?)
    (hstep : ∀ xs as, xs.Represents as → Option.Rel Represents (f xs) (g as)) :
    Option.Rel Represents (xs?.bind f) (as?.bind g) := by
  cases h with
  | none => exact .none
  | some hr => exact hstep _ _ hr

/-- What an operation makes of lists represents what it makes of their sequences. -/
theorem Operation.represents_outcome (h : ∀ name, Option.Rel Represents (named name) (named' name))
    (op : Operation ι α) :
    Option.Rel Represents (op.outcome operations named)
      (op.outcome sequenceOperations named') := by
  cases op with
  | new target => exact .some represents_empty
  | ofList target as => exact .some (represents_ofList as)
  | clone target origin => exact h origin
  | cons target a origin =>
      simp only [outcome, Option.map_eq_bind]
      exact rel_bind (h origin) fun xs as hr => .some (hr.cons a)
  | rest target origin => exact rel_bind (h origin) fun xs as hr => hr.rest

variable [DecidableEq ι]

/-- **One operation keeps lists and sequences together.** -/
theorem Operation.represents_perform (h : ∀ name, Option.Rel Represents (named name) (named' name))
    (op : Operation ι α) (name : ι) :
    Option.Rel Represents (op.perform operations named name)
      (op.perform sequenceOperations named' name) := by
  by_cases hname : name = op.target
  · subst hname
    simp only [perform, Function.update_self]
    exact op.represents_outcome h
  · simp only [perform, Function.update_of_ne hname]
    exact h name

/-- The same operations on both sides keep lists and sequences together. -/
theorem represents_foldl (h : ∀ name, Option.Rel Represents (named name) (named' name))
    (ops : List (Operation ι α)) (name : ι) :
    Option.Rel Represents (ops.foldl (Operation.perform operations) named name)
      (ops.foldl (Operation.perform sequenceOperations) named' name) := by
  induction ops generalizing named named' with
  | nil => exact h name
  | cons op ops ih => exact ih (op.represents_perform h)

/-- From nothing, all lists represent the sequences of the same name. -/
theorem represents_lists (ops : List (Operation ι α)) (name : ι) :
    Option.Rel Represents (lists ops name) (sequences ops name) :=
  represents_foldl (fun _ => .none) ops name

theorem counted_lists {ops : List (Operation ι α)} {name : ι} {xs : Items α}
    (h : lists ops name = some xs) : xs.Counted := by
  have hrel := represents_lists ops name
  rw [h] at hrel
  generalize sequences ops name = as at hrel
  cases hrel with
  | some hr => exact hr.counted

end Names

/-- **Lists represent sequences.**  After any operations on lists that go by names, a
    list and its sequence both exist or neither does, and going through the list meets
    the items of the sequence, of which there are as many as the list says.  A list
    says that it is empty exactly when it has no first item, and has no rest exactly
    when it says so; where there is a rest, one is taken off a length that is not zero.
    With an item put in front, the first item is this one and the rest is the list as
    it was.  A list of given items has them in their order, and is what putting them in
    front one by one, from the last on, gives.  No operation changes the list of
    another name. -/
theorem lists_represent_sequences [DecidableEq ι] (ops : List (Operation ι α)) :
    (∀ name, Option.Rel Represents (lists ops name) (sequences ops name)) ∧
    (∀ (name : ι) (xs : Items α), lists ops name = some xs →
      (xs.isEmpty = true ↔ xs.first? = none) ∧
      (xs.rest? = none ↔ xs.isEmpty = true) ∧
      (∀ ys, xs.rest? = some ys → 0 < xs.size ∧ ys.size + 1 = xs.size) ∧
      (∀ a, (xs.cons a).first? = some a ∧ (xs.cons a).rest? = some xs)) ∧
    (∀ as : List α, (ofList as).Represents as ∧
      ofList as = as.reverse.foldl (fun xs a => xs.cons a) empty) ∧
    (∀ (op : Operation ι α) (name : ι), name ≠ op.target →
      lists (ops ++ [op]) name = lists ops name) := by
  refine ⟨?_, ?_, ?_, ?_⟩
  · exact represents_lists ops
  · intro name xs hxs
    have hcounted : xs.Counted := counted_lists hxs
    refine ⟨hcounted.isEmpty_iff, ?_, ?_, ?_⟩
    · rw [rest?_eq_none_iff, hcounted.isEmpty_iff]
    · intro ys hys
      exact hcounted.size_rest hys
    · intro a
      exact ⟨rfl, rfl⟩
  · intro as
    exact ⟨represents_ofList as, ofList_eq_foldl as⟩
  · intro op name hname
    rw [lists, afterAll, List.foldl_append]
    exact Function.update_of_ne hname _ _

/-- A list is put behind an item, and its rest is taken. -/
theorem lists_represent_sequences_shared :
    let ops : List (Operation String Nat) :=
      [.ofList "tail" [2, 3], .cons "list" 1 "tail", .clone "copy" "list", .rest "list" "list"]
    let op : Operation String Nat := .cons "tail" 7 "tail"
    let list : Items Nat := ⟨[2, 3], 2⟩
    lists ops "list" = some list ∧ (list.rest? = none ↔ list.isEmpty = true)
      ∧ list.rest? = some ⟨[3], 1⟩ ∧ 0 < list.size
      ∧ Option.Rel Represents (lists ops "copy") (sequences ops "copy")
      ∧ "list" ≠ op.target ∧ lists (ops ++ [op]) "list" = lists ops "list" := by
  intro ops op list
  have hlist : lists ops "list" = some list := rfl
  have hne : "list" ≠ op.target := by decide
  obtain ⟨hrepresents, hanswers, -, hother⟩ := lists_represent_sequences ops
  obtain ⟨-, hrest, hsize, -⟩ := hanswers "list" list hlist
  exact ⟨hlist, hrest, rfl, (hsize _ rfl).1, hrepresents "copy", hne, hother op "list" hne⟩

end Scriptlet.Items
