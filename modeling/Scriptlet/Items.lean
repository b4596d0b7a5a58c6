/-! # Counted lists

    A persistent list that knows its length.  Putting an item in front,
    taking the first item and taking the rest cost the same for every
    length, and so does asking for the length.

    The count is right (`Counted`) for every list built from the operations
    here; each operation keeps it so. -/

namespace Scriptlet

/-- A list together with its length. -/
structure Items (α : Type) where
  toList : List α
  size : Nat

namespace Items

variable {α : Type}

/-- The count is the number of items. -/
def Counted (xs : Items α) : Prop :=
  xs.size = xs.toList.length

/-- The list without items. -/
def empty : Items α := ⟨[], 0⟩

/-- Puts an item in front. -/
def cons (a : α) (xs : Items α) : Items α :=
  ⟨a :: xs.toList, xs.size + 1⟩

/-- The first item. -/
def first? (xs : Items α) : Option α :=
  xs.toList.head?

/-- All items but the first; nothing without items. -/
def rest? (xs : Items α) : Option (Items α) :=
  match xs.toList with
  | [] => none
  | _ :: tail => some ⟨tail, xs.size - 1⟩

/-- Whether there are no items. -/
def isEmpty (xs : Items α) : Bool :=
  xs.size == 0

/-- The list of the given items. -/
def ofList (as : List α) : Items α :=
  ⟨as, as.length⟩

theorem counted_empty : (empty : Items α).Counted := rfl

theorem counted_ofList (as : List α) : (ofList as).Counted := rfl

/-- An item in front keeps the size right. -/
theorem Counted.cons {xs : Items α} (h : xs.Counted) (a : α) : (xs.cons a).Counted := by
  simpa [Counted, Items.cons] using h

/-- Leaving the first item out keeps the size right. -/
theorem Counted.rest {xs ys : Items α} (h : xs.Counted) (hr : xs.rest? = some ys) :
    ys.Counted := by
  obtain ⟨as, n⟩ := xs
  cases as with
  | nil => simp [rest?] at hr
  | cons a as =>
      simp only [rest?, Option.some.injEq] at hr
      subst hr
      simp only [Counted, List.length_cons] at h ⊢
      omega

end Items

end Scriptlet
