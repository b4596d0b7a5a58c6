/-! # Supplies

    What comes from outside one item after the other, such as random numbers
    and readings of a clock.  All items are there from the start and are taken
    in order.  Who made them, and how, is not said: what holds for a supply
    holds for every generator and for every clock. -/

namespace Scriptlet

/-- The items, and how many of them have been taken. -/
structure Supply (α : Type) where
  item : Nat → α
  taken : Nat := 0

namespace Supply

variable {α : Type}

/-- The next item, and the supply after it. -/
def next (s : Supply α) : α × Supply α :=
  (s.item s.taken, { s with taken := s.taken + 1 })

/-- The same item again and again. -/
def always (a : α) : Supply α :=
  { item := fun _ => a }

end Supply

end Scriptlet
