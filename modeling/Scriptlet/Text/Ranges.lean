/-! # Sets of characters as ranges

    A set of characters is written as the closed ranges of its code points,
    in ascending order, so that a search stops at the first range above the
    character. -/

namespace Scriptlet.Text

/-- Closed ranges of code points. -/
abbrev Ranges := List (Nat × Nat)

/-- Whether a character's code point lies in one of the ranges. -/
def Ranges.has : Ranges → Char → Bool
  | [], _ => false
  | (low, high) :: rest, c =>
    low ≤ c.toNat && (c.toNat ≤ high || Ranges.has rest c)

/-- Every range holds a code point, and a gap divides it from the next. -/
def Ranges.ascending : Ranges → Bool
  | [] => true
  | [(low, high)] => low ≤ high
  | (low, high) :: next :: rest =>
    low ≤ high && high + 1 < next.1 && Ranges.ascending (next :: rest)

end Scriptlet.Text
