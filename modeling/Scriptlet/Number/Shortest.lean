import Scriptlet.Number.Units

/-! # The shortest decimal of a double

    A decimal reads back as a double when it lies in the interval of reals
    that round to it.  Going through the decimal grids from coarse to fine,
    the first grid with a point in that interval gives the decimal with the
    fewest digits; of two such points the nearer one is taken, and a tie
    goes up. -/

namespace Scriptlet.Number

/-- A decimal: `coefficient * 10^exponent`. -/
structure Decimal where
  coefficient : Nat
  exponent : Int
  deriving Repr, DecidableEq

/-- The reals that round to one positive double, in quarters of its unit.
    The ends belong to the interval when the significand is even. -/
structure Interval where
  low : Nat
  value : Nat
  high : Nat
  closed : Bool
  deriving Repr, DecidableEq

/-- The interval of a magnitude.  Below a power of two the doubles lie twice
    as close, so the lower end is only half as far away. -/
def Interval.ofBits (bits : Nat) : Interval :=
  let m := significandOf bits
  let unit := Nat.pow 2 (scaleOf bits)
  { low := (if m = stride ∧ scaleOf bits ≠ 0 then 4 * m - 1 else 4 * m - 2) * unit
    value := 4 * m * unit
    high := (4 * m + 2) * unit
    closed := m % 2 = 0 }

/-- What a quarter unit is multiplied with to compare it with the points of
    the grid of `10^k`. -/
def gridNumerator (k : Int) : Nat := Nat.pow 10 (-k).toNat

/-- What a point of the grid of `10^k` is multiplied with to compare it with
    quarter units. -/
def gridDenominator (k : Int) : Nat :=
  Nat.pow 10 k.toNat * Nat.pow 2 (unitExponent + 2)

/-- Whether the point `d * 10^k` lies in the interval. -/
def Interval.holds (i : Interval) (k : Int) (d : Nat) : Bool :=
  let point := d * gridDenominator k
  let low := i.low * gridNumerator k
  let high := i.high * gridNumerator k
  if i.closed then low ≤ point && point ≤ high else low < point && point < high

/-- The point of the grid of `10^k` that lies in the interval, nearest to the
    value: one of the value's two neighbours on that grid. -/
def Interval.hit? (i : Interval) (k : Int) : Option Nat :=
  let value := i.value * gridNumerator k
  let below := value / gridDenominator k
  let above := below + 1
  match i.holds k below, i.holds k above with
  | true, true =>
    if (below + above) * gridDenominator k ≤ 2 * value then some above else some below
  | true, false => some below
  | false, true => some above
  | false, false => none

/-- The first hit on the grids of `10^k`, `10^(k-1)` and so on. -/
def Interval.search (i : Interval) : Nat → Int → Decimal
  | 0, k => ⟨i.value * gridNumerator k / gridDenominator k, k⟩
  | n + 1, k =>
    match i.hit? k with
    | some d => ⟨d, k⟩
    | none => i.search n (k - 1)

/-- A power of ten above the magnitude: it is below `2^w` units for the `w`
    computed here, and `30103 / 100000` is just above the decimal logarithm
    of two. -/
def coarsestGrid (bits : Nat) : Int :=
  let w := Nat.log2 (significandOf bits) + 1 + scaleOf bits
  Int.fdiv (((w : Int) - unitExponent) * 30103) 100000 + 2

/-- The shortest decimal of a positive finite magnitude.  Seventeen digits
    always suffice, and the search starts at most four grids too early. -/
def shortest (bits : Nat) : Decimal :=
  (Interval.ofBits bits).search 24 (coarsestGrid bits)

end Scriptlet.Number
