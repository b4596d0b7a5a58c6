/-! # Doubles as multiples of the least double

    Every finite double is a whole number of `2^-1074`, the least positive
    one.  Its bits without the sign are `scale * 2^52 + significand`, and it
    is worth `significand * 2^scale` such units; this holds for normal and
    subnormal doubles alike.  Reading a decimal and writing one are both
    exact arithmetic on these numbers. -/

namespace Scriptlet.Number

/-- The power of two that makes the units of a double whole. -/
def unitExponent : Nat := 1074

/-- The number of doubles between a power of two and the next one. -/
def stride : Nat := Nat.pow 2 52

/-- The bit that holds the sign. -/
def signBit : Nat := Nat.pow 2 63

/-- The bits of positive infinity: all finite magnitudes lie below. -/
def infinityBits : Nat := 2047 * stride

/-- The weight of a double's last place, as a power of two of units. -/
def scaleOf (bits : Nat) : Nat := bits / stride - 1

/-- A double's magnitude counted in its last place. -/
def significandOf (bits : Nat) : Nat := bits - scaleOf bits * stride

/-- The magnitude's bits: what is left of the bits without the sign. -/
def magnitudeBits (x : Float) : Nat := x.toBits.toNat % signBit

/-- Whether the sign bit is set; it is for `-0` too. -/
def isNegative (x : Float) : Bool := signBit ≤ x.toBits.toNat

/-- The double with the given sign and magnitude. -/
def ofMagnitude (negative : Bool) (bits : Nat) : Float :=
  Float.ofBits (UInt64.ofNat (if negative then signBit + bits else bits))

/-- The whole number nearest to `n / d`, a tie going to the even one. -/
def roundHalfEven (n d : Nat) : Nat :=
  let q := n / d
  let r := n % d
  if 2 * r < d then q else if d < 2 * r then q + 1 else q + q % 2

/-- The bits of the double nearest to `n / d`.  The scale is the least one
    under which the units fit into 53 bits; a significand rounded up to
    `2^53` carries into the next scale by itself. -/
def nearestBits (n d : Nat) : Nat :=
  let units := n * Nat.pow 2 unitExponent
  let scale := Nat.log2 (units / d) - 52
  min (scale * stride + roundHalfEven units (d * Nat.pow 2 scale)) infinityBits

end Scriptlet.Number
