import Scriptlet.Number.Units
import Scriptlet.Text.Blank

/-! # Numbers from text

    A decimal reads as the double nearest to it, a tie going to the even
    one.  The accepted texts are an optional sign followed by `inf`,
    `infinity` or `nan` in any case, or by digits with at most one point and
    an optional exponent; at least one digit stands beside the point.  Of a
    long exponent only the first digits count: enough to pass `2^16`. -/

namespace Scriptlet.Number

/-- The bits of the double nearest to `m * 10^e`.  Beyond the outer
    thresholds every decimal rounds to infinity or to zero, whatever its
    digits, so powers of ten stay small. -/
def decimalBits (m : Nat) (e : Int) : Nat :=
  if m = 0 then 0
  else if 400 < e then infinityBits
  else if e + (Nat.log2 m + 1 : Nat) < -400 then 0
  else if 0 ≤ e then nearestBits (m * Nat.pow 10 e.toNat) 1
  else nearestBits m (Nat.pow 10 (-e).toNat)

/-- The double nearest to a decimal without a sign: whole digits, fraction
    digits and an exponent of ten. -/
def ofDigits (whole fraction : List Char) (exponent : Int) : Float :=
  ofMagnitude false
    (decimalBits (Nat.ofDigitChars 10 (whole ++ fraction) 0) (exponent - fraction.length))

/-- From this exponent on, its further digits count no more. -/
def exponentBound : Nat := 0x10000

/-- The size of an exponent with the given digits, read from the left until
    it has reached the bound. -/
def exponentSize (digits : List Char) : Nat :=
  digits.foldl (fun n d => if n < exponentBound then 10 * n + (d.toNat - '0'.toNat) else n) 0

/-- The exponent part of a decimal, which may be absent but has at least one
    digit when present. -/
def readExponent? : List Char → Option Int
  | [] => some 0
  | c :: cs =>
    if c = 'e' ∨ c = 'E' then
      let (negative, digits) :=
        match cs with
        | '-' :: ds => (true, ds)
        | '+' :: ds => (false, ds)
        | ds => (false, ds)
      if digits ≠ [] ∧ digits.all Char.isDigit then
        let size : Int := exponentSize digits
        some (if negative then -size else size)
      else none
    else none

/-- A decimal without a sign. -/
def readDecimal? (cs : List Char) : Option Float :=
  let whole := cs.takeWhile Char.isDigit
  let afterWhole := cs.dropWhile Char.isDigit
  let (fraction, tail) :=
    match afterWhole with
    | '.' :: ds => (ds.takeWhile Char.isDigit, ds.dropWhile Char.isDigit)
    | ds => ([], ds)
  if whole = [] ∧ fraction = [] then none
  else (readExponent? tail).map (ofDigits whole fraction)

/-- A magnitude: one of the names in any case, or a decimal. -/
def readMagnitude? (cs : List Char) : Option Float :=
  let name := String.ofList (cs.map Char.toLower)
  if name = "inf" ∨ name = "infinity" then some (ofMagnitude false infinityBits)
  else if name = "nan" then some (ofMagnitude false (infinityBits + stride / 2))
  else readDecimal? cs

/-- The number that a text spells, if it spells one. -/
def read? : List Char → Option Float
  | '-' :: cs => (readMagnitude? cs).map (- ·)
  | '+' :: cs => readMagnitude? cs
  | cs => readMagnitude? cs

/-- The number that a text spells between blanks, if it spells one. -/
def readTrimmed? (s : String) : Option Float :=
  read? (Text.trim s.toList)

end Scriptlet.Number
