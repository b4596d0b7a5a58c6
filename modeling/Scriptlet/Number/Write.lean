import Scriptlet.Number.Shortest

/-! # Numbers as text

    A number is written with its shortest digits in positional notation:
    never an exponent, no point without a fraction.  Negative zero keeps its
    sign, and the values that are no numbers have names. -/

namespace Scriptlet.Number

/-- Digits in positional notation. -/
def positional (d : Decimal) : List Char :=
  let digits := Nat.toDigits 10 d.coefficient
  match d.exponent with
  | .ofNat zeros => digits ++ List.replicate zeros '0'
  | .negSucc n =>
    let places := n + 1
    if digits.length ≤ places then
      '0' :: '.' :: (List.replicate (places - digits.length) '0' ++ digits)
    else
      digits.take (digits.length - places) ++ '.' :: digits.drop (digits.length - places)

/-- The text of a magnitude. -/
def magnitudeText (bits : Nat) : List Char :=
  if bits = 0 then ['0']
  else if bits = infinityBits then "inf".toList
  else positional (shortest bits)

/-- The text of a number. -/
def chars (x : Float) : List Char :=
  if x.isNaN then "NaN".toList
  else if isNegative x then '-' :: magnitudeText (magnitudeBits x)
  else magnitudeText (magnitudeBits x)

/-- The text of a number. -/
def text (x : Float) : String :=
  String.ofList (chars x)

end Scriptlet.Number
