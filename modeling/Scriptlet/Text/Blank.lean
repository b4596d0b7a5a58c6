import Scriptlet.Text.Ranges

/-! # Blank characters

    The characters with the Unicode property White_Space, and the trimming
    of a text at both ends.  Core's `Char.isWhitespace` knows only four of
    them. -/

namespace Scriptlet.Text

/-- The code points with the property White_Space. -/
def blankRanges : Ranges :=
  [(0x09, 0x0D), (0x20, 0x20), (0x85, 0x85), (0xA0, 0xA0), (0x1680, 0x1680),
   (0x2000, 0x200A), (0x2028, 0x2029), (0x202F, 0x202F), (0x205F, 0x205F),
   (0x3000, 0x3000)]

/-- Whether a character has the property White_Space. -/
def isBlank (c : Char) : Bool := blankRanges.has c

/-- Drops the blanks at both ends of a text. -/
def trim (cs : List Char) : List Char :=
  ((cs.dropWhile isBlank).reverse.dropWhile isBlank).reverse

example : blankRanges.ascending = true := by decide

/-- Twenty-five characters are blank. -/
example : (blankRanges.map fun range => range.2 + 1 - range.1).sum = 25 := by
  decide

end Scriptlet.Text
