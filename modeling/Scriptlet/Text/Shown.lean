import Scriptlet.Text.Extending
import Scriptlet.Text.Graphic

/-! # Text shown for inspection

    Between double quotes; a backslash, a double quote and every character
    that a reader could not make out on its own are written as escapes, the
    common ones by a letter and the others by their code point. -/

namespace Scriptlet.Text

/-- A code point in hexadecimal between braces. -/
def codePoint (c : Char) : List Char :=
  '\\' :: 'u' :: '\x7b' :: (Nat.toDigits 16 c.toNat ++ ['\x7d'])

/-- How one character is shown. -/
def shownChar (c : Char) : List Char :=
  if c = '\\' then ['\\', '\\']
  else if c = '"' then ['\\', '"']
  else if c = '\n' then ['\\', 'n']
  else if c = '\r' then ['\\', 'r']
  else if c = '\t' then ['\\', 't']
  else if c = '\x00' then ['\\', '0']
  else if isExtending c || !isGraphic c then codePoint c
  else [c]

/-- How a text is shown. -/
def shown (s : String) : String :=
  String.ofList ('"' :: (s.toList.flatMap shownChar ++ ['"']))

end Scriptlet.Text
