/-! # Quoted text

    A text is written between double quotes.  Inside, a backslash, a double
    quote and a line feed are written as two characters, so the written form
    stands on one line; every other character stands for itself.
    `unescapeChar?_escape` says that each escape reads back. -/

namespace Scriptlet.Text

/-- How one character is written between quotes. -/
def escapeChar (c : Char) : List Char :=
  if c = '\\' then ['\\', '\\']
  else if c = '"' then ['\\', '"']
  else if c = '\n' then ['\\', 'n']
  else [c]

/-- The character that a backslash and `c` stand for, if they stand for one. -/
def unescapeChar? (c : Char) : Option Char :=
  if c = 'n' then some '\n'
  else if c = '"' then some '"'
  else if c = '\\' then some '\\'
  else none

/-- How a text is written between quotes. -/
def escapeChars (cs : List Char) : List Char :=
  cs.flatMap escapeChar

/-- The written form of a text, without its quotes. -/
def escape (s : String) : String :=
  String.ofList (escapeChars s.toList)

/-- The written form of a text with its quotes, in front of `rest`. -/
def quoteOnto (s : String) (rest : List Char) : List Char :=
  '"' :: (escapeChars s.toList ++ '"' :: rest)

/-- The written form of a text, quotes included. -/
def quote (s : String) : String :=
  String.ofList (quoteOnto s [])

/-- A character is written as itself or as an escape that reads back. -/
theorem unescapeChar?_escape (c : Char) :
    escapeChar c = [c] ∧ c ≠ '\\' ∧ c ≠ '"' ∨
      ∃ e, escapeChar c = ['\\', e] ∧ unescapeChar? e = some c := by
  unfold escapeChar
  split
  · next h => exact Or.inr ⟨'\\', rfl, by subst h; decide⟩
  · next hb =>
    split
    · next h => exact Or.inr ⟨'"', rfl, by subst h; decide⟩
    · next hq =>
      split
      · next h => exact Or.inr ⟨'n', rfl, by subst h; decide⟩
      · exact Or.inl ⟨rfl, hb, hq⟩

end Scriptlet.Text
