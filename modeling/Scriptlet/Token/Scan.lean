import Scriptlet.Error
import Scriptlet.Number.Read
import Scriptlet.Token

/-! # Reading tokens

    A source text is cut into pieces, each the longest of its sort: blanks
    and comments, which leave no trace, tokens, and at most one fault, which
    ends the reading.  Every line feed in a piece moves on the line, so a
    token carries the line on which it ends. -/

namespace Scriptlet

/-- Why a piece of text is no token. -/
inductive Fault where
  | unrecognizedCharacter
  | unterminatedString
  | unknownEscape
  deriving Repr, DecidableEq

/-- The error of a fault in the given text. -/
def Fault.toError (f : Fault) (lexeme : String) (line : Nat) : SyntaxError :=
  match f with
  | .unrecognizedCharacter => .unrecognizedCharacter lexeme line
  | .unterminatedString => .unterminatedString lexeme line
  | .unknownEscape => .unknownEscape lexeme line

/-- What a piece of text amounts to. -/
inductive Content where
  | blank
  | token (kind : TokenKind)
  | fault (f : Fault)

/-- A piece at the front of a text: how many characters it has after its
    first one, and what it amounts to. -/
structure Piece where
  width : Nat
  content : Content

namespace Piece

/-- The characters that start an identifier or a keyword. -/
def isWordStart (c : Char) : Bool := c.isAlpha || c = '_'

/-- The characters that continue an identifier or a keyword. -/
def isWordPart (c : Char) : Bool := c.isAlphanum || c = '_'

/-- The rest of a string after its opening quote: `width` characters are read
    and stand for `decoded`, last one first. -/
def stringBody (width : Nat) (decoded : List Char) : List Char → Piece
  | [] => ⟨width, .fault .unterminatedString⟩
  | '"' :: _ => ⟨width + 1, .token (.string (String.ofList decoded.reverse))⟩
  | '\\' :: [] => ⟨width + 1, .fault .unterminatedString⟩
  | '\\' :: c :: cs =>
    match Text.unescapeChar? c with
    | some d => stringBody (width + 2) (d :: decoded) cs
    | none => ⟨width + 2, .fault .unknownEscape⟩
  | c :: cs => stringBody (width + 1) (c :: decoded) cs

/-- A number that starts with the digit `c`.  A point belongs to it only when
    a digit follows. -/
def number (c : Char) (cs : List Char) : Piece :=
  let whole := cs.takeWhile Char.isDigit
  let fraction :=
    match cs.dropWhile Char.isDigit with
    | '.' :: ds => ds.takeWhile Char.isDigit
    | _ => []
  let width := if fraction = [] then whole.length else whole.length + 1 + fraction.length
  ⟨width, .token (.number (Number.ofDigits (c :: whole) fraction 0))⟩

/-- A keyword or an identifier that starts with `c`. -/
def word (c : Char) (cs : List Char) : Piece :=
  let part := cs.takeWhile isWordPart
  let name := String.ofList (c :: part)
  match Keyword.ofSpelling? name with
  | some k => ⟨part.length, .token (.keyword k)⟩
  | none => ⟨part.length, .token (.identifier name)⟩

/-- The piece at the front of `c :: cs`. -/
def front (c : Char) (cs : List Char) : Piece :=
  if c = ' ' ∨ c = '\t' ∨ c = '\r' ∨ c = '\n' then ⟨0, .blank⟩
  else if c = '#' then ⟨(cs.takeWhile (· ≠ '\n')).length, .blank⟩
  else if c = '"' then stringBody 0 [] cs
  else if c.isDigit then number c cs
  else if isWordStart c then word c cs
  else match Mark.longest? c cs with
    | some m => ⟨m.spelling.length - 1, .token (.mark m)⟩
    | none => ⟨0, .fault .unrecognizedCharacter⟩

end Piece

namespace Token

/-- Reads on at `line`, after passing over the `skip` characters that belong
    to the piece just read; `done` are the tokens so far, last one first. -/
def scanFrom (line skip : Nat) (done : List Token) : List Char → Except SyntaxError (List Token)
  | [] => .ok (endAt line :: done).reverse
  | c :: cs =>
    match skip with
    | skip + 1 => scanFrom line skip done cs
    | 0 =>
      let piece := Piece.front c cs
      let lexeme := c :: cs.take piece.width
      let line := line + lexeme.count '\n'
      match piece.content with
      | .blank => scanFrom line piece.width done cs
      | .token kind =>
        scanFrom line piece.width (⟨kind, String.ofList lexeme, line⟩ :: done) cs
      | .fault f => .error (f.toError (String.ofList lexeme) line)

/-- The tokens of a source text, the end of the input last; or the first
    fault. -/
def scan (source : String) : Except SyntaxError (List Token) :=
  scanFrom 1 0 [] source.toList

end Token

end Scriptlet
