import Scriptlet.Literal
import Scriptlet.Operator

/-! # Tokens

    The words and marks of a source text. -/

namespace Scriptlet

/-- A word with a meaning of its own. -/
inductive Keyword where
  | and
  | or
  | not
  | true
  | false
  | nil
  | ifWord
  | elseWord
  deriving Repr, DecidableEq

namespace Keyword

/-- How a keyword is spelled. -/
def spelling : Keyword → String
  | .and => "and"
  | .or => "or"
  | .not => "not"
  | .true => "true"
  | .false => "false"
  | .nil => "nil"
  | .ifWord => "if"
  | .elseWord => "else"

/-- Every keyword. -/
def all : List Keyword :=
  [.and, .or, .not, .true, .false, .nil, .ifWord, .elseWord]

/-- The keyword with a spelling. -/
def ofSpelling? (s : String) : Option Keyword :=
  all.find? (·.spelling == s)

/-- Every keyword is found by its spelling. -/
theorem ofSpelling?_spelling (k : Keyword) : ofSpelling? k.spelling = some k := by
  cases k <;> decide

end Keyword

/-- An operator or a piece of punctuation. -/
inductive Mark where
  | plus
  | minus
  | star
  | slash
  | caret
  | leftParen
  | rightParen
  | leftBracket
  | rightBracket
  | leftBrace
  | rightBrace
  | colon
  | comma
  | dot
  | backslash
  | equal
  | equalEqual
  | slashEqual
  | less
  | greater
  | lessEqual
  | greaterEqual
  | dotDot
  deriving Repr, DecidableEq

namespace Mark

/-- How a mark is spelled. -/
def spelling : Mark → String
  | .plus => "+"
  | .minus => "-"
  | .star => "*"
  | .slash => "/"
  | .caret => "^"
  | .leftParen => "("
  | .rightParen => ")"
  | .leftBracket => "["
  | .rightBracket => "]"
  | .leftBrace => "\x7b"
  | .rightBrace => "\x7d"
  | .colon => ":"
  | .comma => ","
  | .dot => "."
  | .backslash => "\\"
  | .equal => "="
  | .equalEqual => "=="
  | .slashEqual => "/="
  | .less => "<"
  | .greater => ">"
  | .lessEqual => "<="
  | .greaterEqual => ">="
  | .dotDot => ".."

/-- The mark that two characters spell together. -/
def pair? (c d : Char) : Option Mark :=
  if c = '=' ∧ d = '=' then some .equalEqual
  else if c = '/' ∧ d = '=' then some .slashEqual
  else if c = '<' ∧ d = '=' then some .lessEqual
  else if c = '>' ∧ d = '=' then some .greaterEqual
  else if c = '.' ∧ d = '.' then some .dotDot
  else none

/-- The mark that one character spells. -/
def single? (c : Char) : Option Mark :=
  if c = '+' then some .plus
  else if c = '-' then some .minus
  else if c = '*' then some .star
  else if c = '/' then some .slash
  else if c = '^' then some .caret
  else if c = '(' then some .leftParen
  else if c = ')' then some .rightParen
  else if c = '[' then some .leftBracket
  else if c = ']' then some .rightBracket
  else if c = '\x7b' then some .leftBrace
  else if c = '\x7d' then some .rightBrace
  else if c = ':' then some .colon
  else if c = ',' then some .comma
  else if c = '.' then some .dot
  else if c = '\\' then some .backslash
  else if c = '=' then some .equal
  else if c = '<' then some .less
  else if c = '>' then some .greater
  else none

/-- The longest mark at the front of `c :: cs`. -/
def longest? (c : Char) (cs : List Char) : Option Mark :=
  match cs with
  | [] => single? c
  | d :: _ => (pair? c d).or (single? c)

end Mark

/-- What a token is, with the decoded text of numbers, strings and
    identifiers. -/
inductive TokenKind where
  | number (x : Float)
  | string (s : String)
  | identifier (name : String)
  | keyword (k : Keyword)
  | mark (m : Mark)
  | endOfInput

/-- A token with its own text and the line on which it ends. -/
structure Token where
  kind : TokenKind
  lexeme : String
  line : Nat

namespace Token

/-- The end of the input on a line. -/
def endAt (line : Nat) : Token := ⟨.endOfInput, "", line⟩

/-- Whether the token marks the end of the input. -/
def isEnd (t : Token) : Bool :=
  match t.kind with
  | .endOfInput => true
  | _ => false

/-- The token in words. -/
def text (t : Token) : String :=
  if t.isEnd then "end of input" else t.lexeme

/-- The literal that a number or a string token carries. -/
def literal? (t : Token) : Option Literal :=
  match t.kind with
  | .number x => some (.number x)
  | .string s => some (.string s)
  | _ => none

end Token

/-- The binary operator that a kind of token stands for. -/
def TokenKind.binaryOp? : TokenKind → Option BinaryOp
  | .keyword .and => some .and
  | .keyword .or => some .or
  | .mark .equalEqual => some .equal
  | .mark .slashEqual => some .notEqual
  | .mark .less => some .less
  | .mark .greater => some .greater
  | .mark .lessEqual => some .lessEqual
  | .mark .greaterEqual => some .greaterEqual
  | .mark .colon => some .cons
  | .mark .dotDot => some .concat
  | .mark .plus => some .add
  | .mark .minus => some .subtract
  | .mark .star => some .multiply
  | .mark .slash => some .divide
  | .mark .caret => some .power
  | _ => none

end Scriptlet
