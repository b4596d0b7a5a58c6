/-! # Errors

    Why a source unit was refused or stopped, the sentence that says so, and
    the report a host receives. -/

namespace Scriptlet

/-- The kind of an error, without its particulars. -/
inductive ErrorKind where
  | unterminatedString
  | unrecognizedCharacter
  | unknownEscape
  | unmatchedParenthesis
  | unexpectedToken
  | missingIdentifier
  | undefinedSymbol
  | uncallableValue
  | incompatibleTypes
  | divisionByZero
  | argumentCount
  | contractViolation
  | stackOverflow
  deriving Repr, DecidableEq

/-- The words for a kind of error. -/
def ErrorKind.text : ErrorKind → String
  | .unterminatedString => "unterminated string"
  | .unrecognizedCharacter => "unrecognized character"
  | .unknownEscape => "unknown escape sequence"
  | .unmatchedParenthesis => "unmatched parenthesis"
  | .unexpectedToken => "unexpected token"
  | .missingIdentifier => "missing identifier"
  | .undefinedSymbol => "undefined symbol"
  | .uncallableValue => "uncallable value"
  | .incompatibleTypes => "incompatible types"
  | .divisionByZero => "division by zero"
  | .argumentCount => "incorrect number of arguments"
  | .contractViolation => "builtin contract violation"
  | .stackOverflow => "stack overflow"

/-- Whether an error was found before evaluation or during it. -/
inductive Severity where
  | static
  | runtime
  deriving Repr, DecidableEq

/-- The words for a severity. -/
def Severity.text : Severity → String
  | .static => "syntax error"
  | .runtime => "runtime error"

/-- What a host is told of an error: `near` is the nearest lexeme or
    expression, empty at the end of the input. -/
structure Report where
  kind : ErrorKind
  severity : Severity
  near : String
  line : Nat
  deriving Repr, DecidableEq

/-- The report as one sentence. -/
def Report.text (r : Report) : String :=
  let opening :=
    "Error on line " ++ toString r.line ++ ": " ++ r.kind.text ++ " (" ++ r.severity.text ++ ")"
  if r.near.isEmpty then opening ++ " at end of input."
  else opening ++ " near \"" ++ r.near ++ "\"."

/-- A text that cannot be read as a program: the offending lexeme (empty at
    the end of the input) and its line. -/
inductive SyntaxError where
  | unterminatedString (lexeme : String) (line : Nat)
  | unrecognizedCharacter (lexeme : String) (line : Nat)
  | unknownEscape (lexeme : String) (line : Nat)
  | unmatchedParenthesis (found : String) (line : Nat)
  | unexpectedToken (found : String) (line : Nat)
  | missingIdentifier (found : String) (line : Nat)
  deriving Repr, DecidableEq

namespace SyntaxError

/-- The line that an error is attributed to. -/
def line : SyntaxError → Nat
  | .unterminatedString _ n | .unrecognizedCharacter _ n | .unknownEscape _ n
  | .unmatchedParenthesis _ n | .unexpectedToken _ n | .missingIdentifier _ n => n

/-- The offending lexeme. -/
def near : SyntaxError → String
  | .unterminatedString s _ | .unrecognizedCharacter s _ | .unknownEscape s _
  | .unmatchedParenthesis s _ | .unexpectedToken s _ | .missingIdentifier s _ => s

/-- The kind of an error. -/
def kind : SyntaxError → ErrorKind
  | .unterminatedString .. => .unterminatedString
  | .unrecognizedCharacter .. => .unrecognizedCharacter
  | .unknownEscape .. => .unknownEscape
  | .unmatchedParenthesis .. => .unmatchedParenthesis
  | .unexpectedToken .. => .unexpectedToken
  | .missingIdentifier .. => .missingIdentifier

/-- A found token in words: the end of the input has no text of its own. -/
def describeFound (found : String) : String :=
  if found.isEmpty then "end of input" else "token '" ++ found ++ "'"

/-- What went wrong, in words. -/
def detail : SyntaxError → String
  | .unterminatedString s _ => "Unterminated string " ++ s ++ "."
  | .unrecognizedCharacter s _ => "Unrecognized character '" ++ s ++ "'."
  | .unknownEscape s _ => "Unknown escape sequence in " ++ s ++ "."
  | .unmatchedParenthesis s _ =>
    "Expected closing parenthesis ')' but found " ++ describeFound s ++ "."
  | .unexpectedToken s _ => "Unexpected " ++ describeFound s ++ "."
  | .missingIdentifier s _ => "Expected an identifier but found " ++ describeFound s ++ "."

end SyntaxError

/-- An evaluation that stopped: the offending symbol, expression text or
    builtin, and the line. -/
inductive RuntimeError where
  | undefinedSymbol (name : String) (line : Nat)
  | uncallableValue (expr : String) (line : Nat)
  | incompatibleTypes (expr : String) (line : Nat)
  | divisionByZero (expr : String) (line : Nat)
  | argumentCount (expr : String) (expected found : Nat) (line : Nat)
  | contractViolation (builtin details : String) (line : Nat)
  | stackOverflow (depth : Nat) (line : Nat)
  deriving Repr, DecidableEq

namespace RuntimeError

/-- The line that an error is attributed to. -/
def line : RuntimeError → Nat
  | .undefinedSymbol _ n | .uncallableValue _ n | .incompatibleTypes _ n
  | .divisionByZero _ n | .argumentCount _ _ _ n | .contractViolation _ _ n
  | .stackOverflow _ n => n

/-- The nearest symbol, expression text or builtin. -/
def near : RuntimeError → String
  | .undefinedSymbol s _ | .uncallableValue s _ | .incompatibleTypes s _
  | .divisionByZero s _ | .argumentCount s _ _ _ | .contractViolation s _ _ => s
  | .stackOverflow .. => ""

/-- The kind of an error. -/
def kind : RuntimeError → ErrorKind
  | .undefinedSymbol .. => .undefinedSymbol
  | .uncallableValue .. => .uncallableValue
  | .incompatibleTypes .. => .incompatibleTypes
  | .divisionByZero .. => .divisionByZero
  | .argumentCount .. => .argumentCount
  | .contractViolation .. => .contractViolation
  | .stackOverflow .. => .stackOverflow

/-- What went wrong, in words. -/
def detail : RuntimeError → String
  | .undefinedSymbol s _ => "Undefined symbol '" ++ s ++ "'."
  | .uncallableValue s _ => "Value of '" ++ s ++ "' cannot be called."
  | .incompatibleTypes s _ => "Incompatible types in '" ++ s ++ "'."
  | .divisionByZero s _ => "Division by zero in '" ++ s ++ "'."
  | .argumentCount s expected found _ =>
    "'" ++ s ++ "' expects " ++ toString expected ++ " argument(s) but got " ++ toString found ++ "."
  | .contractViolation s details _ => "Invalid use of builtin '" ++ s ++ "': " ++ details ++ "."
  | .stackOverflow depth _ => "Stack overflow after " ++ toString depth ++ " nested calls."

end RuntimeError

/-- Any error that ends a source unit. -/
inductive Error where
  | static (e : SyntaxError)
  | runtime (e : RuntimeError)
  deriving Repr, DecidableEq

namespace Error

/-- The line that an error is attributed to. -/
def line : Error → Nat
  | .static e => e.line
  | .runtime e => e.line

/-- The error as one sentence. -/
def message : Error → String
  | .static e => "Error on line " ++ toString e.line ++ ": " ++ e.detail
  | .runtime e => "Error on line " ++ toString e.line ++ ": " ++ e.detail

/-- What a host is told of an error. -/
def report : Error → Report
  | .static e => ⟨e.kind, .static, e.near, e.line⟩
  | .runtime e => ⟨e.kind, .runtime, e.near, e.line⟩

end Error

end Scriptlet
