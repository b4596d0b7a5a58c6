import Scriptlet.Error
import Scriptlet.Expr
import Scriptlet.Token.Scan

/-! # Reading programs

    A program is read token by token by an automaton with an explicit stack,
    so nesting costs no call stack and a syntax error is found at the first
    token that cannot go on.

    From loosest to tightest: definitions, the levels of the binary
    operators, unary operators, calls.  While an operand may still be
    extended, the operators in front of it wait; an operator that binds less
    tightly closes them. -/

namespace Scriptlet.Reader

/-- An operator that waits for its right operand. -/
inductive Waiting where
  | unary (op : UnaryOp) (line : Nat)
  | binary (op : BinaryOp) (lhs : Expr) (line : Nat)

/-- Gives a waiting operator its right operand. -/
def Waiting.close : Waiting → Expr → Expr
  | .unary op line, e => .unary op e line
  | .binary op lhs line, e => .binary op lhs e line

/-- Whether a waiting operator takes the operand in front of `op`: it binds
    tighter, or equally tight in a chain that groups from the left. -/
def Waiting.yieldsTo (w : Waiting) (op : BinaryOp) : Bool :=
  match w with
  | .unary .. => true
  | .binary waiting .. =>
    op.level < waiting.level || (op.level == waiting.level && !op.groupsRight)

/-- An expression in progress: the definitions whose value it is, the waiting
    operators, both innermost first, and the first token of the value. -/
structure Partial where
  targets : List (String × Nat) := []
  waiting : List Waiting := []
  start? : Option Token := none

namespace Partial

/-- Remembers the first token. -/
def startAt (p : Partial) (t : Token) : Partial :=
  { p with start? := some (p.start?.getD t) }

/-- Lets an operator wait for its right operand. -/
def wait (p : Partial) (w : Waiting) : Partial :=
  { p with waiting := w :: p.waiting }

/-- Closes the waiting operators that yield to `op`. -/
def closeFor (op : BinaryOp) : List Waiting → Expr → List Waiting × Expr
  | [], e => ([], e)
  | w :: ws, e => if w.yieldsTo op then closeFor op ws (w.close e) else (w :: ws, e)

/-- Lets a binary operator wait behind the operand `e`. -/
def extend (p : Partial) (op : BinaryOp) (e : Expr) (line : Nat) : Partial :=
  let (waiting, lhs) := closeFor op p.waiting e
  { p with waiting := .binary op lhs line :: waiting }

/-- The whole expression, `e` being its last operand. -/
def finish (p : Partial) (e : Expr) : Expr :=
  let value := p.waiting.foldl (fun e w => w.close e) e
  p.targets.foldl (fun e target => .define target.1 e target.2) value

end Partial

/-- A construct around the expression in progress: what is known of it, with
    the items already read last one first. -/
inductive Around where
  | group (line : Nat)
  | list (items : List Expr) (line : Nat)
  | args (callee : Expr) (items : List Expr) (line : Nat)
  | test (line : Nat)
  | yes (test : Expr) (items : List Expr) (line : Nat)
  | no (test : Expr) (yes : List Expr) (items : List Expr) (line : Nat)
  | body (params : List String) (items : List Expr) (line : Nat)

/-- Where an expression stands: the constructs around it, innermost first,
    each with the expression that it belongs to, and the finished top-level
    expressions, last one first. -/
structure Place where
  around : List (Around × Partial) := []
  finished : List Expr := []

/-- The place inside one more construct. -/
def Place.enter (place : Place) (a : Around) (outer : Partial) : Place :=
  { place with around := (a, outer) :: place.around }

/-- A point inside a construct at which no expression is in progress. -/
inductive Gap where
  | firstItem (line : Nat)
  | firstArg (callee : Expr) (line : Nat)
  | elseWord (test : Expr) (yes : List Expr) (line : Nat)
  | elseBlock (test : Expr) (yes : List Expr) (line : Nat)
  | firstParam (line : Nat)
  | param (params : List String) (line : Nat)
  | paramEnd (params : List String) (line : Nat)

/-- What the automaton knows after some tokens. -/
inductive State where
  | idle
  | operand (place : Place) (p : Partial)
  | operator (place : Place) (p : Partial) (e : Expr)
  | gap (g : Gap) (place : Place) (p : Partial)

/-- The token is not the one that was due. -/
def unexpected {α : Type} (t : Token) : Except SyntaxError α :=
  .error (.unexpectedToken t.lexeme t.line)

/-- A closing parenthesis was due. -/
def unmatched {α : Type} (t : Token) : Except SyntaxError α :=
  .error (.unmatchedParenthesis t.lexeme t.line)

/-- An identifier was due. -/
def missingName {α : Type} (t : Token) : Except SyntaxError α :=
  .error (.missingIdentifier t.lexeme t.line)

/-- Reads a token where an operand is due. -/
def readOperand (place : Place) (p : Partial) (t : Token) : Except SyntaxError State :=
  let p := p.startAt t
  match t.kind with
  | .number x => .ok (.operator place p (.literal (.number x) t.line))
  | .string s => .ok (.operator place p (.literal (.string s) t.line))
  | .identifier name => .ok (.operator place p (.symbol name t.line))
  | .keyword .true => .ok (.operator place p (.literal (.bool true) t.line))
  | .keyword .false => .ok (.operator place p (.literal (.bool false) t.line))
  | .keyword .nil => .ok (.operator place p (.literal .nil t.line))
  | .keyword .not => .ok (.operand place (p.wait (.unary .not t.line)))
  | .mark .minus => .ok (.operand place (p.wait (.unary .negate t.line)))
  | .mark .leftParen => .ok (.operand (place.enter (.group t.line) p) {})
  | .keyword .ifWord => .ok (.operand (place.enter (.test t.line) p) {})
  | .mark .leftBracket => .ok (.gap (.firstItem t.line) place p)
  | .mark .backslash => .ok (.gap (.firstParam t.line) place p)
  | _ => unexpected t

/-- Reads the token behind a finished expression `e`, which the construct
    around it takes. -/
def readAfter (place : Place) (e : Expr) (t : Token) : Except SyntaxError State :=
  match place.around with
  | [] => readOperand { place with finished := e :: place.finished } {} t
  | (a, outer) :: around =>
    let up : Place := { place with around := around }
    match a, t.kind with
    | .group line, .mark .rightParen => .ok (.operator up outer (.group e line))
    | .group _, _ => unmatched t
    | .list items line, .mark .comma =>
      .ok (.operand (up.enter (.list (e :: items) line) outer) {})
    | .list items line, .mark .rightBracket =>
      .ok (.operator up outer (.list (e :: items).reverse line))
    | .list .., _ => unexpected t
    | .args callee items line, .mark .comma =>
      .ok (.operand (up.enter (.args callee (e :: items) line) outer) {})
    | .args callee items line, .mark .rightParen =>
      .ok (.operator up outer (.call callee (e :: items).reverse line))
    | .args .., _ => unmatched t
    | .test line, .mark .leftBrace => .ok (.operand (up.enter (.yes e [] line) outer) {})
    | .test _, _ => unexpected t
    | .yes test items line, .mark .rightBrace =>
      .ok (.gap (.elseWord test (e :: items).reverse line) up outer)
    | .yes test items line, _ => readOperand (up.enter (.yes test (e :: items) line) outer) {} t
    | .no test yes items line, .mark .rightBrace =>
      .ok (.operator up outer (.choice test yes (e :: items).reverse line))
    | .no test yes items line, _ =>
      readOperand (up.enter (.no test yes (e :: items) line) outer) {} t
    | .body params items line, .mark .rightBrace =>
      .ok (.operator up outer (.function params (e :: items).reverse line))
    | .body params items line, _ =>
      readOperand (up.enter (.body params (e :: items) line) outer) {} t

/-- Reads an equals sign behind the operand `e`: what stands in front of it
    must be a symbol alone.  Else its first token is at fault. -/
def readEquals (place : Place) (p : Partial) (e : Expr) (t : Token) : Except SyntaxError State :=
  match p.waiting, e with
  | [], .symbol name _ => .ok (.operand place { targets := (name, t.line) :: p.targets })
  | _, _ => missingName (p.start?.getD t)

/-- Reads a token behind an operand `e` that may still be extended. -/
def readOperator (place : Place) (p : Partial) (e : Expr) (t : Token) : Except SyntaxError State :=
  match t.kind with
  | .mark .leftParen => .ok (.gap (.firstArg e t.line) place p)
  | .mark .equal => readEquals place p e t
  | kind =>
    match kind.binaryOp? with
    | some op => .ok (.operand place (p.extend op e t.line))
    | none => readAfter place (p.finish e) t

/-- Reads a token at a point inside a construct. -/
def readGap (g : Gap) (place : Place) (p : Partial) (t : Token) : Except SyntaxError State :=
  match g, t.kind with
  | .firstItem line, .mark .rightBracket => .ok (.operator place p (.list [] line))
  | .firstItem line, _ => readOperand (place.enter (.list [] line) p) {} t
  | .firstArg callee line, .mark .rightParen => .ok (.operator place p (.call callee [] line))
  | .firstArg callee line, _ => readOperand (place.enter (.args callee [] line) p) {} t
  | .elseWord test yes line, .keyword .elseWord => .ok (.gap (.elseBlock test yes line) place p)
  | .elseWord .., _ => unexpected t
  | .elseBlock test yes line, .mark .leftBrace =>
    .ok (.operand (place.enter (.no test yes [] line) p) {})
  | .elseBlock .., _ => unexpected t
  | .firstParam line, .mark .leftBrace => .ok (.operand (place.enter (.body [] [] line) p) {})
  | .firstParam line, .identifier name => .ok (.gap (.paramEnd [name] line) place p)
  | .firstParam _, _ => missingName t
  | .param params line, .identifier name => .ok (.gap (.paramEnd (name :: params) line) place p)
  | .param .., _ => missingName t
  | .paramEnd params line, .mark .comma => .ok (.gap (.param params line) place p)
  | .paramEnd params line, .mark .leftBrace =>
    .ok (.operand (place.enter (.body params.reverse [] line) p) {})
  | .paramEnd .., _ => unexpected t

/-- Reads one token. -/
def State.step : State → Token → Except SyntaxError State
  | .idle, t => readOperand {} {} t
  | .operand place p, t => readOperand place p t
  | .operator place p e, t => readOperator place p e t
  | .gap g place p, t => readGap g place p t

/-- The program read so far, where one may end. -/
def State.complete? : State → Option Program
  | .idle => some []
  | .operator { around := [], finished } p e => some (p.finish e :: finished).reverse
  | _ => none

/-- Reads tokens up to the end of the input, or to their own end when that
    mark is missing. -/
def State.run (s : State) : List Token → Except SyntaxError Program
  | [] =>
    match s.complete? with
    | some program => .ok program
    | none => .error (.unexpectedToken "" 1)
  | t :: ts =>
    match (if t.isEnd then s.complete? else none) with
    | some program => .ok program
    | none =>
      match s.step t with
      | .ok next => next.run ts
      | .error e => .error e

end Scriptlet.Reader

namespace Scriptlet

/-- The program that a sequence of tokens spells. -/
def Program.ofTokens (tokens : List Token) : Except SyntaxError Program :=
  Reader.State.idle.run tokens

/-- The program that a source text spells. -/
def Program.read (source : String) : Except SyntaxError Program :=
  match Token.scan source with
  | .ok tokens => Program.ofTokens tokens
  | .error e => .error e

end Scriptlet
