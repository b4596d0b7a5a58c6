import Scriptlet.CommandLine
import Std.Time

/-! # The program

    The only part that touches the world: arguments, files, streams, clock. -/

namespace Scriptlet.Terminal

/-- The whole milliseconds since the start of 1970, below 0 before it. -/
def now : IO Int := do
  let t ← Std.Time.Timestamp.now
  return t.toNanosecondsSinceUnixEpoch.toInt / 1000000

/-- Random numbers from the generator of the standard library, one generator a
    number.  Without a seed they follow from `entropy`. -/
def randomness (entropy : Nat) : Randomness := fun seed? =>
  { item := fun i =>
      let generator := mkStdGen (mixHash (hash (seed?.getD entropy)) (hash i)).toNat
      Float.ofNat (randNat generator 0 9007199254740991).1 / 9007199254740992.0 }

/-- The bytes of the next line of standard input, its end included. -/
partial def readBytes (stdin : IO.FS.Stream) (line : List UInt8) : IO (List UInt8) := do
  let chunk ← stdin.read 1
  match chunk.toList with
  | [] => return line.reverse
  | b :: _ => if b = 10 then return (b :: line).reverse else readBytes stdin (b :: line)

/-- Writes to standard output at once. -/
def say (text : String) : IO Unit := do
  let stdout ← IO.getStdout
  stdout.putStr text
  stdout.flush

/-- Does what a request asks for. -/
def perform {β : Type} (q : Request β) : IO β :=
  match q with
  | .print text => say text
  | .readLine => do
    let line ← readBytes (← IO.getStdin) []
    return ((Console.decode? line).map Console.withoutEnd).getD ""
  | .clock => now
  | .report r => IO.eprintln r.text

/-- Takes the turns of a dialogue one by one. -/
def performTurns {α : Type} : Turns α → IO α
  | .done a => return a
  | .ask q next => do performTurns (next (← perform q))
  | .turn next => performTurns (next ())

/-- An interactive session on the terminal. -/
partial def interact (s : Session) : IO UInt32 := do
  say CommandLine.prompt
  match CommandLine.respond s (← readBytes (← IO.getStdin) []) with
  | .leave => return 0
  | .reject complaint =>
    IO.eprint complaint
    return 1
  | .goOn unit => interact (← performTurns unit.turns)

/-- What the arguments say. -/
structure Arguments where
  file : Bool := false
  pipeMode : Bool := false
  maxDepth : Nat := ({} : Settings).maxDepth
  seed? : Option Nat := none
  contents? : Option String := none

/-- How the program is called. -/
def usage : String :=
  "Usage: [--file] [--pipe-mode] [--max-depth <N>] [--seed <N>] [--] [CONTENTS]"

/-- Reads the arguments; nothing if they are no proper call. -/
def Arguments.read? (a : Arguments) : List String → Option Arguments
  | [] => some a
  | "--file" :: rest | "-f" :: rest => { a with file := true }.read? rest
  | "--pipe-mode" :: rest | "-p" :: rest => { a with pipeMode := true }.read? rest
  | "--max-depth" :: n :: rest => n.toNat?.bind fun n => { a with maxDepth := n }.read? rest
  | "--seed" :: n :: rest => n.toNat?.bind fun n => { a with seed? := some n }.read? rest
  | "--" :: rest =>
    match rest, a.contents? with
    | [], _ => some a
    | [text], none => some { a with contents? := some text }
    | _, _ => none
  | text :: rest =>
    if text.startsWith "-" || a.contents?.isSome then none
    else { a with contents? := some text }.read? rest

/-- What a file holds. -/
def readFile (path : String) : IO CommandLine.FileContents := do
  try
    return .bytes (← IO.FS.readBinFile path).toList
  catch
    | .noFileOrDirectory .. => return .unreadable CommandLine.noSuchFile
    | e => return .unreadable (toString e)

/-- The script that the arguments name. -/
def Arguments.script? (a : Arguments) : IO (Option CommandLine.Script) :=
  match a.contents? with
  | none => return none
  | some path =>
    if a.file then return some (.file path (← readFile path)) else return some (.text path)

end Scriptlet.Terminal

open Scriptlet in
def main (args : List String) : IO UInt32 := do
  match ({} : Terminal.Arguments).read? args with
  | none =>
    IO.eprintln Terminal.usage
    return 2
  | some a =>
    let entropy := (← IO.getRandomBytes 8).toList.foldl (fun n b => n * 256 + b.toNat) 0
    let session := Session.new ⟨a.maxDepth, a.seed?⟩ (Terminal.randomness entropy)
    match ← a.script? with
    | none => Terminal.interact session
    | some script =>
      match script.source with
      | .error complaint =>
        IO.eprint complaint
        return 1
      | .ok source =>
        return (← Terminal.performTurns (CommandLine.runScript session a.pipeMode source).turns).toUInt32
