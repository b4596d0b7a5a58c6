import Scriptlet.Console
import Scriptlet.Session
import Scriptlet.Text.Blank

/-! # The command line

    A script given as text or as a file is run as one source unit.  Without a
    script, lines are read from standard input, each a source unit of its
    own in one session, until the word `exit` or the end of the input.  What a
    line leads to is decided by `respond`; a loop has only to read lines and to
    do what it says. -/

namespace Scriptlet.CommandLine

/-- What reading a file came to. -/
inductive FileContents where
  | bytes (contents : List UInt8)
  | unreadable (reason : String)

/-- A script: its text, or a file that holds it. -/
inductive Script where
  | text (source : String)
  | file (path : String) (contents : FileContents)

/-- What the program was called with. -/
structure Invocation where
  settings : Settings := {}
  pipeMode : Bool := false
  script? : Option Script := none
  randomness : Randomness

/-- The reason why bytes are no text. -/
def notText : String := "stream did not contain valid UTF-8"

/-- The reason why a file that does not exist is unreadable. -/
def noSuchFile : String := "No such file or directory (os error 2)"

/-- What stands in front of every line of an interactive session. -/
def prompt : String := "pierogi>"

/-- The word that ends an interactive session. -/
def isExit (line : String) : Bool :=
  Text.trim line.toList = "exit".toList

/-- The source text of a script, or what to say when there is none. -/
def Script.source : Script → Except String String
  | .text source => .ok source
  | .file path contents =>
    let failure (reason : String) :=
      "Failed to read the input file '" ++ path ++ "': " ++ reason ++ "\n"
    match contents with
    | .unreadable reason => .error (failure reason)
    | .bytes contents =>
      match Console.decode? contents with
      | some source => .ok source
      | none => .error (failure notText)

/-- Prints values, each on a line of its own, and comes to `a`. -/
def printLines {α : Type} (a : α) : List Value → Dialogue α
  | [] => .done a
  | v :: vs => .ask (.print (v.text ++ "\n")) fun _ => printLines a vs

/-- Runs a script and comes to the exit status.  In pipe mode the last value
    is printed. -/
def runScript (s : Session) (pipeMode : Bool) (source : String) : Dialogue Nat :=
  .nest (fun _ => s.run source) fun
    | (none, _) => .done 1
    | (some vs, _) =>
      match pipeMode, vs.getLast? with
      | true, some last => printLines 0 [last]
      | _, _ => .done 0

/-- Runs one line of an interactive session and prints its values. -/
def runLine (s : Session) (line : String) : Dialogue Session :=
  .nest (fun _ => s.run line) fun r => printLines r.2 (r.1.getD [])

/-- What an interactive session makes of a line. -/
inductive Response where
  /-- It is over, with success. -/
  | leave
  /-- It is over, with failure. -/
  | reject (complaint : String)
  /-- The line is a source unit, which is to be run. -/
  | goOn (unit : Dialogue Session)

/-- What is made of the bytes of a line and its end; there are none at the end
    of the input. -/
def respond (s : Session) (line : List UInt8) : Response :=
  if line = [] then .leave
  else match Console.decode? line with
    | none => .reject (notText ++ "\n")
    | some text => if isExit text then .leave else .goOn (runLine s text)

/-- The console when the prompt was written and the first line was read. -/
def afterPrompt (c : Console) : Console :=
  { c.write prompt with stdin := Console.otherLines c.stdin }

/-- Only a line that was there is run. -/
theorem stdin_ne_nil_of_goOn {s : Session} {c : Console} {unit : Dialogue Session}
    (h : respond s (Console.firstLine c.stdin) = .goOn unit) : c.stdin ≠ [] := by
  intro hend
  rw [hend] at h
  cases h

/-- An interactive session, up to its exit status.  Every round reads at least
    one byte. -/
def interact (s : Session) (c : Console) : Nat × Console :=
  match h : respond s (Console.firstLine c.stdin) with
  | .leave => (0, afterPrompt c)
  | .reject complaint => (1, (afterPrompt c).complain complaint)
  | .goOn unit =>
    let round := unit.run (afterPrompt c)
    have : round.2.stdin.length < c.stdin.length :=
      Nat.lt_of_le_of_lt (Console.length_stdin_run_le _ _)
        (Console.length_otherLines_lt (stdin_ne_nil_of_goOn h))
    interact round.1 round.2
termination_by c.stdin.length

/-- The whole program: the exit status, and the streams after it. -/
def Invocation.run (i : Invocation) (c : Console) : Nat × Console :=
  let session := Session.new i.settings i.randomness
  match i.script? with
  | none => interact session c
  | some script =>
    match script.source with
    | .error complaint => (1, c.complain complaint)
    | .ok source => (runScript session i.pipeMode source).run c

end Scriptlet.CommandLine
