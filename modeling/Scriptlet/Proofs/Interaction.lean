import Scriptlet.CommandLine
import Scriptlet.Proofs.Units

/-! # The interactive loop and its input

    The loop and the programs that it runs read from one standard input, line by
    line and by turns: the loop takes a line as a source unit, and the unit may
    take any number of further lines as input.  An interaction is the record of
    this (`CommandLine.Interacts`): which lines were taken, and as what.

      * A dialogue takes lines from the front of the input, each once
        (`Dialogue.lines_result`), and depends on them and on the readings of the
        clock alone: with just these lines queued and the same readings to come, a
        host in memory makes no difference (`Dialogue.result_queued`).
      * So a whole interaction takes lines from the front of the input, and leaves
        the session as its source units do, one after the other, on a host in
        memory with its input lines queued and by the same clock
        (`CommandLine.Interacts.replay`). -/

namespace Scriptlet

namespace Console

/-- The lines of an input, each with the line feed that ends it; the last one may
    lack it. -/
def lines : List UInt8 → List (List UInt8)
  | [] => []
  | b :: bs =>
    if b = 10 then [b] :: lines bs
    else match lines bs with
      | [] => [[b]]
      | line :: rest => (b :: line) :: rest

example : lines [97, 10, 10, 98] = [[97, 10], [10], [98]] := rfl

/-- What a program is told of a line that it reads. -/
def reply (line : List UInt8) : String :=
  ((decode? line).map withoutEnd).getD ""

/-- The lines are what is taken bit by bit. -/
theorem lines_eq {bytes : List UInt8} (h : bytes ≠ []) :
    lines bytes = firstLine bytes :: lines (otherLines bytes) := by
  induction bytes with
  | nil => exact absurd rfl h
  | cons b bs ih =>
      by_cases hb : b = 10
      · subst hb
        rfl
      · have hinside : isInside b = true := by simpa [isInside] using hb
        have hfirst : firstLine (b :: bs) = b :: firstLine bs := by
          simp [firstLine, hinside]
        have hother : otherLines (b :: bs) = otherLines bs := by
          simp [otherLines, hinside]
        rw [lines, if_neg hb, hfirst, hother]
        cases bs with
        | nil => rfl
        | cons c cs => rw [ih (List.cons_ne_nil c cs)]

/-- A line has at least its end. -/
theorem firstLine_ne_nil {bytes : List UInt8} (h : bytes ≠ []) : firstLine bytes ≠ [] := by
  cases bytes with
  | nil => exact absurd rfl h
  | cons b bs => by_cases hb : isInside b = true <;> simp [firstLine, hb]

/-- Together, the lines are the input. -/
theorem flatten_lines (bytes : List UInt8) : (lines bytes).flatten = bytes := by
  induction bytes with
  | nil => rfl
  | cons b bs ih =>
      rw [lines]
      split
      · rw [List.flatten_cons, ih]
        rfl
      · split
        · next h =>
            rw [h] at ih
            rw [← ih]
            rfl
        · next line rest h =>
            rw [h] at ih
            rw [← ih]
            rfl

theorem lines_otherLines (bytes : List UInt8) : lines (otherLines bytes) = (lines bytes).tail := by
  cases bytes with
  | nil => rfl
  | cons b bs => rw [lines_eq (List.cons_ne_nil b bs), List.tail_cons]

/-- The lines that answering a request takes from the input. -/
def takes {β : Type} (c : Console) : Request β → List (List UInt8)
  | .readLine => (lines c.stdin).take 1
  | _ => []

/-- What a request takes comes from the front of the input. -/
theorem lines_answer {β : Type} (c : Console) (q : Request β) :
    lines c.stdin = c.takes q ++ lines (Host.answer q c).2.stdin := by
  cases q with
  | readLine =>
      show lines c.stdin = (lines c.stdin).take 1 ++ lines (otherLines c.stdin)
      rw [lines_otherLines, ← List.drop_one, List.take_append_drop]
  | _ => rfl

end Console

/-! ## Dialogues -/

namespace Dialogue

open Console (lines takes reply)

/-- The lines that a dialogue takes from the input of a console. -/
def taken : {α : Type} → Dialogue α → Console → List (List UInt8)
  | _, .done _, _ => []
  | _, .ask q next, c => c.takes q ++ (next (Host.answer q c).1).taken (Host.answer q c).2
  | _, .nest inner next, c =>
    (inner ()).taken c ++ (next ((inner ()).result c).1).taken ((inner ()).result c).2

/-- **A dialogue takes lines from the front of the input**, each once and in
    order. -/
theorem lines_result {α : Type} (d : Dialogue α) (c : Console) :
    lines c.stdin = d.taken c ++ lines (d.result c).2.stdin := by
  induction d generalizing c with
  | done a => rfl
  | ask q next ih =>
      rw [c.lines_answer q, ih, ← List.append_assoc]
      rfl
  | nest inner next ihInner ihNext =>
      rw [ihInner () c, ihNext, ← List.append_assoc]
      rfl

/-- At the end of the input there is nothing to take. -/
theorem taken_of_ended {α : Type} (d : Dialogue α) {c : Console} (h : c.stdin = []) :
    d.taken c = [] ∧ (d.result c).2.stdin = [] := by
  have hlines := d.lines_result c
  rw [h] at hlines
  have hrest : (d.result c).2.stdin.length ≤ c.stdin.length := Console.length_stdin_result_le d c
  rw [h] at hrest
  exact ⟨(List.append_eq_nil_iff.mp hlines.symm).1,
    List.length_eq_zero_iff.mp (Nat.le_zero.mp hrest)⟩

/-- The lines that a dialogue takes are queued in memory, and then others, if it
    leaves any; and the same readings of the clock are to come. -/
structure Queued {α : Type} (d : Dialogue α) (c : Console) (more : List String) (b : Buffer) :
    Prop where
  input : b.input = (d.taken c).map reply ++ more
  clock : b.clock = c.clock
  ended : (d.result c).2.stdin = [] → more = []

/-- A request is answered from the queue as from the console. -/
theorem answer_queued {β : Type} (q : Request β) {c : Console} {more : List String} {b : Buffer}
    (hinput : b.input = (c.takes q).map reply ++ more) (hclock : b.clock = c.clock)
    (hended : c.stdin = [] → more = []) :
    (Host.answer q b).1 = (Host.answer q c).1 ∧ (Host.answer q b).2.input = more ∧
      (Host.answer q b).2.clock = (Host.answer q c).2.clock := by
  cases q with
  | readLine =>
      have hqueue : b.input = ((lines c.stdin).take 1).map reply ++ more := hinput
      show b.input.headD "" = reply (Console.firstLine c.stdin) ∧ b.input.tail = more ∧
        b.clock = c.clock
      rcases hstdin : c.stdin with _ | ⟨byte, bytes⟩
      · -- at the end of the input both answer with nothing
        rw [hstdin, hended hstdin] at hqueue
        rw [hqueue, hended hstdin]
        exact ⟨rfl, rfl, hclock⟩
      · rw [hstdin, Console.lines_eq (List.cons_ne_nil byte bytes)] at hqueue
        rw [hqueue]
        exact ⟨rfl, rfl, hclock⟩
  | print text => exact ⟨rfl, hinput, hclock⟩
  | clock =>
      show b.clock.next.1 = c.clock.next.1 ∧ b.input = more ∧ b.clock.next.2 = c.clock.next.2
      rw [hclock]
      exact ⟨rfl, hinput, rfl⟩
  | report r => exact ⟨rfl, hinput, hclock⟩

/-- **A dialogue depends on the lines that it takes and on the readings of the clock
    alone**: with these to come, it does the same in memory. -/
theorem result_queued {α : Type} (d : Dialogue α) {c : Console} {more : List String} {b : Buffer}
    (h : d.Queued c more b) :
    (d.result b).1 = (d.result c).1 ∧ (d.result b).2.input = more ∧
      (d.result b).2.clock = (d.result c).2.clock := by
  induction d generalizing c more b with
  | done a => exact ⟨rfl, h.input, h.clock⟩
  | ask q next ih =>
      have hinput : b.input = (c.takes q).map reply
          ++ (((next (Host.answer q c).1).taken (Host.answer q c).2).map reply ++ more) := by
        rw [h.input, taken, List.map_append, List.append_assoc]
      have hended : c.stdin = [] →
          ((next (Host.answer q c).1).taken (Host.answer q c).2).map reply ++ more = [] := by
        intro hstdin
        obtain ⟨htaken, hrest⟩ := (ask q next).taken_of_ended hstdin
        rw [(List.append_eq_nil_iff.mp htaken).2, h.ended hrest]
        rfl
      obtain ⟨hreply, hqueue, hclock⟩ := answer_queued q hinput h.clock hended
      rw [result, result, hreply]
      exact ih _ ⟨hqueue, hclock, h.ended⟩
  | nest inner next ihInner ihNext =>
      have hinner : (inner ()).Queued c
          (((next ((inner ()).result c).1).taken ((inner ()).result c).2).map reply ++ more) b := by
        refine ⟨?_, h.clock, ?_⟩
        · rw [h.input, taken, List.map_append, List.append_assoc]
        · intro hstdin
          obtain ⟨htaken, hrest⟩ := (next ((inner ()).result c).1).taken_of_ended hstdin
          rw [htaken, h.ended hrest]
          rfl
      obtain ⟨hvalue, hqueue, hclock⟩ := ihInner () hinner
      rw [result, result, hvalue]
      exact ihNext _ ⟨hqueue, hclock, h.ended⟩

end Dialogue

/-! ## Interactions -/

namespace CommandLine

open Console (lines reply)

/-- What a line of standard input was taken as. -/
inductive Entry where
  /-- A source unit, or the word that ends the session. -/
  | source (line : List UInt8)
  /-- What a running program has read. -/
  | input (line : List UInt8)

namespace Entry

/-- The line that was taken. -/
def line : Entry → List UInt8
  | .source line | .input line => line

/-- The line, if it was taken as a source. -/
def source? : Entry → Option (List UInt8)
  | .source line => some line
  | .input _ => none

/-- What a program was told, if it has read the line. -/
def reply? : Entry → Option String
  | .source _ => none
  | .input line => some (reply line)

end Entry

/-- The source unit in a line: its text, if it has one that is not the word that
    ends the session. -/
def unit? (line : List UInt8) : Option String :=
  (Console.decode? line).filter fun text => !isExit text

/-- How an interaction ends. -/
inductive Ending where
  | exit
  | endOfInput
  | notText
  deriving DecidableEq

/-- The exit status. -/
def Ending.status : Ending → Nat
  | .exit | .endOfInput => 0
  | .notText => 1

/-- An interaction, from a session and a console: the lines taken, how it ends,
    and the session and the console then. -/
inductive Interacts :
    Session → Console → List Entry → Ending → Session → Console → Prop where
  | endOfInput {s : Session} {c : Console} : c.stdin = [] →
      Interacts s c [] .endOfInput s (c.write prompt)
  | notText {s : Session} {c : Console} : c.stdin ≠ [] →
      Console.decode? (Console.firstLine c.stdin) = none →
      Interacts s c [.source (Console.firstLine c.stdin)] .notText s
        ((afterPrompt c).complain (CommandLine.notText ++ "\n"))
  | exit {s : Session} {c : Console} {text : String} : c.stdin ≠ [] →
      Console.decode? (Console.firstLine c.stdin) = some text → isExit text = true →
      Interacts s c [.source (Console.firstLine c.stdin)] .exit s (afterPrompt c)
  | unit {s s' s'' : Session} {c c' c'' : Console} {text : String} {entries : List Entry}
      {ending : Ending} : c.stdin ≠ [] →
      Console.decode? (Console.firstLine c.stdin) = some text → isExit text = false →
      (runLine s text).run (afterPrompt c) = (s', c') →
      Interacts s' c' entries ending s'' c'' →
      Interacts s c (.source (Console.firstLine c.stdin)
          :: ((runLine s text).taken (afterPrompt c)).map .input ++ entries) ending s'' c''

/-- At the end of the input, the prompt is all that is new. -/
theorem afterPrompt_of_ended {c : Console} (h : c.stdin = []) : afterPrompt c = c.write prompt := by
  obtain ⟨stdin, stdout, stderr, clock⟩ := c
  obtain rfl : stdin = [] := h
  rfl

/-- What a response says of the line that it is made to. -/
def Response.Fits (s : Session) (line : List UInt8) : Response → Prop
  | .leave => line = [] ∨ ∃ text, Console.decode? line = some text ∧ isExit text = true
  | .reject complaint => line ≠ [] ∧ Console.decode? line = none ∧
      complaint = CommandLine.notText ++ "\n"
  | .goOn unit => ∃ text, Console.decode? line = some text ∧ isExit text = false ∧
      unit = runLine s text

/-- The loop responds to a line by what the line is. -/
theorem fits_of_respond {s : Session} {line : List UInt8} {response : Response}
    (h : respond s line = response) : response.Fits s line := by
  subst h
  unfold respond
  split
  · next hline => exact .inl hline
  · next hline =>
      split
      · next hdecode => exact ⟨hline, hdecode, rfl⟩
      · next text hdecode =>
          split
          · next hexit => exact .inr ⟨text, hdecode, hexit⟩
          · next hexit => exact ⟨text, hdecode, Bool.eq_false_iff.mpr hexit, rfl⟩

/-- **Every interaction ends**, and the loop does what it records. -/
theorem exists_interacts (s : Session) (c : Console) :
    ∃ entries ending s' c', Interacts s c entries ending s' c' ∧
      interact s c = (ending.status, c') := by
  fun_induction interact s c with
  | case1 s c h =>
      by_cases hend : c.stdin = []
      · rw [afterPrompt_of_ended hend]
        exact ⟨_, _, _, _, .endOfInput hend, rfl⟩
      · obtain ⟨text, hdecode, hexit⟩ :=
          (fits_of_respond h).resolve_left (Console.firstLine_ne_nil hend)
        exact ⟨_, _, _, _, .exit hend hdecode hexit, rfl⟩
  | case2 s c complaint h =>
      obtain ⟨hline, hdecode, rfl⟩ := fits_of_respond h
      have hne : c.stdin ≠ [] := by
        intro hend
        rw [hend] at hline
        exact hline rfl
      exact ⟨_, _, _, _, .notText hne hdecode, rfl⟩
  | case3 s c unit h round hlt ih =>
      have hne := stdin_ne_nil_of_goOn h
      obtain ⟨text, hdecode, hexit, rfl⟩ := fits_of_respond h
      obtain ⟨entries, ending, s', c', hi, heq⟩ := ih
      exact ⟨_, _, _, _, .unit hne hdecode hexit rfl hi, heq⟩

/-! ## What is taken -/

/-- Printing takes no line. -/
theorem taken_printLines {α : Type} (a : α) (vs : List Value) (c : Console) :
    (printLines a vs).taken c = [] := by
  induction vs generalizing c with
  | nil => rfl
  | cons v vs ih => exact ih _

theorem result_printLines {α : Type} (a : α) (vs : List Value) (c : Console) :
    ((printLines a vs).result c).1 = a ∧ ((printLines a vs).result c).2.stdin = c.stdin ∧
      ((printLines a vs).result c).2.clock = c.clock := by
  induction vs generalizing c with
  | nil => exact ⟨rfl, rfl, rfl⟩
  | cons v vs ih => exact ih _

/-- Printing the values of a unit takes nothing. -/
theorem taken_runLine (s : Session) (text : String) (c : Console) :
    (runLine s text).taken c = (s.run text).taken c := by
  show (s.run text).taken c ++ (printLines _ _).taken _ = _
  rw [taken_printLines, List.append_nil]

/-- Printing the values of a unit changes neither the session nor the input, and does
    not look at the clock. -/
theorem result_runLine (s : Session) (text : String) (c : Console) :
    ((runLine s text).result c).1 = ((s.run text).result c).1.2 ∧
      ((runLine s text).result c).2.stdin = ((s.run text).result c).2.stdin ∧
      ((runLine s text).result c).2.clock = ((s.run text).result c).2.clock :=
  result_printLines _ _ _

variable {s s' : Session} {c c' : Console} {entries : List Entry} {ending : Ending}

/-- An interaction takes lines from the front of the input. -/
theorem Interacts.lines_eq (h : Interacts s c entries ending s' c') :
    lines c.stdin = entries.map Entry.line ++ lines c'.stdin := by
  induction h with
  | endOfInput hend => rfl
  | notText hne _ | exit hne _ _ => exact Console.lines_eq hne
  | @unit s s' s'' c c' c'' text entries ending hne _ _ hrun _ ih =>
      have hround := (runLine s text).lines_result (afterPrompt c)
      rw [← Dialogue.run_eq_result, hrun, ih] at hround
      have hmap : ∀ ls : List (List UInt8), (ls.map Entry.input).map Entry.line = ls := by
        intro ls
        rw [List.map_map]
        exact List.map_id ls
      rw [Console.lines_eq hne, List.cons_append, List.map_cons, List.map_append, hmap,
        List.cons_append, List.append_assoc]
      exact congrArg _ hround

/-! ## Why it ends -/

/-- The line is a source unit: it is a text, and not the word that ends the
    session. -/
def IsUnit (line : List UInt8) : Prop :=
  ∃ text, Console.decode? line = some text ∧ isExit text = false

/-- Why an interaction ends as it does: the last line taken was the word `exit`,
    or was no text, or there is no line left.  All sources before are units. -/
def Ending.Due (entries : List Entry) (c : Console) : Ending → Prop
  | .exit => ∃ before line text, entries = before ++ [.source line] ∧
      (∀ l ∈ before.filterMap Entry.source?, IsUnit l) ∧
      Console.decode? line = some text ∧ isExit text = true
  | .notText => ∃ before line, entries = before ++ [.source line] ∧
      (∀ l ∈ before.filterMap Entry.source?, IsUnit l) ∧ Console.decode? line = none
  | .endOfInput => c.stdin = [] ∧ ∀ l ∈ entries.filterMap Entry.source?, IsUnit l

/-- Units in front do not change why an interaction ends. -/
theorem Ending.Due.prepend {before : List Entry} (h : ending.Due entries c)
    (hbefore : ∀ l ∈ before.filterMap Entry.source?, IsUnit l) :
    ending.Due (before ++ entries) c := by
  have hall : ∀ more : List Entry, (∀ l ∈ more.filterMap Entry.source?, IsUnit l) →
      ∀ l ∈ (before ++ more).filterMap Entry.source?, IsUnit l := by
    intro more hmore
    rw [List.filterMap_append]
    exact List.forall_mem_append.mpr ⟨hbefore, hmore⟩
  cases ending with
  | exit =>
      obtain ⟨more, line, text, rfl, hmore, hdecode, hexit⟩ := h
      exact ⟨before ++ more, line, text, (List.append_assoc ..).symm, hall more hmore, hdecode,
        hexit⟩
  | notText =>
      obtain ⟨more, line, rfl, hmore, hdecode⟩ := h
      exact ⟨before ++ more, line, (List.append_assoc ..).symm, hall more hmore, hdecode⟩
  | endOfInput => exact ⟨h.1, hall entries h.2⟩

/-- The sources of a round of the loop and of the rounds behind it. -/
theorem sources_round (line : List UInt8) (inputs : List (List UInt8)) (entries : List Entry) :
    (.source line :: inputs.map Entry.input ++ entries).filterMap Entry.source?
      = line :: entries.filterMap Entry.source? := by
  have hinputs : (inputs.map Entry.input).filterMap Entry.source? = [] := by
    rw [List.filterMap_map]
    exact List.filterMap_eq_nil_iff.mpr fun _ _ => rfl
  rw [List.cons_append]
  show line :: (inputs.map Entry.input ++ entries).filterMap Entry.source? = _
  rw [List.filterMap_append, hinputs, List.nil_append]

/-- An interaction ends when it is due, not before and not later. -/
theorem Interacts.due (h : Interacts s c entries ending s' c') : ending.Due entries c' := by
  induction h with
  | endOfInput hend => exact ⟨hend, List.forall_mem_nil _⟩
  | notText _ hdecode => exact ⟨[], _, rfl, List.forall_mem_nil _, hdecode⟩
  | exit _ hdecode hexit => exact ⟨[], _, _, rfl, List.forall_mem_nil _, hdecode, hexit⟩
  | unit _ hdecode hexit _ _ ih =>
      refine ih.prepend ?_
      rw [← List.append_nil (_ :: _), sources_round]
      exact List.forall_mem_singleton.mpr ⟨_, hdecode, hexit⟩

/-! ## The session -/

/-- The source units that were taken. -/
def units (entries : List Entry) : List Session.Submission :=
  ((entries.filterMap Entry.source?).filterMap unit?).map .run

/-- What running programs have been told. -/
def replies (entries : List Entry) : List String :=
  entries.filterMap Entry.reply?

theorem replies_round (line : List UInt8) (inputs : List (List UInt8)) (entries : List Entry) :
    replies (.source line :: inputs.map Entry.input ++ entries)
      = inputs.map reply ++ replies entries := by
  rw [List.cons_append]
  show (inputs.map Entry.input ++ entries).filterMap Entry.reply? = _
  rw [List.filterMap_append, List.filterMap_map]
  exact congrArg (· ++ replies entries) (congrFun List.filterMap_eq_map' inputs)

/-- A line that is no unit is not run. -/
theorem units_last {line : List UInt8} (h : unit? line = none) : units [.source line] = [] := by
  show ([line].filterMap unit?).map Session.Submission.run = []
  rw [List.filterMap_cons_none h]
  rfl

/-- A unit is run before those of later rounds. -/
theorem units_round {line : List UInt8} {text : String} (h : unit? line = some text)
    (inputs : List (List UInt8)) (entries : List Entry) :
    units (.source line :: inputs.map Entry.input ++ entries) = .run text :: units entries := by
  rw [units, sources_round, List.filterMap_cons_some h]
  rfl

/-- An interaction leaves the session as its units do in memory, with the lines
    queued that they take as input, of which they leave none, and with the same
    readings of the clock to come, of which they leave the same. -/
theorem Interacts.replay (h : Interacts s c entries ending s' c') {b : Buffer}
    (hinput : b.input = replies entries) (hclock : b.clock = c.clock) :
    (s.submitAll b (units entries)).1 = s' ∧ (s.submitAll b (units entries)).2.input = [] ∧
      (s.submitAll b (units entries)).2.clock = c'.clock := by
  induction h generalizing b with
  | endOfInput hend => exact ⟨rfl, hinput, hclock⟩
  | notText _ hdecode =>
      rw [units_last (by rw [unit?, hdecode]; rfl)]
      exact ⟨rfl, hinput, hclock⟩
  | exit _ hdecode hexit =>
      rw [units_last (by rw [unit?, hdecode, Option.filter_some, hexit]; rfl)]
      exact ⟨rfl, hinput, hclock⟩
  | @unit s s' s'' c c' c'' text entries ending hne hdecode hexit hrun hrest ih =>
      have hunit : unit? (Console.firstLine c.stdin) = some text := by
        rw [unit?, hdecode, Option.filter_some, hexit]
        rfl
      rw [replies_round, taken_runLine] at hinput
      rw [units_round hunit]
      obtain ⟨hsession, hstdin, hclock'⟩ := result_runLine s text (afterPrompt c)
      rw [← Dialogue.run_eq_result, hrun] at hsession hstdin hclock'
      have hqueued : (s.run text).Queued (afterPrompt c) (replies entries) b := by
        refine ⟨hinput, hclock, fun hend => ?_⟩
        cases hrest with
        | endOfInput => rfl
        | notText hne | exit hne | unit hne => exact absurd (hstdin.trans hend) hne
      obtain ⟨hvalue, hqueue, hclock₁⟩ := (s.run text).result_queued hqueued
      rw [← Dialogue.run_eq_result] at hvalue hqueue hclock₁
      have hnext : (s.submit b (.run text)).1 = s' := (congrArg Prod.snd hvalue).trans hsession.symm
      rw [Session.submitAll, hnext]
      exact ih hqueue (hclock₁.trans hclock'.symm)

/-- **An interactive session takes its input once, in order, and ends.**  For
    every configuration and every input there is an interaction that the program
    carries out.  The lines that it takes, as sources or as input of programs, are
    lines from the front of the input, each taken once and in order.  It ends at
    the first source that is the word `exit`, with success, at the first source
    that is no text, with failure, or at the end of the input, with success.  The
    session is then what its source units make of a new one, run one after the
    other in memory with the lines queued that were taken as input and with the
    same readings of the clock to come, whatever they are.  None of these lines
    are left, and of the readings the same ones are. -/
theorem interaction_takes_input_once (settings : Settings) (randomness : Randomness)
    (pipeMode : Bool) (c : Console) :
    ∃ entries ending s' c', Interacts (Session.new settings randomness) c entries ending s' c' ∧
      Invocation.run ⟨settings, pipeMode, none, randomness⟩ c = (ending.status, c') ∧
      lines c.stdin = entries.map Entry.line ++ lines c'.stdin ∧
      c.stdin = (entries.map Entry.line).flatten ++ c'.stdin ∧
      ending.Due entries c' ∧
      let host : Buffer := { input := replies entries, clock := c.clock }
      let replayed := (Session.new settings randomness).submitAll host (units entries)
      replayed.1 = s' ∧ replayed.2.input = [] ∧ replayed.2.clock = c'.clock := by
  obtain ⟨entries, ending, s', c', h, hrun⟩ := exists_interacts (Session.new settings randomness) c
  have hbytes := congrArg List.flatten h.lines_eq
  rw [List.flatten_append, Console.flatten_lines, Console.flatten_lines] at hbytes
  exact ⟨entries, ending, s', c', h, hrun, h.lines_eq, hbytes, h.due, h.replay rfl rfl⟩

end CommandLine

end Scriptlet
