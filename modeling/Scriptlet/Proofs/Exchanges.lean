import Scriptlet.Proofs.Machine

/-! # What passes between a program and its host

    A program prints and reads lines; both happen in calls of builtins, at any depth
    of an evaluation.  A run of the machine has a record of them
    (`Machine.Exchanges`): the text that was printed, and what the calls of `input`
    came to.

    On a host in memory this is all that happens to output, input and reports
    (`Buffer.Accounts`): the text was appended to the output, the lines were taken
    from the front of the queue, and once it is empty, empty lines were given; nothing
    was reported.  One step accounts for what it does
    (`Machine.accounts_step`) and so does a run (`Machine.Reaches.accounted`), however
    it ends: an error undoes what was bound but nothing of this. -/

namespace Scriptlet

/-! ## The record of a run -/

namespace Machine

variable {σ : Type}

/-- The text that the next step prints. -/
def prints (m : Machine σ) : String :=
  match m.control with
  | .call (.builtin .print) [v] _ => v.plainText
  | .call (.builtin .println) [v] _ => v.plainText ++ "\n"
  | _ => ""

/-- The next step is a call of `input`. -/
def listens (m : Machine σ) : Bool :=
  match m.control with
  | .call (.builtin .input) [] _ => true
  | _ => false

/-- `Exchanges limit m printed heard m'` when a run from `m` to `m'` prints the text
    `printed`, and its calls of `input` come to `heard`, in this order. -/
inductive Exchanges [Host σ] (limit : Nat) :
    Machine σ → String → List Control → Machine σ → Prop where
  | here (m : Machine σ) : Exchanges limit m "" [] m
  | step {m m' m'' : Machine σ} {printed : String} {heard : List Control} :
      m.step limit = some m' → Exchanges limit m' printed heard m'' →
      Exchanges limit m (m.prints ++ printed)
        ((if m.listens then [m'.control] else []) ++ heard) m''

/-- Every run has its record. -/
theorem exists_exchanges [Host σ] {limit : Nat} {m m' : Machine σ} (h : Reaches limit m m') :
    ∃ printed heard, Exchanges limit m printed heard m' := by
  induction h using Relation.ReflTransGen.head_induction_on with
  | refl => exact ⟨_, _, .here m'⟩
  | head hs _ ih =>
      obtain ⟨printed, heard, hrest⟩ := ih
      exact ⟨_, _, .step hs hrest⟩

end Machine

/-! ## What a host in memory is left with -/

/-- Between two states of a host in memory, a text was printed and these lines were
    read, and nothing was reported; how often the clock was looked at is left open. -/
structure Buffer.Accounts (b : Buffer) (printed : String) (heard : List String) (b' : Buffer) :
    Prop where
  output : b'.output = b.output ++ printed
  /-- The lines read are those taken from the queue, then empty ones, which are given
      only when the queue is empty. -/
  input : ∃ taken more, b.input = taken ++ b'.input ∧ heard = taken ++ List.replicate more ""
    ∧ (more ≠ 0 → b'.input = [])
  reports : b'.reports = b.reports

namespace Buffer.Accounts

variable {b b₁ b' : Buffer} {printed printed₁ : String} {heard heard₁ : List String}

/-- Neither output nor input nor reports have changed. -/
theorem silent (houtput : b'.output = b.output) (hinput : b'.input = b.input)
    (hreports : b'.reports = b.reports) : b.Accounts "" [] b' :=
  ⟨houtput.trans String.append_empty.symm,
    ⟨[], 0, hinput.symm, rfl, fun h => absurd rfl h⟩, hreports⟩

theorem refl (b : Buffer) : b.Accounts "" [] b :=
  silent rfl rfl rfl

/-- One account after the other: empty lines come only once the queue is empty, so
    they come last. -/
theorem trans (h₁ : b.Accounts printed heard b₁) (h : b₁.Accounts printed₁ heard₁ b') :
    b.Accounts (printed ++ printed₁) (heard ++ heard₁) b' := by
  obtain ⟨taken, more, htaken, hheard, hmore⟩ := h₁.input
  obtain ⟨taken₁, more₁, htaken₁, hheard₁, hmore₁⟩ := h.input
  refine ⟨?_, ?_, h.reports.trans h₁.reports⟩
  · rw [h.output, h₁.output, String.append_assoc]
  · by_cases hzero : more = 0
    · subst hzero
      refine ⟨taken ++ taken₁, more₁, ?_, ?_, hmore₁⟩
      · rw [htaken, htaken₁, List.append_assoc]
      · rw [hheard, hheard₁, List.replicate_zero, List.append_nil, List.append_assoc]
    · -- the queue was empty already, so nothing more was taken from it
      have hempty : taken₁ ++ b'.input = [] := htaken₁.symm.trans (hmore hzero)
      obtain ⟨rfl, hrest⟩ := List.append_eq_nil_iff.mp hempty
      refine ⟨taken, more + more₁, ?_, ?_, fun _ => hrest⟩
      · rw [htaken, htaken₁, List.nil_append]
      · rw [hheard, hheard₁, List.nil_append, List.append_assoc, List.replicate_append_replicate]

theorem ofPrint (b : Buffer) (text : String) :
    b.Accounts text [] (Host.answer (.print text) b).2 :=
  ⟨rfl, ⟨[], 0, rfl, rfl, fun h => absurd rfl h⟩, rfl⟩

/-- A look at the clock accounts for nothing. -/
theorem ofClock (b : Buffer) : b.Accounts "" [] (Host.answer .clock b).2 :=
  silent rfl rfl rfl

/-- A line that is read is the first of the queue, or empty. -/
theorem ofReadLine (b : Buffer) :
    b.Accounts "" [(Host.answer .readLine b).1] (Host.answer .readLine b).2 := by
  refine ⟨String.append_empty.symm, ?_, rfl⟩
  show ∃ taken more, b.input = taken ++ b.input.tail
    ∧ [b.input.headD ""] = taken ++ List.replicate more "" ∧ (more ≠ 0 → b.input.tail = [])
  cases b.input with
  | nil => exact ⟨[], 1, rfl, rfl, fun _ => rfl⟩
  | cons line lines => exact ⟨[line], 0, rfl, rfl, fun h => absurd rfl h⟩

end Buffer.Accounts

/-- A line that a call of `input` comes to. -/
def Control.line (text : String) : Control :=
  .value (.string text)

namespace Machine

/-! ## One step -/

theorem host_startEval {σ : Type} (m : Machine σ) (e : Expr) :
    (m.startEval e).host = m.host := by
  cases e with
  | symbol name n =>
      rw [startEval]
      split <;> rfl
  | define name value n => cases value <;> rfl
  | _ => rfl

/-- Only a call can change the host. -/
theorem host_step {σ : Type} [Host σ] {limit : Nat} {m m' : Machine σ}
    (h : m.step limit = some m') (hcall : ∀ f args n, m.control ≠ .call f args n) :
    m'.host = m.host := by
  by_cases heval : ∃ e, m.control = .eval e
  · obtain ⟨e, hcontrol⟩ := heval
    have hstep : m.step limit = some (m.startEval e) := by
      rw [step, hcontrol]
    obtain rfl : m.startEval e = m' := Option.some.inj (hstep.symm.trans h)
    exact host_startEval m e
  · exact (quiet_step h (fun e hcontrol => heval ⟨e, hcontrol⟩) hcall).host

/-- A step from `m` to `m'` accounts for what it prints and for the line that it
    reads. -/
def StepAccounts (m m' : Machine Buffer) : Prop :=
  ∃ lines : List String, (if m.listens then [m'.control] else []) = lines.map Control.line
    ∧ m.host.Accounts m.prints lines m'.host

/-- A step that neither prints nor reads and leaves the host accounts for nothing. -/
theorem StepAccounts.silent {m m' : Machine Buffer} (hprints : m.prints = "")
    (hlistens : m.listens = false) (hhost : m'.host = m.host) : StepAccounts m m' := by
  refine ⟨[], ?_, ?_⟩
  · rw [hlistens]
    rfl
  · rw [hprints, hhost]
    exact .refl m.host

/-- A call with the wrong number of arguments neither prints nor reads. -/
theorem silent_of_wrongCount {σ : Type} {m : Machine σ} {f : Callable Value} {args : List Value}
    {n : Nat} (hcontrol : m.control = .call f args n) (hcount : f.arity ≠ args.length) :
    m.prints = "" ∧ m.listens = false := by
  unfold prints listens
  rw [hcontrol]
  constructor
  · split
    · next h => cases h; exact absurd rfl hcount
    · next h => cases h; exact absurd rfl hcount
    · rfl
  · split
    · next h => cases h; exact absurd rfl hcount
    · rfl

/-- Whatever the clock shows, `epoch` looks at it once and asks for nothing else. -/
theorem host_epoch {σ : Type} [Host σ] (n : Nat) (s : Store) (host : σ) :
    ((Builtin.epoch.plain [] n s).result host).2 = (Host.answer .clock host).2 := by
  rw [Builtin.plain, Eval.result_bind]
  simp only [Eval.ask, Dialogue.result]
  split <;> rfl

/-- A builtin that calls nothing back. -/
theorem stepAccounts_plain {m : Machine Buffer} {b : Builtin} {args : List Value} {n : Nat}
    (hcontrol : m.control = .call (.builtin b) args n) (hcount : b.arity = args.length) :
    StepAccounts m (m.perform (b.plain args n)) := by
  obtain ⟨store, control, stack, depth, host⟩ := m
  obtain rfl : control = .call (.builtin b) args n := hcontrol
  match args, hcount with
  | [], hcount =>
      cases b with
      | input => exact ⟨[_], rfl, Buffer.Accounts.ofReadLine host⟩
      | epoch =>
          refine ⟨[], rfl, ?_⟩
          show host.Accounts "" [] ((Builtin.epoch.plain [] n store).result host).2
          rw [host_epoch]
          exact .ofClock host
      | random => exact .silent rfl rfl rfl
      | _ => cases hcount
  | [v], hcount =>
      by_cases hprint : b = .print
      · subst hprint
        exact ⟨[], rfl, Buffer.Accounts.ofPrint host _⟩
      by_cases hprintln : b = .println
      · subst hprintln
        exact ⟨[], rfl, (Buffer.Accounts.ofPrint host _).trans (.ofPrint _ _)⟩
      obtain ⟨r, hgives⟩ := Builtin.exists_gives hcount hprint hprintln v n
      rw [hgives.plain_eq]
      cases b with
      | print => exact absurd rfl hprint
      | println => exact absurd rfl hprintln
      | _ => exact .silent rfl rfl rfl
  | [v, w], hcount =>
      cases b with
      | map | filter => cases v <;> exact .silent rfl rfl rfl
      | _ => cases hcount
  | _ :: _ :: _ :: _, hcount => cases b <;> cases hcount

theorem stepAccounts_call {limit : Nat} {m : Machine Buffer} {f : Callable Value}
    {args : List Value} {n : Nat} (hcontrol : m.control = .call f args n) :
    StepAccounts m (m.startCall limit f args n) := by
  obtain ⟨store, control, stack, depth, host⟩ := m
  obtain rfl : control = .call f args n := hcontrol
  unfold startCall
  split
  · next hcount =>
      obtain ⟨hprints, hlistens⟩ :=
        silent_of_wrongCount (m := ⟨store, .call f args n, stack, depth, host⟩) rfl hcount
      exact .silent hprints hlistens rfl
  · next hcount =>
      split
      · split <;> exact .silent rfl rfl rfl
      · split <;> exact .silent rfl rfl rfl
      · split <;> exact .silent rfl rfl rfl
      · exact stepAccounts_plain rfl (Decidable.of_not_not hcount)

/-- **One step accounts for what it does.** -/
theorem accounts_step {limit : Nat} {m m' : Machine Buffer} (h : m.step limit = some m') :
    StepAccounts m m' := by
  by_cases hcall : ∃ f args n, m.control = .call f args n
  · obtain ⟨f, args, n, hcontrol⟩ := hcall
    have hstep : m.step limit = some (m.startCall limit f args n) := by
      rw [step, hcontrol]
    obtain rfl : m.startCall limit f args n = m' := Option.some.inj (hstep.symm.trans h)
    exact stepAccounts_call hcontrol
  · have hnot : ∀ f args n, m.control ≠ .call f args n :=
      fun f args n hcontrol => hcall ⟨f, args, n, hcontrol⟩
    refine .silent ?_ ?_ (host_step h hnot)
    · unfold prints
      split
      · next hcontrol => exact absurd hcontrol (hnot _ _ _)
      · next hcontrol => exact absurd hcontrol (hnot _ _ _)
      · rfl
    · unfold listens
      split
      · next hcontrol => exact absurd hcontrol (hnot _ _ _)
      · rfl

/-! ## A run -/

/-- A run from `m` to `m'` is accounted for: its calls of `input` come to lines, and
    these and the text that it prints are what the host has seen of it. -/
def Accounted (limit : Nat) (m m' : Machine Buffer) : Prop :=
  ∃ printed lines, Exchanges limit m printed (lines.map Control.line) m'
    ∧ m.host.Accounts printed lines m'.host

/-- A whole run accounts for what its steps account for. -/
theorem Exchanges.accounted {limit : Nat} {m m' : Machine Buffer} {printed : String}
    {heard : List Control} (h : Exchanges limit m printed heard m') :
    ∃ lines : List String, heard = lines.map Control.line
      ∧ m.host.Accounts printed lines m'.host := by
  induction h with
  | here m => exact ⟨[], rfl, .refl m.host⟩
  | step hs _ ih =>
      obtain ⟨lines, hheard, haccounts⟩ := ih
      obtain ⟨lines₀, hheard₀, haccounts₀⟩ := accounts_step hs
      refine ⟨lines₀ ++ lines, ?_, haccounts₀.trans haccounts⟩
      rw [hheard₀, hheard, List.map_append]

/-- **Every run is accounted for.** -/
theorem Reaches.accounted {limit : Nat} {m m' : Machine Buffer} (h : Reaches limit m m') :
    Accounted limit m m' := by
  obtain ⟨printed, heard, hexchanges⟩ := exists_exchanges h
  obtain ⟨lines, rfl, haccounts⟩ := hexchanges.accounted
  exact ⟨printed, lines, hexchanges, haccounts⟩

end Machine

/-! ## Sessions -/

namespace Session

/-- Running a unit does what interpreting it does; an error is reported. -/
theorem run_run {σ : Type} [Host σ] (s : Session) (host : σ) (source : String) :
    (s.run source).run host =
      match (s.interpret source).run host with
      | ((.ok vs, s'), host') => ((some vs, s'), host')
      | ((.error e, s'), host') => ((none, s'), (Host.answer (.report e.report) host').2) := by
  rw [run, Dialogue.run_nest]
  rcases (s.interpret source).run host with ⟨⟨r, s'⟩, host'⟩
  cases r <;> rfl

/-- **Input and output are accounted for.**  On a host in memory, whatever an
    evaluation, a call or a source unit comes to: the output is the output before
    followed by the text that was printed; what the calls of `input` came to, in order,
    are the lines that are gone from the front of the queue, and then empty lines, if
    there are any with the queue empty; and no report was added.  Running a unit leaves
    everything as interpreting it does, but for one report, that of the error, if there
    was one. -/
theorem io_accounted (s : Session) (b : Buffer) :
    (∀ e : Expr,
      let out := (s.eval e).run b
      Machine.Accounted s.settings.maxDepth (s.machine b (.eval e))
        (out.1.2.machine out.2 (.ofResult out.1.1))) ∧
    (∀ (f : Callable Value) (args : List Value) (line : Nat),
      let out := (s.call f args line).run b
      Machine.Accounted s.settings.maxDepth (s.machine b (.call f args line))
        (out.1.2.machine out.2 (.ofResult out.1.1))) ∧
    (∀ source : String,
      let out := (s.interpret source).run b
      Machine.Accounted s.settings.maxDepth (s.machine b (.read source))
        (out.1.2.machine out.2 (.finished out.1.1))) ∧
    (∀ source : String,
      let out := (s.interpret source).run b
      (s.run source).run b = match out.1.1 with
        | .ok vs => ((some vs, out.1.2), { out.2 with reports := b.reports })
        | .error e => ((none, out.1.2), { out.2 with reports := b.reports ++ [e.report] })) := by
  have hinterpret : ∀ source : String,
      let out := (s.interpret source).run b
      Machine.Accounted s.settings.maxDepth (s.machine b (.read source))
        (out.1.2.machine out.2 (.finished out.1.1)) :=
    fun source => Machine.Reaches.accounted (reaches_interpret rfl)
  refine ⟨?_, ?_, hinterpret, ?_⟩
  · exact fun e => Machine.Reaches.accounted (reaches_perform (.eval e) rfl [])
  · exact fun f args line =>
      Machine.Reaches.accounted (reaches_perform (.call f args line) rfl [])
  · intro source out
    obtain ⟨printed, lines, -, haccounts⟩ := hinterpret source
    have hreports : out.2.reports = b.reports := haccounts.reports
    have hout : (s.interpret source).run b = out := rfl
    rw [s.run_run b source, ← hreports, hout]
    obtain ⟨⟨r, s'⟩, b'⟩ := out
    cases r <;> rfl

end Session

end Scriptlet
