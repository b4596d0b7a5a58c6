import Scriptlet.Proofs.Hosting

/-! # Functions are equal only to themselves

    Two functions compare by the number that a closure gets when it is made, so
    that a function is itself wherever it is kept.  Over a whole session this is
    sound: if the closures are logged as they are made (`Machine.Makes`,
    `Desk.Makes`), then the number of a closure is its place in the log
    (`Numbered`), and every closure that there is at any moment is one of the
    log. -/

namespace Scriptlet

/-! ## Where functions stem from -/

/-- Where a function stems from: it is a builtin, or was made when a function
    was evaluated for the `i`-th time. -/
inductive Origin where
  | builtin (b : Builtin)
  | making (i : Nat)

/-- A function stems from there, given the closures made so far. -/
inductive Stems (made : List (Closure Value)) : Callable Value → Origin → Prop where
  | builtin (b : Builtin) : Stems made (.builtin b) (.builtin b)
  | making {i : Nat} {c : Closure Value} : made[i]? = some c → Stems made (.closure c) (.making i)

/-- Every closure has its place in the log for its number. -/
def Numbered (made : List (Closure Value)) : Prop :=
  ∀ (i : Nat) (c : Closure Value), made[i]? = some c → c.identity = i

section Stems

variable {made : List (Closure Value)} {f g : Callable Value} {o p : Origin}

/-- A function stems from somewhere, if it is a builtin or was logged. -/
theorem exists_stems (h : ∀ c, f = .closure c → c ∈ made) : ∃ o, Stems made f o := by
  cases f with
  | builtin b => exact ⟨_, .builtin b⟩
  | closure c =>
      obtain ⟨i, hi⟩ := List.mem_iff_getElem?.mp (h c rfl)
      exact ⟨_, .making hi⟩

/-- What stems from one origin is one function. -/
theorem Stems.eq (hf : Stems made f o) (hg : Stems made g o) : f = g := by
  cases hf with
  | builtin b =>
      cases hg
      rfl
  | making hc =>
      cases hg with
      | making hd => rw [Option.some.inj (hc.symm.trans hd)]

/-- Functions are the same if and only if they stem from the same origin. -/
theorem Stems.isSame_iff (hn : Numbered made) (hf : Stems made f o) (hg : Stems made g p) :
    f.isSame g = true ↔ o = p := by
  cases hf with
  | builtin a =>
      cases hg with
      | builtin b => simp [Callable.isSame]
      | making => simp [Callable.isSame]
  | @making i c hc =>
      cases hg with
      | builtin => simp [Callable.isSame]
      | @making j d hd =>
          have hi : c.identity = i := hn i c hc
          have hj : d.identity = j := hn j d hd
          simp [Callable.isSame, hi, hj]

/-- A function stems from one place only, when each closure is at its number. -/
theorem Stems.unique (hn : Numbered made) (hf : Stems made f o) (hf' : Stems made f p) : o = p := by
  have hsame : f.isSame f = true := (hf.isSame_iff hn hf).mpr rfl
  exact (hf.isSame_iff hn hf').mp hsame

/-- More closures do not change where a function stems from. -/
theorem Stems.append (hf : Stems made f o) (later : List (Closure Value)) :
    Stems (made ++ later) f o := by
  cases hf with
  | builtin b => exact .builtin b
  | @making i c hc =>
      have hlt : i < made.length := (List.getElem?_eq_some_iff.mp hc).1
      exact .making ((List.getElem?_append_left hlt).trans hc)

/-- A closure that gets the next number is none of those made before. -/
theorem Stems.isSame_next (hn : Numbered made) (hf : Stems made f o) {c : Closure Value}
    (hc : c.identity = made.length) : f.isSame (.closure c) = false := by
  cases hf with
  | builtin => rfl
  | @making i d hd =>
      have hi : d.identity = i := hn i d hd
      have hlt : i < made.length := (List.getElem?_eq_some_iff.mp hd).1
      simp [Callable.isSame, hi, hc]
      omega

/-- A new closure is logged at its number. -/
theorem Numbered.append (hn : Numbered made) {c : Closure Value}
    (hc : c.identity = made.length) : Numbered (made ++ [c]) := by
  intro i d hd
  rcases Nat.lt_trichotomy i made.length with hlt | rfl | hgt
  · rw [List.getElem?_append_left hlt] at hd
    exact hn i d hd
  · rw [List.getElem?_concat_length] at hd
    rw [← Option.some.inj hd, hc]
  · rw [List.getElem?_eq_none] at hd
    · cases hd
    · rw [List.length_append]
      exact hgt

end Stems

/-! ## One step -/

namespace Machine

variable {σ : Type} {m m' : Machine σ}

/-- A new closure gets the next number. -/
theorem identity_made {c : Closure Value} (h : m.made? = some c) :
    c.identity = m.nextIdentity := by
  unfold made? at h
  split at h <;> cases h <;> rfl

/-- Beginning to evaluate a function takes a number, and nothing else does. -/
theorem nextIdentity_startEval (m : Machine σ) (e : Expr) :
    (m.startEval e).nextIdentity
      = m.nextIdentity + (m.goto (.eval e)).made?.toList.length := by
  cases e with
  | symbol name n =>
      rw [startEval]
      split <;> rfl
  | define name value n => cases value <;> rfl
  | _ => rfl

variable [Host σ] {limit : Nat}

/-- A builtin that calls nothing back makes no closure. -/
theorem nextIdentity_perform {T : Trait} {value : Value → Prop} {x : Eval Value}
    (hx : T.Plain value x) : (m.perform x).nextIdentity = m.nextIdentity := by
  obtain ⟨-, random, hs⟩ := hx σ m.toStore m.host
  show ((x m.toStore).result m.host).1.2.nextIdentity = _
  rw [hs]

/-- Beginning a call makes no closure. -/
theorem nextIdentity_startCall (f : Callable Value) (args : List Value) (n : Nat) :
    (m.startCall limit f args n).nextIdentity = m.nextIdentity := by
  let T : Trait := .ofClosures fun _ => True
  have hviolation : ∀ b details, T.Plain T.value (Builtin.violation b details n) :=
    fun b details => Trait.plain_violation b details trivial
  have hplain : ∀ b args, T.Plain T.value (Builtin.plain b args n) :=
    fun b args => Trait.plain_builtin b (fun _ _ _ _ => trivial) trivial
  unfold startCall
  split
  · rfl
  · split
    · split <;> rfl
    · split
      · rfl
      · exact nextIdentity_perform (hviolation _ _)
    · split
      · rfl
      · exact nextIdentity_perform (hviolation _ _)
    · exact nextIdentity_perform (hplain _ _)

/-- A step takes a number for the closure that it makes. -/
theorem nextIdentity_step (h : m.step limit = some m') :
    m'.nextIdentity = m.nextIdentity + m.made?.toList.length := by
  obtain ⟨store, control, stack, depth, host⟩ := m
  cases control with
  | eval e =>
      cases h
      exact nextIdentity_startEval _ e
  | call f args n =>
      cases h
      exact nextIdentity_startCall f args n
  | _ => exact (quiet_step h (by rintro e ⟨⟩) (by rintro f args n ⟨⟩)).nextIdentity

/-- All closures that have been made are logged, in order, and a machine has no
    other. -/
structure Logged (m : Machine σ) (made : List (Closure Value)) : Prop where
  next : m.nextIdentity = made.length
  numbered : Numbered made
  keeps : m.Keeps (.ofClosures (· ∈ made))

variable {made : List (Closure Value)}

omit [Host σ] in
theorem Logged.stems (h : m.Logged made) {f : Callable Value} (hf : m.Contains f) :
    ∃ o, Stems made f o := by
  refine exists_stems ?_
  rintro c rfl
  exact keeps_ofClosures.mp h.keeps c hf

/-- **One step logs what it makes.** -/
theorem Logged.step (h : m.Logged made) (hs : m.step limit = some m') :
    m'.Logged (made ++ m.made?.toList) := by
  have hkeeps : m.Keeps (.ofClosures (· ∈ made ++ m.made?.toList)) :=
    keeps_ofClosures.mpr fun c hc =>
      List.mem_append_left _ (keeps_ofClosures.mp h.keeps c hc)
  have hstep := hkeeps.step (fun c hc => List.mem_append_right _ (Option.mem_toList.mpr hc)) hs
  refine ⟨?_, ?_, hstep⟩
  · rw [nextIdentity_step hs, h.next, List.length_append]
  · cases hm : m.made? with
    | none =>
        rw [Option.toList_none, List.append_nil]
        exact h.numbered
    | some c => exact h.numbered.append ((identity_made hm).trans h.next)

/-- A whole run logs what it makes. -/
theorem Logged.makes {cs : List (Closure Value)} (h : m.Logged made)
    (hr : Makes limit m cs m') : m'.Logged (made ++ cs) := by
  induction hr generalizing made with
  | here =>
      rw [List.append_nil]
      exact h
  | step hs _ ih =>
      rw [← List.append_assoc]
      exact ih (h.step hs)

end Machine

/-! ## Functions are handed on as they are -/

theorem lookup_singleton (name : String) (entry : String × Value) :
    [entry].lookup name = if name = entry.1 then some entry.2 else none := by
  obtain ⟨key, v⟩ := entry
  by_cases h : name = key
  · have hbeq : (name == key) = true := beq_iff_eq.mpr h
    simp only [List.lookup_cons, hbeq, if_pos h]
  · have hbeq : (name == key) = false := beq_eq_false_iff_ne.mpr h
    simp only [List.lookup_cons, List.lookup_nil, hbeq, if_neg h]

/-- What a symbol means after some bindings: the last of them that is for it. -/
theorem Env.lookup?_bindAll (env : Env Value) (entries : List (String × Value)) (name : String) :
    (env.bindAll entries).lookup? name
      = (entries.reverse.lookup name).or (env.lookup? name) := by
  induction entries generalizing env with
  | nil => rfl
  | cons entry entries ih =>
      have hcons : env.bindAll (entry :: entries)
          = (env.bind entry.1 entry.2).bindAll entries := rfl
      rw [hcons, ih, Env.lookup?_bind, List.reverse_cons, List.lookup_append, Option.or_assoc,
        lookup_singleton]
      congr 1
      split <;> rfl

/-- What a symbol means in a call: the argument of the last parameter with that
    name, else the closure, if that is its name, else what it meant where the
    closure was made. -/
theorem Closure.lookup?_callEnv (c : Closure Value) (args : List Value) (name : String) :
    (c.callEnv args).lookup? name
      = ((c.params.zip args).reverse.lookup name).or
          (if c.selfName? = some name then some (.function (.closure c))
            else c.scope.lookup? name) := by
  rw [Closure.callEnv_eq, Env.lookup?_bindAll, Closure.opening, List.reverse_append,
    List.lookup_append, Option.or_assoc, Env.lookup?_push]
  congr 1
  cases hself : c.selfName? with
  | none => rfl
  | some self =>
      rw [Option.map_some, Option.toList_some, List.reverse_singleton, lookup_singleton]
      by_cases h : name = self
      · rw [if_pos h, if_pos (congrArg some h.symm)]
        rfl
      · rw [if_neg h, if_neg fun hs => h (Option.some.inj hs).symm]
        rfl

/-- What is none of the parameters is not bound by the arguments. -/
theorem lookup_params_eq_none {name : String} {params : List String} (h : name ∉ params)
    (args : List Value) : (params.zip args).reverse.lookup name = none := by
  refine List.lookup_eq_none_iff.mpr fun entry hentry => ?_
  have hmem : entry.1 ∈ params := (List.of_mem_zip (List.mem_reverse.mp hentry)).1
  refine bne_iff_ne.mpr ?_
  rintro rfl
  exact h hmem

/-- In its own call a closure goes by its name, unless a parameter has the name. -/
theorem Closure.lookup?_self {c : Closure Value} {name : String} (hself : c.selfName? = some name)
    (hparam : name ∉ c.params) (args : List Value) :
    (c.callEnv args).lookup? name = some (.function (.closure c)) := by
  rw [c.lookup?_callEnv, lookup_params_eq_none hparam, if_pos hself]
  rfl

namespace Machine

variable {σ : Type}

/-- A step from `m` to `m'` hands functions on as they are. -/
structure Carries (m m' : Machine σ) : Prop where
  /-- No closure appears but the one that the step makes. -/
  only : ∀ c, m'.Contains (.closure c) → m.Contains (.closure c) ∨ m.made? = some c
  /-- That one holds the live environment, and is bound if it is defined. -/
  made : ∀ c, m.made? = some c → m'.control = .value (.function (.closure c)) ∧
    c.scope = m.env ∧
    ∀ name, c.selfName? = some name → m'.env.lookup? name = some (.function (.closure c))
  symbol : ∀ name n v, m.control = .eval (.symbol name n) → m.env.lookup? name = some v →
    m'.control = .value v
  bound : ∀ name v ks, m.control = .value v → m.stack = .define name :: ks →
    m'.control = .value v ∧ m'.env.lookup? name = some v
  /-- In a call, the arguments, the name of the closure and what it has captured. -/
  entered : ∀ c args n, m.control = .call (.closure c) args n →
    (∃ err, m'.control = .fail err) ∨ m'.control = .evalSteps c.body ∧
      (∀ name, m'.env.lookup? name
        = ((c.params.zip args).reverse.lookup name).or
            (if c.selfName? = some name then some (.function (.closure c))
              else c.scope.lookup? name)) ∧
      ∀ name, c.selfName? = some name → name ∉ c.params →
        m'.env.lookup? name = some (.function (.closure c))
  listed : ∀ vs ks, m.control = .values vs → m.stack = .list :: ks →
    m'.control = .value (.ofList vs)
  put : ∀ v items lhs rhs n ks, m.control = .value (.list items) →
    m.stack = .right .cons v lhs rhs n :: ks → m'.control = .value (.list (items.cons v))
  first : ∀ items n v, m.control = .call (.builtin .first) [.list items] n →
    m'.control = .value v → items.toList.head? = some v
  rest : ∀ items n v, m.control = .call (.builtin .rest) [.list items] n →
    m'.control = .value v → ∃ tail, v = .list tail ∧ tail.toList = items.toList.tail
  /-- `map` and `filter` call their function with the items. -/
  each : ∀ f n done v vs, m.control = .mapItems f n done (v :: vs) ∨
    m.control = .filterItems f n done (v :: vs) → m'.control = .call f [v] n
  kept : ∀ f n v done vs ks, m.control = .value (.bool true) →
    m.stack = .filtered f n v done vs :: ks → m'.control = .filterItems f n (v :: done) vs

variable [Host σ] {m m' : Machine σ} {limit : Nat}

/-- A closure after a step was there before or is the one that was made. -/
theorem contains_step (h : m.step limit = some m') {c : Closure Value}
    (hc : m'.Contains (.closure c)) : m.Contains (.closure c) ∨ m.made? = some c := by
  let T : Trait := .ofClosures fun c => m.Contains (.closure c) ∨ m.made? = some c
  have hkeeps : m.Keeps T := keeps_ofClosures.mpr fun c hc => .inl hc
  exact keeps_ofClosures.mp (hkeeps.step (fun c hc => .inr hc) h) c hc

/-- A closure that is made is the value of the step, has the live environment for
    its scope, and can be found by its name. -/
theorem made_step (h : m.step limit = some m') {c : Closure Value} (hc : m.made? = some c) :
    m'.control = .value (.function (.closure c)) ∧ c.scope = m.env ∧
      ∀ name, c.selfName? = some name → m'.env.lookup? name = some (.function (.closure c)) := by
  obtain ⟨store, control, stack, depth, host⟩ := m
  unfold made? at hc
  split at hc
  · next hcontrol =>
      cases hc
      cases hcontrol
      cases h
      refine ⟨rfl, rfl, ?_⟩
      intro name hname
      cases hname
  · next hcontrol =>
      cases hc
      cases hcontrol
      cases h
      refine ⟨rfl, rfl, ?_⟩
      intro name hname
      cases hname
      exact (Env.lookup?_bind _ _ _ _).trans (if_pos rfl)
  · cases hc

/-- A call of a closure fails or enters its body. -/
theorem entered_step (h : m.step limit = some m') {c : Closure Value} {args : List Value} {n : Nat}
    (hcontrol : m.control = .call (.closure c) args n) :
    (∃ err, m'.control = .fail err) ∨
      m'.control = .evalSteps c.body ∧ m'.env = c.callEnv args := by
  obtain ⟨store, control, stack, depth, host⟩ := m
  cases hcontrol
  cases h
  unfold startCall
  split
  · exact .inl ⟨_, rfl⟩
  · dsimp only
    split
    · exact .inl ⟨_, rfl⟩
    · exact .inr ⟨rfl, rfl⟩

/-- Taking a part of a list gives that part or fails. -/
theorem ofItems_step {b : Builtin} (part? : Items Value → Option Value) {items : Items Value}
    {n : Nat} {v : Value}
    (h : (m.perform (b.ofItems part? [.list items] n)).control = .value v) :
    part? items = some v := by
  unfold Builtin.ofItems at h
  dsimp only at h
  split at h
  · cases h
  · split at h
    · next w hw =>
        cases h
        exact hw
    · cases h

/-- **Every step hands functions on as they are.** -/
theorem carries_step (h : m.step limit = some m') : m.Carries m' where
  only c hc := contains_step h hc
  made c hc := made_step h hc
  symbol name n v hcontrol hv := by
    obtain ⟨store, control, stack, depth, host⟩ := m
    cases hcontrol
    cases h
    simp only [startEval, hv]
    rfl
  bound name v ks hcontrol hstack := by
    obtain ⟨store, control, stack, depth, host⟩ := m
    cases hcontrol
    cases hstack
    cases h
    exact ⟨rfl, (Env.lookup?_bind _ _ _ _).trans (if_pos rfl)⟩
  entered c args n hcontrol := by
    refine (entered_step h hcontrol).imp id ?_
    rintro ⟨hbody, henv⟩
    refine ⟨hbody, ?_, ?_⟩
    · intro name
      rw [henv]
      exact c.lookup?_callEnv args name
    · intro name hself hparam
      rw [henv]
      exact Closure.lookup?_self hself hparam args
  listed vs ks hcontrol hstack := by
    obtain ⟨store, control, stack, depth, host⟩ := m
    cases hcontrol
    cases hstack
    cases h
    rfl
  put v items lhs rhs n ks hcontrol hstack := by
    obtain ⟨store, control, stack, depth, host⟩ := m
    cases hcontrol
    cases hstack
    cases h
    rfl
  first items n v hcontrol hv := by
    obtain ⟨store, control, stack, depth, host⟩ := m
    cases hcontrol
    cases h
    exact ofItems_step (·.first?) hv
  rest items n v hcontrol hv := by
    obtain ⟨store, control, stack, depth, host⟩ := m
    cases hcontrol
    cases h
    have hpart := ofItems_step (fun items => items.rest?.map Value.list) hv
    obtain ⟨tail, htail, rfl⟩ := Option.map_eq_some_iff.mp hpart
    refine ⟨tail, rfl, ?_⟩
    obtain ⟨as, size⟩ := items
    cases as <;> cases htail
    rfl
  each f n done v vs hcontrol := by
    obtain ⟨store, control, stack, depth, host⟩ := m
    rcases hcontrol with hcontrol | hcontrol
    · cases hcontrol
      cases h
      rfl
    · cases hcontrol
      cases h
      rfl
  kept f n v done vs ks hcontrol hstack := by
    obtain ⟨store, control, stack, depth, host⟩ := m
    cases hcontrol
    cases hstack
    cases h
    rfl

end Machine

/-! ## Whole sessions -/

namespace Desk

variable {σ : Type} {d : Desk σ} {a : Act} {acts : List Act} {m m' : Machine σ}
  {before made : List (Closure Value)} {f : Callable Value}

/-- All closures that have been made are logged, in order, and the session and
    its host have no other. -/
structure Logged (d : Desk σ) (made : List (Closure Value)) : Prop where
  next : d.session.store.nextIdentity = made.length
  numbered : Numbered made
  keeps : d.Keeps (.ofClosures (· ∈ made))

/-- At first no closure has been made. -/
theorem logged_opened (settings : Settings) (randomness : Randomness) (host : σ) :
    (opened settings randomness host).Logged [] := by
  refine ⟨rfl, ?_, keeps_opened settings randomness host trivial⟩
  intro i c hc
  cases hc

theorem Logged.stems (h : d.Logged made) (hf : d.Contains f) : ∃ o, Stems made f o := by
  refine exists_stems ?_
  rintro c rfl
  exact keeps_ofClosures.mp h.keeps c hf

/-- An act begins with what the desk has. -/
theorem Logged.begin (h : d.Logged made) (ha : a.Allowed d) (hm : a.machine? d = some m) :
    m.Logged made := by
  have hbrings : a.Brings (.ofClosures (· ∈ made)) := by
    cases a <;> first | trivial | exact fun _ _ _ _ => trivial
  refine ⟨?_, h.numbered, h.keeps.begin ha hbrings hm⟩
  have hnext : m.nextIdentity = d.session.store.nextIdentity := by
    cases a <;> cases hm <;> rfl
  exact hnext.trans h.next

variable [Host σ]

/-- The closures that are made during some acts, in order. -/
inductive Makes : Desk σ → List Act → List (Closure Value) → Prop where
  | done (d : Desk σ) : Makes d [] []
  | idle {d : Desk σ} {a : Act} {acts : List Act} {made : List (Closure Value)} :
      a.machine? d = none → Makes (d.act a) acts made → Makes d (a :: acts) made
  | busy {d : Desk σ} {a : Act} {acts : List Act} {m m' : Machine σ}
      {cs made : List (Closure Value)} : a.machine? d = some m →
      Machine.Makes d.session.settings.maxDepth m cs m' →
      m'.step d.session.settings.maxDepth = none → Makes (d.act a) acts made →
      Makes d (a :: acts) (cs ++ made)

/-- A function was there at some moment from before the acts to behind them: with
    the session or its host between two acts, or in the machine during one. -/
inductive Existed : Desk σ → List Act → Callable Value → Prop where
  | between {d : Desk σ} {acts : List Act} {f : Callable Value} :
      d.Contains f → Existed d acts f
  | during {d : Desk σ} {a : Act} {acts : List Act} {f : Callable Value} {m m' : Machine σ} :
      a.machine? d = some m → Machine.Reaches d.session.settings.maxDepth m m' → m'.Contains f →
      Existed d (a :: acts) f
  | later {d : Desk σ} {a : Act} {acts : List Act} {f : Callable Value} :
      Existed (d.act a) acts f → Existed d (a :: acts) f

/-- Some closures are made during acts, possibly none. -/
theorem exists_makes (d : Desk σ) (acts : List Act) : ∃ made, d.Makes acts made := by
  induction acts generalizing d with
  | nil => exact ⟨[], .done d⟩
  | cons a acts ih =>
      obtain ⟨made, hmade⟩ := ih (d.act a)
      cases hm : a.machine? d with
      | none => exact ⟨made, .idle hm hmade⟩
      | some m =>
          obtain ⟨m', hr, hrest, -⟩ := exists_leaves hm
          obtain ⟨cs, hcs⟩ := Machine.exists_makes hr
          exact ⟨cs ++ made, .busy hm hcs hrest hmade⟩

/-- An act that evaluates nothing makes nothing. -/
theorem Logged.idle (h : d.Logged made) (ha : a.Allowed d) (hm : a.machine? d = none) :
    (d.act a).Logged made := by
  refine ⟨?_, h.numbered, h.keeps.idle ha hm⟩
  cases a with
  | interpret | run | eval | call => cases hm
  | restore i =>
      rw [act]
      split <;> exact h.next
  | _ => exact h.next

/-- An act logs what its machine makes. -/
theorem Logged.busy {cs : List (Closure Value)} (h : d.Logged made) (ha : a.Allowed d)
    (hm : a.machine? d = some m) (hr : Machine.Makes d.session.settings.maxDepth m cs m')
    (hrest : m'.step d.session.settings.maxDepth = none) : (d.act a).Logged (made ++ cs) := by
  obtain ⟨last, hreaches, hlast, hl⟩ := exists_leaves hm
  obtain rfl := Machine.rest_unique hr hrest hreaches hlast
  have hlog : m'.Logged (made ++ cs) := (h.begin ha hm).makes hr
  refine ⟨?_, hlog.numbered, ?_⟩
  · rw [← hl.store]
    exact hlog.next
  · have hkeeps : d.Keeps (.ofClosures (· ∈ made ++ cs)) :=
      keeps_ofClosures.mpr fun c hc =>
        List.mem_append_left _ (keeps_ofClosures.mp h.keeps c hc)
    exact hkeeps.leaves hlog.keeps hl

/-- Any number of acts log what they make. -/
theorem Logged.makes (h : d.Logged before) (ha : d.Allows acts) (hm : d.Makes acts made) :
    (d.actAll acts).Logged (before ++ made) := by
  induction hm generalizing before with
  | done =>
      rw [List.append_nil]
      exact h
  | idle hidle _ ih => exact ih (h.idle ha.1 hidle) ha.2
  | busy hbusy hr hrest _ ih =>
      rw [← List.append_assoc]
      exact ih (h.busy ha.1 hbusy hr hrest) ha.2

/-- Every function that there was at some moment is a builtin or in the log. -/
theorem Logged.stems_of_existed (h : d.Logged before) (ha : d.Allows acts)
    (hm : d.Makes acts made) (hf : d.Existed acts f) : ∃ o, Stems (before ++ made) f o := by
  induction hm generalizing before with
  | done d =>
      cases hf with
      | between hc =>
          obtain ⟨o, ho⟩ := h.stems hc
          exact ⟨o, ho.append []⟩
  | idle hidle _ ih =>
      cases hf with
      | between hc =>
          obtain ⟨o, ho⟩ := h.stems hc
          exact ⟨o, ho.append _⟩
      | during hbusy =>
          rw [hidle] at hbusy
          cases hbusy
      | later hlater => exact ih (h.idle ha.1 hidle) ha.2 hlater
  | @busy d a acts m last cs made hbusy hr hrest _ ih =>
      cases hf with
      | between hc =>
          obtain ⟨o, ho⟩ := h.stems hc
          exact ⟨o, ho.append _⟩
      | during hbusy' hr' hc =>
          cases hbusy.symm.trans hbusy'
          -- the log at that moment is a first part of the log of the act
          obtain ⟨cs₀, cs₁, rfl, h₀, -⟩ := hr.split hrest hr'
          obtain ⟨o, ho⟩ := ((h.begin ha.1 hbusy).makes h₀).stems hc
          refine ⟨o, ?_⟩
          rw [List.append_assoc cs₀, ← List.append_assoc before]
          exact ho.append _
      | later hlater =>
          rw [← List.append_assoc]
          exact ih (h.busy ha.1 hbusy hr hrest) ha.2 hlater

/-- The functions of a session are told apart: each that was there at some moment
    has one origin in the log, functions compare equal if and only if they have
    the same, and then they are the same in all parts; and a closure that is
    made in a further act is none of those that there were before. -/
structure Identified (d : Desk σ) (acts : List Act) (made : List (Closure Value)) : Prop where
  origin : ∀ f, d.Existed acts f → ∃! o, Stems made f o
  equal_iff : ∀ f g, d.Existed acts f → d.Existed acts g →
    ((Value.function f).equal (.function g) = true ↔ ∃ o, Stems made f o ∧ Stems made g o)
  eq_of_equal : ∀ f g, d.Existed acts f → d.Existed acts g →
    (Value.function f).equal (.function g) = true → f = g
  fresh : ∀ (a : Act) (m m' : Machine σ) (c : Closure Value),
    a.Allowed (d.actAll acts) → a.machine? (d.actAll acts) = some m →
    Machine.Reaches (d.actAll acts).session.settings.maxDepth m m' → m'.made? = some c →
    ∀ f, (d.Existed acts f ∨ ∃ m₀,
        Machine.Reaches (d.actAll acts).session.settings.maxDepth m m₀ ∧
        Machine.Reaches (d.actAll acts).session.settings.maxDepth m₀ m' ∧ m₀.Contains f) →
      (Value.function f).equal (.function (.closure c)) = false

theorem equal_function (f g : Callable Value) :
    (Value.function f).equal (.function g) = f.isSame g := by
  rw [Value.equal]

/-- What is made at some moment of an act is none of the log so far, nor of what
    the act has made before. -/
theorem Logged.fresh (h : d.Logged made) (ha : a.Allowed d) (hm : a.machine? d = some m)
    {m₀ : Machine σ} (h₀ : Machine.Reaches d.session.settings.maxDepth m m₀)
    (h₁ : Machine.Reaches d.session.settings.maxDepth m₀ m') {c : Closure Value}
    (hc : m'.made? = some c) (hf : m₀.Contains f ∨ ∃ o, Stems made f o) :
    (Value.function f).equal (.function (.closure c)) = false := by
  obtain ⟨cs₀, hcs₀⟩ := Machine.exists_makes h₀
  obtain ⟨cs₁, hcs₁⟩ := Machine.exists_makes h₁
  have hlog₀ : m₀.Logged (made ++ cs₀) := (h.begin ha hm).makes hcs₀
  have hlog₁ : m'.Logged (made ++ cs₀ ++ cs₁) := hlog₀.makes hcs₁
  have hstems : ∃ o, Stems (made ++ cs₀) f o := by
    rcases hf with hf | ⟨o, ho⟩
    · exact hlog₀.stems hf
    · exact ⟨o, ho.append _⟩
  obtain ⟨o, ho⟩ := hstems
  rw [equal_function]
  exact (ho.append cs₁).isSame_next hlog₁.numbered
    ((Machine.identity_made hc).trans hlog₁.next)

/-- **Functions are equal only to themselves**, over whole sessions.  Whatever a
    host does with a new session, every function that is there at any moment
    stems from one evaluation of a function, or is a builtin; two of them compare
    equal if and only if they stem from the same one, and then they have the same
    parameters, body, environment and name; what is made anew is unequal to all
    that was there before; and every step hands functions on as they are: in
    bindings, as arguments, into lists and out of them, in the environment of a
    closure, and under the closure's own name in a call of it. -/
theorem functions_equal_only_to_themselves (settings : Settings) (randomness : Randomness)
    (host : σ) (acts : List Act) (h : (opened settings randomness host).Allows acts) :
    (∃ made, (opened settings randomness host).Makes acts made) ∧
    (∀ made, (opened settings randomness host).Makes acts made →
      (opened settings randomness host).Identified acts made) ∧
    ∀ (limit : Nat) (m m' : Machine σ), m.step limit = some m' → m.Carries m' := by
  refine ⟨exists_makes _ acts, ?_, fun limit m m' hs => Machine.carries_step hs⟩
  intro made hmade
  have hopened := logged_opened settings randomness host
  have hlog := hopened.makes h hmade
  have hstems : ∀ f, (opened settings randomness host).Existed acts f → ∃ o, Stems made f o :=
    fun f hf => hopened.stems_of_existed h hmade hf
  refine ⟨?_, ?_, ?_, ?_⟩
  · intro f hf
    obtain ⟨o, ho⟩ := hstems f hf
    exact ⟨o, ho, fun p hp => hp.unique hlog.numbered ho⟩
  · intro f g hf hg
    obtain ⟨o, ho⟩ := hstems f hf
    obtain ⟨p, hp⟩ := hstems g hg
    rw [equal_function, ho.isSame_iff hlog.numbered hp]
    constructor
    · rintro rfl
      exact ⟨o, ho, hp⟩
    · rintro ⟨q, hq, hq'⟩
      exact (ho.unique hlog.numbered hq).trans (hq'.unique hlog.numbered hp)
  · intro f g hf hg heq
    obtain ⟨o, ho⟩ := hstems f hf
    obtain ⟨p, hp⟩ := hstems g hg
    rw [equal_function] at heq
    obtain rfl := (ho.isSame_iff hlog.numbered hp).mp heq
    exact ho.eq hp
  · rintro a m m' c ha hm hr hc f (hf | ⟨m₀, h₀, h₁, hf⟩)
    · exact hlog.fresh ha hm .refl hr hc (.inr (hstems f hf))
    · exact hlog.fresh ha hm h₀ h₁ hc (.inl hf)

/-- A function that is given itself, and returns a list of what it goes by, of
    its argument and of a closure that has captured both. -/
theorem functions_equal_only_to_themselves_listed :
    let items : List Expr := [.symbol "f" 1, .symbol "g" 1, .function [] [.symbol "g" 1] 1]
    let c : Closure Value := ⟨0, ["g"], [.list items 1], .ofBuiltins builtinFrame, some "f"⟩
    let acts : List Act :=
      [.interpret "f = \\g \x7b [f, g, \\\x7b g \x7d] \x7d",
        .call (.closure c) [.function (.closure c)] 1]
    let d := opened {} (fun _ => .always 0) ({} : Buffer)
    d.Allows acts ∧ ∃ made, d.Makes acts made ∧ d.Identified acts made := by
  intro items c acts d
  let first : Act := .interpret "f = \\g \x7b [f, g, \\\x7b g \x7d] \x7d"
  have hreturned : (d.act first).returned = [.function (.closure c)] := rfl
  have howns : (d.act first).Owns (.function (.closure c)) := by
    refine owns_of_mem_returned ?_
    rw [hreturned]
    exact List.mem_singleton_self _
  have hallows : d.Allows acts :=
    ⟨trivial, ⟨howns, List.forall_mem_singleton.mpr howns⟩, trivial⟩
  obtain ⟨⟨made, hmade⟩, hidentified, -⟩ :=
    functions_equal_only_to_themselves {} (fun _ => .always 0) ({} : Buffer) acts hallows
  exact ⟨hallows, made, hmade, hidentified made hmade⟩

end Desk

end Scriptlet
