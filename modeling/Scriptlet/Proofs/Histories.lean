import Mathlib.Data.Option.Basic
import Mathlib.Logic.Function.Basic
import Scriptlet.Proofs.Scope

/-! # Environments and their histories

    What an environment answers is determined by what happened to it.  A history
    is the list of these events; it knows nothing of frames.  A scope is told by
    how many others were open when it was opened, and it is open for as long as
    no fewer scopes than that are open (`Env.Stands`).  A symbol means what the
    latest binding in the innermost open scope that binds it says
    (`Env.History.Means`).

    Environments go by names and are copied from each other.  A copy goes on with
    the history of its origin, and from then on each has a history of its own
    (`Env.environments`, `Env.histories`).  The frames of every environment mirror
    its history (`Env.Mirrors`), which each event keeps. -/

namespace Scriptlet.Env

/-! ## What happened to an environment -/

/-- Something that happens to an environment. -/
inductive Event (α : Type) where
  | push
  | pop
  | bind (name : String) (a : α)

/-- What has happened to an environment since it was made, and the builtins that
    it was made over. -/
structure History (α : Type) where
  builtins : Frame α
  events : List (Event α) := []

variable {α : Type}

/-- The environment after an event. -/
def apply (env : Env α) : Event α → Env α
  | .push => env.push
  | .pop => env.pop
  | .bind name a => env.bind name a

/-- The history after an event. -/
def History.add (h : History α) (e : Event α) : History α :=
  { h with events := h.events ++ [e] }

/-- The number of open scopes after an event.  Closing one does nothing if none is
    open. -/
def openAfter (n : Nat) : Event α → Nat
  | .push => n + 1
  | .pop => n - 1
  | .bind .. => n

/-- The number of scopes that were opened and not closed again; the root is always
    open and does not count. -/
def opened (events : List (Event α)) : Nat :=
  events.foldl openAfter 0

/-- The event at place `i` binds the symbol in the scope at a depth, the root being
    at depth 0, and this scope has been open ever since. -/
structure Stands (events : List (Event α)) (depth : Nat) (name : String) (i : Nat) (a : α) :
    Prop where
  event : events[i]? = some (.bind name a)
  level : opened (events.take i) = depth
  kept : ∀ j, i ≤ j → j ≤ events.length → depth ≤ opened (events.take j)

/-- What a symbol means after a history: the latest binding in the innermost open
    scope that binds it, else its builtin. -/
inductive History.Means (h : History α) (name : String) : Option α → Prop where
  | bound {depth i : Nat} {a : α} : Stands h.events depth name i a →
      (∀ depth' i' a', Stands h.events depth' name i' a' → depth' ≤ depth) →
      (∀ i' a', Stands h.events depth name i' a' → i' ≤ i) → Means h name (some a)
  | unbound : (∀ depth i a, ¬ Stands h.events depth name i a) →
      Means h name (h.builtins.get? name)

theorem opened_append_singleton (events : List (Event α)) (e : Event α) :
    opened (events ++ [e]) = openAfter (opened events) e := by
  rw [opened, List.foldl_append]
  rfl

namespace Stands

variable {events : List (Event α)} {e : Event α} {depth i : Nat} {name : String} {a : α}

/-- What stands has happened. -/
theorem lt_length (h : Stands events depth name i a) : i < events.length :=
  (List.getElem?_eq_some_iff.mp h.event).1

/-- A scope that is open still is at most as deep as the innermost one. -/
theorem depth_le (h : Stands events depth name i a) : depth ≤ opened events := by
  have hkept := h.kept events.length (Nat.le_of_lt h.lt_length) (Nat.le_refl _)
  rwa [List.take_length] at hkept

/-- After one more event, the bindings stand that stood before, as far as their
    scopes are open still, and the event itself if it is one. -/
theorem append_singleton_iff :
    Stands (events ++ [e]) depth name i a ↔
      (Stands events depth name i a ∧ depth ≤ openAfter (opened events) e) ∨
        (e = .bind name a ∧ i = events.length ∧ depth = opened events) := by
  have htake : ∀ j, j ≤ events.length → (events ++ [e]).take j = events.take j :=
    fun j hj => List.take_append_of_le_length hj
  have hlength : (events ++ [e]).length = events.length + 1 := List.length_append
  have hall : opened ((events ++ [e]).take (events.length + 1))
      = openAfter (opened events) e := by
    rw [← hlength, List.take_length, opened_append_singleton]
  constructor
  · intro h
    have hlt := h.lt_length
    rw [hlength] at hlt
    rcases Nat.lt_or_eq_of_le (Nat.le_of_lt_succ hlt) with hi | rfl
    · refine .inl ⟨⟨?_, ?_, ?_⟩, ?_⟩
      · rw [← h.event, List.getElem?_append_left hi]
      · rw [← h.level, htake i (Nat.le_of_lt hi)]
      · intro j hij hj
        rw [← htake j hj]
        exact h.kept j hij (by omega)
      · rw [← hall]
        exact h.kept _ (by omega) (by omega)
    · refine .inr ⟨?_, rfl, ?_⟩
      · have hevent := h.event
        rw [List.getElem?_append_right (Nat.le_refl _), Nat.sub_self] at hevent
        exact Option.some.inj hevent
      · rw [← h.level, htake _ (Nat.le_refl _), List.take_length]
  · rintro (⟨h, hle⟩ | ⟨rfl, rfl, rfl⟩)
    · have hi := h.lt_length
      refine ⟨?_, ?_, ?_⟩
      · rw [List.getElem?_append_left hi, h.event]
      · rw [htake i (Nat.le_of_lt hi), h.level]
      · intro j hij hj
        rcases Nat.lt_or_eq_of_le hj with hj | rfl
        · have hj' : j ≤ events.length := by omega
          rw [htake j hj']
          exact h.kept j hij hj'
        · rw [hlength, hall]
          exact hle
    · refine ⟨?_, ?_, ?_⟩
      · rw [List.getElem?_append_right (Nat.le_refl _), Nat.sub_self]
        rfl
      · rw [htake _ (Nat.le_refl _), List.take_length]
      · intro j hij hj
        rcases Nat.lt_or_eq_of_le hj with hj | rfl
        · obtain rfl : j = events.length := by omega
          refine Nat.le_of_eq ?_
          rw [htake _ (Nat.le_refl _), List.take_length]
        · -- binding a symbol closes no scope
          rw [hlength, hall]
          exact Nat.le_refl _

end Stands

/-- A symbol means one thing only. -/
theorem History.Means.unique {h : History α} {name : String} {r r' : Option α}
    (hr : h.Means name r) (hr' : h.Means name r') : r = r' := by
  cases hr with
  | @bound depth i a hs hinner hlast =>
      cases hr' with
      | @bound depth' i' a' hs' hinner' hlast' =>
          obtain rfl : depth = depth' :=
            Nat.le_antisymm (hinner' _ _ _ hs) (hinner _ _ _ hs')
          obtain rfl : i = i' := Nat.le_antisymm (hlast' _ _ hs) (hlast _ _ hs')
          obtain ⟨-, rfl⟩ := Event.bind.inj (Option.some.inj (hs.event.symm.trans hs'.event))
          rfl
      | unbound hnone => exact absurd hs (hnone _ _ _)
  | unbound hnone =>
      cases hr' with
      | bound hs' => exact absurd hs' (hnone _ _ _)
      | unbound => rfl

/-! ## Frames mirror the history -/

/-- What a frame at a depth has for a symbol: the latest binding that stands in the
    scope at this depth. -/
def Latest (events : List (Event α)) (depth : Nat) (name : String) : Option α → Prop
  | some a => ∃ i, Stands events depth name i a ∧
      ∀ i' a', Stands events depth name i' a' → i' ≤ i
  | none => ∀ i a, ¬ Stands events depth name i a

/-- There is a frame for every open scope, and each has the latest bindings that
    stand in its scope.  The depth of a frame is the number of frames around it. -/
structure Mirrors (env : Env α) (events : List (Event α)) : Prop where
  outer : env.outer.length = opened events
  frames : ∀ inner frame outer, env.frames = inner ++ frame :: outer →
    ∀ name, Latest events outer.length name (frame.get? name)

/-- An event that leaves a scope open and binds nothing in it leaves its bindings as
    they are. -/
theorem Latest.append_singleton {events : List (Event α)} {e : Event α} {depth : Nat}
    {name : String} {r : Option α} (h : Latest events depth name r)
    (hopen : depth ≤ openAfter (opened events) e)
    (hother : ∀ a, e = .bind name a → depth ≠ opened events) :
    Latest (events ++ [e]) depth name r := by
  have hiff : ∀ i a, Stands (events ++ [e]) depth name i a ↔ Stands events depth name i a := by
    intro i a
    rw [Stands.append_singleton_iff]
    constructor
    · rintro (⟨hs, -⟩ | ⟨he, -, hd⟩)
      · exact hs
      · exact absurd hd (hother a he)
    · exact fun hs => .inl ⟨hs, hopen⟩
  cases r with
  | none => exact fun i a hs => h i a ((hiff i a).mp hs)
  | some a =>
      obtain ⟨i, hs, hlast⟩ := h
      exact ⟨i, (hiff i a).mpr hs, fun i' a' hs' => hlast i' a' ((hiff i' a').mp hs')⟩

/-- A new binding is the latest one. -/
theorem latest_of_bind (events : List (Event α)) (name : String) (a : α) :
    Latest (events ++ [.bind name a]) (opened events) name (some a) := by
  refine ⟨events.length, Stands.append_singleton_iff.mpr (.inr ⟨rfl, rfl, rfl⟩), ?_⟩
  intro i' a' hs'
  have hlt := hs'.lt_length
  rw [List.length_append] at hlt
  exact Nat.le_of_lt_succ hlt

variable {env : Env α} {events : List (Event α)}

/-- The frames inside and outside of a frame are all but one. -/
theorem length_of_frames_eq {inner outer : List (Frame α)} {frame : Frame α}
    (h : env.frames = inner ++ frame :: outer) :
    inner.length + outer.length = env.outer.length := by
  have hlength : env.outer.length + 1 = inner.length + (outer.length + 1) := by
    simpa [frames] using congrArg List.length h
  omega

/-- At first nothing has happened, and there is one empty frame. -/
theorem mirrors_ofBuiltins (builtins : Frame α) : (ofBuiltins builtins).Mirrors [] := by
  refine ⟨rfl, ?_⟩
  intro inner frame outer hframes name
  have hmem : frame ∈ (ofBuiltins builtins).frames := by
    rw [hframes]
    exact List.mem_append_right _ List.mem_cons_self
  obtain rfl := List.mem_singleton.mp hmem
  exact fun i a hs => Nat.not_lt_zero i hs.lt_length

/-- A scope that is opened has no bindings. -/
theorem mirrors_push (h : env.Mirrors events) : env.push.Mirrors (events ++ [.push]) := by
  refine ⟨?_, ?_⟩
  · rw [opened_append_singleton]
    exact congrArg (· + 1) h.outer
  · intro inner frame outer hframes name
    have hother : ∀ a : α, Event.push = Event.bind name a → outer.length ≠ opened events := by
      intro a he
      cases he
    cases inner with
    | nil =>
        -- the scope was opened just now, and nothing can stand in it
        obtain ⟨rfl, rfl⟩ := List.cons.inj hframes
        intro i a hs
        rcases Stands.append_singleton_iff.mp hs with ⟨hs, -⟩ | ⟨he, -, -⟩
        · have hle : env.outer.length + 1 ≤ opened events := hs.depth_le
          rw [h.outer] at hle
          exact Nat.not_succ_le_self _ hle
        · cases he
    | cons frame₀ inner =>
        have hrest : env.frames = inner ++ frame :: outer := (List.cons.inj hframes).2
        refine (h.frames inner frame outer hrest name).append_singleton ?_ hother
        have hlength := length_of_frames_eq hrest
        rw [h.outer] at hlength
        show outer.length ≤ opened events + 1
        omega

/-- When a scope is closed its bindings no longer stand; the root stays open. -/
theorem mirrors_pop (h : env.Mirrors events) : env.pop.Mirrors (events ++ [.pop]) := by
  obtain ⟨innermost, outer₀, builtins⟩ := env
  have hother : ∀ {depth : Nat} {name : String} (a : α),
      Event.pop = Event.bind name a → depth ≠ opened events := by
    intro depth name a he
    cases he
  cases outer₀ with
  | nil =>
      -- the root stays, and with it all that stands
      have hzero : 0 = opened events := h.outer
      refine ⟨?_, ?_⟩
      · rw [opened_append_singleton, ← hzero]
        rfl
      · intro inner frame outer hframes name
        refine (h.frames inner frame outer hframes name).append_singleton ?_ hother
        have hlength : inner.length + outer.length = 0 := length_of_frames_eq hframes
        omega
  | cons frame₁ outer₁ =>
      have hopened : outer₁.length + 1 = opened events := h.outer
      refine ⟨?_, ?_⟩
      · rw [opened_append_singleton, ← hopened]
        rfl
      · intro inner frame outer hframes name
        have hlength : inner.length + outer.length = outer₁.length := length_of_frames_eq hframes
        refine (h.frames (innermost :: inner) frame outer ?_ name).append_singleton ?_ hother
        · exact congrArg (innermost :: ·) hframes
        · show outer.length ≤ opened events - 1
          omega

/-- A binding is made in the innermost scope and hides earlier ones there. -/
theorem mirrors_bind (h : env.Mirrors events) (name : String) (a : α) :
    (env.bind name a).Mirrors (events ++ [.bind name a]) := by
  refine ⟨?_, ?_⟩
  · rw [opened_append_singleton]
    exact h.outer
  · intro inner frame outer hframes other
    have hlength : inner.length + outer.length = opened events :=
      (length_of_frames_eq hframes).trans h.outer
    have hopen : outer.length ≤ openAfter (opened events) (.bind name a) :=
      Nat.le_trans (Nat.le_add_left _ _) (Nat.le_of_eq hlength)
    cases inner with
    | nil =>
        obtain ⟨rfl, rfl⟩ := List.cons.inj hframes
        show Latest _ env.outer.length other ((env.innermost.set name a).get? other)
        rw [Frame.get?_set]
        split
        · next hname =>
            subst hname
            rw [h.outer]
            exact latest_of_bind events other a
        · next hname =>
            refine (h.frames [] env.innermost env.outer rfl other).append_singleton hopen ?_
            intro b he
            exact absurd (Event.bind.inj he).1.symm hname
    | cons frame₀ inner =>
        have hrest : env.outer = inner ++ frame :: outer := (List.cons.inj hframes).2
        refine (h.frames (env.innermost :: inner) frame outer ?_ other).append_singleton hopen ?_
        · exact congrArg (env.innermost :: ·) hrest
        · rw [List.length_cons] at hlength
          intro _ _
          omega

/-- **One event keeps the mirror.** -/
theorem Mirrors.apply (h : env.Mirrors events) (e : Event α) :
    (env.apply e).Mirrors (events ++ [e]) := by
  cases e with
  | push => exact mirrors_push h
  | pop => exact mirrors_pop h
  | bind name a => exact mirrors_bind h name a

/-- A list of frames has one at every depth up to its length. -/
theorem exists_frame (frames : List (Frame α)) {depth : Nat} (h : depth < frames.length) :
    ∃ inner frame outer, frames = inner ++ frame :: outer ∧ outer.length = depth := by
  induction frames with
  | nil => exact absurd h (Nat.not_lt_zero depth)
  | cons innermost outer ih =>
      rcases Nat.lt_or_eq_of_le (Nat.le_of_lt_succ h) with hlt | rfl
      · obtain ⟨inner, frame, rest, rfl, hdepth⟩ := ih hlt
        exact ⟨innermost :: inner, frame, rest, rfl, hdepth⟩
      · exact ⟨[], innermost, outer, rfl, rfl⟩

/-- What a symbol means in an environment is what it means after the history. -/
theorem Mirrors.means_lookup? {h : History α} (hm : env.Mirrors h.events)
    (hb : env.builtins = h.builtins) (name : String) : h.Means name (env.lookup? name) := by
  have hframes : env.frames.length = opened h.events + 1 := congrArg (· + 1) hm.outer
  unfold lookup?
  cases hfound : env.frames.findSome? (·.get? name) with
  | none =>
      have hnone := List.findSome?_eq_none_iff.mp hfound
      rw [Option.none_or, hb]
      refine .unbound fun depth i a hs => ?_
      obtain ⟨inner, frame, outer, hsplit, rfl⟩ :=
        exists_frame env.frames (Nat.lt_of_le_of_lt hs.depth_le (by omega))
      have hlatest := hm.frames inner frame outer hsplit name
      rw [hnone frame (hsplit ▸ List.mem_append_right _ List.mem_cons_self)] at hlatest
      exact hlatest i a hs
  | some a =>
      obtain ⟨inner, frame, outer, hsplit, ha, hinner⟩ := List.findSome?_eq_some_iff.mp hfound
      have hlatest := hm.frames inner frame outer hsplit name
      rw [ha] at hlatest
      obtain ⟨i, hs, hlast⟩ := hlatest
      refine .bound hs (fun depth' i' a' hs' => ?_) hlast
      -- a deeper scope has a frame further in, which does not bind the symbol
      refine Nat.le_of_not_lt fun hlt => ?_
      have hdepth := hs'.depth_le
      have hlength := (length_of_frames_eq hsplit).trans hm.outer
      obtain ⟨inner₁, frame₁, inner₂, rfl, hinner₂⟩ :=
        exists_frame inner (show depth' - outer.length - 1 < inner.length by omega)
      have hdeeper := hm.frames inner₁ frame₁ (inner₂ ++ frame :: outer)
        (hsplit.trans (List.append_assoc ..)) name
      rw [hinner frame₁ (List.mem_append_right _ List.mem_cons_self), List.length_append,
        List.length_cons, hinner₂, show depth' - outer.length - 1 + (outer.length + 1) = depth'
          by omega] at hdeeper
      exact hdeeper i' a' hs'

/-! ## Environments that go by names -/

/-- An operation on environments that go by names. -/
inductive Command (ι α : Type) where
  | new (target : ι)
  | withBuiltins (target : ι) (builtins : Frame α)
  | snapshot (target origin : ι)
  | act (target : ι) (e : Event α)

variable {ι : Type}

/-- The name that an operation is about. -/
def Command.target : Command ι α → ι
  | .new target | .withBuiltins target _ | .snapshot target _ | .act target _ => target

/-- What goes by the names after an operation, when `make` makes something over
    builtins and `change` lets an event happen to it. -/
def Command.perform [DecidableEq ι] {β : Type} (make : Frame α → β) (change : β → Event α → β)
    (named : ι → Option β) : Command ι α → ι → Option β
  | .new target => Function.update named target (some (make {}))
  | .withBuiltins target builtins => Function.update named target (some (make builtins))
  | .snapshot target origin => Function.update named target (named origin)
  | .act target e => Function.update named target ((named target).map (change · e))

/-- The environments after some operations. -/
def environments [DecidableEq ι] (commands : List (Command ι α)) : ι → Option (Env α) :=
  commands.foldl (Command.perform ofBuiltins apply) fun _ => none

/-- The histories of the environments after some operations.  A snapshot starts with
    the history of its origin. -/
def histories [DecidableEq ι] (commands : List (Command ι α)) : ι → Option (History α) :=
  commands.foldl (Command.perform (fun builtins => { builtins }) History.add) fun _ => none

/-- An environment answers as its history says. -/
structure Reflects (env : Env α) (h : History α) : Prop where
  depth : env.depth = 1 + opened h.events
  lookup : ∀ name r, env.lookup? name = r ↔ h.Means name r
  has : ∀ name, env.has name = true ↔ ∃ a, h.Means name (some a)
  builtins : env.builtins = h.builtins

/-- An environment that mirrors the events answers as they say. -/
theorem Mirrors.reflects {h : History α} (hm : env.Mirrors h.events)
    (hb : env.builtins = h.builtins) : env.Reflects h := by
  have hlookup : ∀ name r, env.lookup? name = r ↔ h.Means name r := by
    intro name r
    constructor
    · rintro rfl
      exact hm.means_lookup? hb name
    · exact (hm.means_lookup? hb name).unique
  refine ⟨?_, hlookup, ?_, hb⟩
  · rw [← hm.outer, Nat.add_comm]
    rfl
  · intro name
    rw [has, Option.isSome_iff_exists]
    exact exists_congr fun a => hlookup name (some a)

theorem builtins_apply (env : Env α) (e : Event α) : (env.apply e).builtins = env.builtins := by
  cases e with
  | push => rfl
  | pop =>
      rw [apply, pop]
      split <;> rfl
  | bind name a => rfl

section Names

variable [DecidableEq ι] {β γ : Type} {make : Frame α → β} {change : β → Event α → β}
  {make' : Frame α → γ} {change' : γ → Event α → γ} {R : β → γ → Prop}

/-- An operation leaves alone what goes by another name. -/
theorem Command.perform_of_ne {named : ι → Option β} {c : Command ι α} {name : ι}
    (h : name ≠ c.target) : c.perform make change named name = named name := by
  cases c <;> exact Function.update_of_ne h _ _

/-- Two ways to make things and to change them that agree on single things agree on
    whatever goes by names. -/
theorem Command.rel_perform (hmake : ∀ builtins, R (make builtins) (make' builtins))
    (hchange : ∀ x y e, R x y → R (change x e) (change' y e))
    {named : ι → Option β} {named' : ι → Option γ}
    (h : ∀ name, Option.Rel R (named name) (named' name)) (c : Command ι α) (name : ι) :
    Option.Rel R (c.perform make change named name) (c.perform make' change' named' name) := by
  by_cases hname : name = c.target
  · subst hname
    cases c with
    | new target | withBuiltins target builtins =>
        simp only [perform, Command.target, Function.update_self]
        exact .some (hmake _)
    | snapshot target origin =>
        simp only [perform, Command.target, Function.update_self]
        exact h origin
    | act target e =>
        simp only [perform, Command.target, Function.update_self]
        have ht := h target
        generalize named target = x at ht
        generalize named' target = y at ht
        cases ht with
        | none => exact .none
        | some hr => exact .some (hchange _ _ e hr)
  · rw [perform_of_ne hname, perform_of_ne hname]
    exact h name

/-- **Related states stay related** under the same operations, when each operation
    keeps them so. -/
theorem rel_foldl_perform (hmake : ∀ builtins, R (make builtins) (make' builtins))
    (hchange : ∀ x y e, R x y → R (change x e) (change' y e)) (commands : List (Command ι α))
    {named : ι → Option β} {named' : ι → Option γ}
    (h : ∀ name, Option.Rel R (named name) (named' name)) (name : ι) :
    Option.Rel R (commands.foldl (Command.perform make change) named name)
      (commands.foldl (Command.perform make' change') named' name) := by
  induction commands generalizing named named' with
  | nil => exact h name
  | cons c commands ih => exact ih (c.rel_perform hmake hchange h)

end Names

/-- **Environments are their histories.**  After any operations on environments that
    go by names, an environment and its history both exist or neither does; the depth
    is one more than the number of scopes that were opened and not closed again; a
    symbol means what the latest binding in the innermost open scope that binds it
    says, else its builtin; it has a meaning exactly when there is one; and the
    builtins are those that the environment was made over.  An operation on one
    environment leaves every other as it is. -/
theorem environments_reflect_histories [DecidableEq ι] (commands : List (Command ι α)) :
    (∀ name, Option.Rel Reflects (environments commands name) (histories commands name)) ∧
    (∀ (c : Command ι α) (name : ι), name ≠ c.target →
      environments (commands ++ [c]) name = environments commands name) := by
  constructor
  · intro name
    have hrel : Option.Rel (fun env h => Mirrors env h.events ∧ env.builtins = h.builtins)
        (environments commands name) (histories commands name) := by
      refine rel_foldl_perform ?_ ?_ commands (fun _ => .none) name
      · exact fun builtins => ⟨mirrors_ofBuiltins builtins, rfl⟩
      · rintro env h e ⟨hm, hb⟩
        exact ⟨hm.apply e, (builtins_apply env e).trans hb⟩
    generalize environments commands name = env at hrel
    generalize histories commands name = h at hrel
    cases hrel with
    | none => exact .none
    | some hr => exact .some (hr.1.reflects hr.2)
  · intro c name hname
    rw [environments, List.foldl_append]
    exact Command.perform_of_ne hname

/-- A symbol is bound anew in a scope of its own after a snapshot was taken. -/
theorem environments_reflect_histories_snapshot :
    let commands : List (Command String Nat) :=
      [.withBuiltins "live" ⟨[("k", 7)]⟩, .act "live" (.bind "n" 1), .snapshot "kept" "live",
        .act "live" .push, .act "live" (.bind "n" 2)]
    let c : Command String Nat := .act "live" .pop
    "kept" ≠ c.target
      ∧ environments (commands ++ [c]) "kept" = environments commands "kept"
      ∧ Option.Rel Reflects (environments commands "live") (histories commands "live") := by
  intro commands c
  have hne : "kept" ≠ c.target := by decide
  obtain ⟨hreflects, hother⟩ := environments_reflect_histories commands
  exact ⟨hne, hother c "kept" hne, hreflects "live"⟩

end Scriptlet.Env
