import Scriptlet.Proofs.Grammar

/-! # What the reader has read

    A state of the reader can be written out like a program: the finished
    expressions, then the constructs around the current one from the outside
    in, then the expression in progress.  After any tokens the state, written
    out, is spelled by exactly these tokens, and its parts are canonical as
    far as they go (`Reader.Reads`).  One token keeps this so
    (`Reader.Reads.step`); a complete state is then a canonical program that
    the tokens spell (`Reader.Reads.complete`). -/

namespace Scriptlet.Reader

/-! ## States written out -/

/-- A waiting operator with its left operand. -/
def Waiting.slots : Waiting → List Slot
  | .unary op n => [.naming op.kind n]
  | .binary op lhs n => lhs.slots ++ [.naming op.kind n]

/-- Waiting operators, the outermost first. -/
def waitingSlots : List Waiting → List Slot
  | [] => []
  | w :: ws => waitingSlots ws ++ w.slots

/-- The targets of definitions, the outermost first. -/
def targetSlots : List (String × Nat) → List Slot
  | [] => []
  | (name, n) :: targets =>
    targetSlots targets ++ [.plain (.identifier name), .naming (.mark .equal) n]

/-- An expression in progress, up to its last operand. -/
def Partial.slots (p : Partial) : List Slot :=
  targetSlots p.targets ++ waitingSlots p.waiting

/-- Items, each with the comma behind it. -/
def itemSlots (items : List Expr) : List Slot :=
  items.flatMap fun e => e.slots ++ [.plain (.mark .comma)]

/-- Names, each with the comma behind it. -/
def nameSlots (names : List String) : List Slot :=
  names.flatMap fun p => [.plain (.identifier p), .plain (.mark .comma)]

/-- What has been read of a construct. -/
def Around.slots : Around → List Slot
  | .group n => [.naming (.mark .leftParen) n]
  | .list items n => .naming (.mark .leftBracket) n :: itemSlots items.reverse
  | .args callee items n =>
    callee.slots ++ .naming (.mark .leftParen) n :: itemSlots items.reverse
  | .test n => [.naming (.keyword .ifWord) n]
  | .yes cond items n =>
    .naming (.keyword .ifWord) n :: cond.slots
      ++ .plain (.mark .leftBrace) :: Expr.slotsSteps items.reverse
  | .no cond ys items n =>
    .naming (.keyword .ifWord) n :: cond.slots
      ++ .plain (.mark .leftBrace) :: Expr.slotsSteps ys
      ++ .plain (.mark .rightBrace) :: .plain (.keyword .elseWord)
      :: .plain (.mark .leftBrace) :: Expr.slotsSteps items.reverse
  | .body params items n =>
    .naming (.mark .backslash) n :: slotsNames params
      ++ .plain (.mark .leftBrace) :: Expr.slotsSteps items.reverse

/-- The constructs around an expression, the outermost first. -/
def aroundSlots : List (Around × Partial) → List Slot
  | [] => []
  | (a, outer) :: around => aroundSlots around ++ (outer.slots ++ a.slots)

/-- All that has been read in front of the current expression. -/
def Place.slots (place : Place) : List Slot :=
  Expr.slotsSteps place.finished.reverse ++ aroundSlots place.around

/-- What has been read of a construct up to a point inside it. -/
def Gap.slots : Gap → List Slot
  | .firstItem n => [.naming (.mark .leftBracket) n]
  | .firstArg callee n => callee.slots ++ [.naming (.mark .leftParen) n]
  | .elseWord test yes n =>
    .naming (.keyword .ifWord) n :: test.slots
      ++ .plain (.mark .leftBrace) :: Expr.slotsSteps yes ++ [.plain (.mark .rightBrace)]
  | .elseBlock test yes n =>
    .naming (.keyword .ifWord) n :: test.slots
      ++ .plain (.mark .leftBrace) :: Expr.slotsSteps yes
      ++ [.plain (.mark .rightBrace), .plain (.keyword .elseWord)]
  | .firstParam n => [.naming (.mark .backslash) n]
  | .param params n => .naming (.mark .backslash) n :: nameSlots params.reverse
  | .paramEnd params n => .naming (.mark .backslash) n :: slotsNames params.reverse

theorem Place.slots_enter (place : Place) (a : Around) (outer : Partial) :
    (place.enter a outer).slots = place.slots ++ (outer.slots ++ a.slots) := by
  simp [Place.slots, Place.enter, aroundSlots]

/-- The slots of a sequence are those of its expressions, with nothing between them. -/
theorem slotsSteps_eq_flatMap (es : List Expr) : Expr.slotsSteps es = es.flatMap Expr.slots := by
  induction es with
  | nil => rfl
  | cons e es ih => simp [Expr.slotsSteps, ih]

theorem slotsSteps_concat (es : List Expr) (e : Expr) :
    Expr.slotsSteps (es ++ [e]) = Expr.slotsSteps es ++ e.slots := by
  simp [slotsSteps_eq_flatMap]

theorem slotsItems_concat (es : List Expr) (e : Expr) :
    Expr.slotsItems (es ++ [e]) = itemSlots es ++ e.slots := by
  induction es with
  | nil => simp [Expr.slotsItems, itemSlots]
  | cons f es ih =>
      cases es with
      | nil => simp [Expr.slotsItems, itemSlots]
      | cons g es => simpa [Expr.slotsItems, itemSlots] using ih

theorem slotsNames_concat (ps : List String) (p : String) :
    slotsNames (ps ++ [p]) = nameSlots ps ++ [.plain (.identifier p)] := by
  induction ps with
  | nil => rfl
  | cons q ps ih =>
      cases ps with
      | nil => rfl
      | cons r ps => simpa [slotsNames, nameSlots] using ih

/-- Giving a waiting operator its operand changes nothing in writing. -/
theorem slots_close (w : Waiting) (e : Expr) : (w.close e).slots = w.slots ++ e.slots := by
  cases w <;> simp [Waiting.close, Waiting.slots, Expr.slots]

/-- Closing operators moves slots from those that wait to the expression. -/
theorem slots_closeFor (op : BinaryOp) (ws : List Waiting) (e : Expr) :
    waitingSlots (Partial.closeFor op ws e).1 ++ (Partial.closeFor op ws e).2.slots
      = waitingSlots ws ++ e.slots := by
  induction ws generalizing e with
  | nil => rfl
  | cons w ws ih =>
      rw [Partial.closeFor]
      split
      · rw [ih, slots_close, waitingSlots, List.append_assoc]
      · rfl

/-- An operator that begins to wait adds its left operand and itself. -/
theorem slots_extend (p : Partial) (op : BinaryOp) (e : Expr) (n : Nat) :
    (p.extend op e n).slots = p.slots ++ (e.slots ++ [.naming op.kind n]) := by
  have h := slots_closeFor op p.waiting e
  simp only [Partial.extend, Partial.slots, waitingSlots, Waiting.slots]
  rw [← List.append_assoc (waitingSlots _), h]
  simp

/-- All waiting operators closed, the slots are the same. -/
theorem slots_foldl_close (ws : List Waiting) (e : Expr) :
    (ws.foldl (fun e w => w.close e) e).slots = waitingSlots ws ++ e.slots := by
  induction ws generalizing e with
  | nil => rfl
  | cons w ws ih => rw [List.foldl_cons, ih, slots_close, waitingSlots, List.append_assoc]

/-- Targets stand in front of the value. -/
theorem slots_foldl_define (targets : List (String × Nat)) (e : Expr) :
    (targets.foldl (fun e target => Expr.define target.1 e target.2) e).slots
      = targetSlots targets ++ e.slots := by
  induction targets generalizing e with
  | nil => rfl
  | cons target targets ih =>
      rw [List.foldl_cons, ih]
      simp [targetSlots, Expr.slots]

/-- A finished expression has the slots of what was in progress. -/
theorem slots_finish (p : Partial) (e : Expr) : (p.finish e).slots = p.slots ++ e.slots := by
  rw [Partial.finish, slots_foldl_define, slots_foldl_close, Partial.slots, List.append_assoc]

/-! ## Canonical states -/

/-- The least tier of an operand of the innermost waiting operator. -/
def operandTier : List Waiting → Nat
  | [] => 1
  | .unary .. :: _ => unaryTier
  | .binary op .. :: _ => op.rhsTier

/-- The left operands are canonical and sit at their tiers, and every
    operator can stand in the right operand of the one outside it. -/
def WaitingSound : List Waiting → Prop
  | [] => True
  | .unary .. :: ws => WaitingSound ws
  | .binary op lhs _ :: ws =>
    lhs.Canonical ∧ op.lhsTier ≤ lhs.tier ∧ operandTier ws ≤ op.tier ∧ WaitingSound ws

/-- What begins with `ss` may follow the expressions in front of it. -/
def Follows (before : List Expr) (ss : List Slot) : Prop :=
  before ≠ [] → ∃ s ∈ ss.head?, s.kind.joins = false

/-- The expressions in front of the current one in the same sequence, last
    one first. -/
def Around.before : Around → List Expr
  | .group _ | .list .. | .args .. | .test _ => []
  | .yes _ items _ | .no _ _ items _ | .body _ items _ => items

/-- What has been read of a construct is canonical. -/
def Around.Sound : Around → Prop
  | .group _ | .test _ => True
  | .list items _ => ∀ e ∈ items, e.Canonical
  | .args callee items _ =>
    callee.Canonical ∧ callTier ≤ callee.tier ∧ ∀ e ∈ items, e.Canonical
  | .yes cond items _ => cond.Canonical ∧ Program.Canonical items.reverse
  | .no cond ys items _ =>
    cond.Canonical ∧ (ys ≠ [] ∧ Program.Canonical ys) ∧ Program.Canonical items.reverse
  | .body _ items _ => Program.Canonical items.reverse

/-- The expressions in front of the current one in the same sequence, last
    one first. -/
def Place.before (place : Place) : List Expr :=
  match place.around with
  | [] => place.finished
  | (a, _) :: _ => a.before

/-- The constructs around an expression are canonical, and so are the
    expressions that they belong to. -/
def AroundSound (finished : List Expr) : List (Around × Partial) → Prop
  | [] => True
  | (a, outer) :: around =>
    a.Sound ∧ WaitingSound outer.waiting
      ∧ Follows (Place.before ⟨around, finished⟩) (outer.slots ++ a.slots)
      ∧ AroundSound finished around

/-- All that has been read in front of the current expression is canonical. -/
def Place.Sound (place : Place) : Prop :=
  Program.Canonical place.finished.reverse ∧ AroundSound place.finished place.around

/-- What has been read of a construct is canonical. -/
def Gap.Sound : Gap → Prop
  | .firstItem _ | .firstParam _ | .param .. => True
  | .firstArg callee _ => callee.Canonical ∧ callTier ≤ callee.tier
  | .elseWord test yes _ | .elseBlock test yes _ =>
    test.Canonical ∧ yes ≠ [] ∧ Program.Canonical yes
  | .paramEnd params _ => params ≠ []

/-- Only the first slot matters. -/
theorem Follows.append {before : List Expr} {ss : List Slot} (h : Follows before ss)
    (more : List Slot) : Follows before (ss ++ more) := by
  intro hb
  obtain ⟨s, hs, hj⟩ := h hb
  exact ⟨s, by simp [Option.mem_def.mp hs], hj⟩

theorem follows_nil (ss : List Slot) : Follows [] ss :=
  fun h => absurd rfl h

/-- An expression that follows others does not go on with them. -/
theorem Follows.joins_eq_false {before : List Expr} {e : Expr} (h : Follows before e.slots)
    (hb : before ≠ []) : e.joins = false := by
  obtain ⟨s, hs, hj⟩ := h hb
  simp [Expr.joins, Option.mem_def.mp hs, hj]

/-- A canonical program with one more expression. -/
theorem canonical_concat {es : List Expr} {e : Expr} :
    Program.Canonical (es ++ [e]) ↔
      Program.Canonical es ∧ e.Canonical ∧ (es ≠ [] → e.joins = false) := by
  cases es with
  | nil => simp [Program.Canonical, Expr.CanonicalAll, Separated]
  | cons f es =>
      simp only [Program.Canonical, Expr.canonicalAll_iff, Separated, List.cons_append,
        List.tail_cons, List.forall_mem_cons, List.forall_mem_append,
        ne_eq, reduceCtorEq, not_false_eq_true, forall_const]
      tauto

theorem canonicalAll_reverse {es : List Expr} (h : ∀ e ∈ es, e.Canonical) :
    Expr.CanonicalAll es.reverse :=
  Expr.canonicalAll_iff.mpr fun e he => h e (List.mem_reverse.mp he)

/-- A finished expression joins the sequence in front of it. -/
theorem canonical_snoc {before : List Expr} {e : Expr}
    (hb : Program.Canonical before.reverse) (he : e.Canonical) (hf : Follows before e.slots) :
    Program.Canonical (e :: before).reverse := by
  rw [List.reverse_cons, canonical_concat]
  refine ⟨hb, he, fun hne => hf.joins_eq_false ?_⟩
  simpa using hne

/-- What is sound inside a construct, in terms of what is around it. -/
theorem Place.sound_enter (place : Place) (a : Around) (outer : Partial) :
    (place.enter a outer).Sound ↔
      place.Sound ∧ a.Sound ∧ WaitingSound outer.waiting
        ∧ Follows place.before (outer.slots ++ a.slots) := by
  simp only [Place.Sound, Place.enter, AroundSound]
  tauto

/-! ## Closing waiting operators -/

/-- A waiting operator closes for the next one exactly if it may be that
    one's left operand. -/
theorem yieldsTo_binary (op next : BinaryOp) (lhs : Expr) (n : Nat) :
    (Waiting.binary op lhs n).yieldsTo next = true ↔ next.lhsTier ≤ op.tier := by
  have hg : next.groupsRight = decide (next = .cons) := by cases next <;> rfl
  simp only [Waiting.yieldsTo, ← BinaryOp.tier_eq_level, hg, BinaryOp.lhsTier, Bool.or_eq_true,
    decide_eq_true_eq, Bool.and_eq_true, beq_iff_eq, Bool.not_eq_true', decide_eq_false_iff_not]
  by_cases hn : next = .cons
  · simp only [hn, not_true, and_false, or_false, if_true]
    omega
  · simp only [hn, not_false_eq_true, and_true, if_false]
    omega

/-- Of two operators either the first is in the left operand of the second,
    or the second in the right operand of the first. -/
theorem rhsTier_le_iff (op next : BinaryOp) :
    op.rhsTier ≤ next.tier ↔ ¬ next.lhsTier ≤ op.tier := by
  have alone : ∀ o : BinaryOp, o.tier = BinaryOp.cons.tier → o = .cons := by
    intro o
    cases o <;> decide
  simp only [BinaryOp.rhsTier, BinaryOp.lhsTier]
  by_cases ho : op = .cons <;> by_cases hn : next = .cons
  · rw [if_pos ho, if_pos hn, ho, hn]
    omega
  · have := mt (alone next) hn
    rw [if_pos ho, if_neg hn, ho]
    omega
  · have := mt (alone op) ho
    rw [if_neg ho, if_pos hn, hn]
    omega
  · rw [if_neg ho, if_neg hn]
    omega

theorem lhsTier_le_unaryTier (op : BinaryOp) : op.lhsTier ≤ unaryTier := by
  cases op <;> decide

theorem rhsTier_le_unaryTier (op : BinaryOp) : op.rhsTier ≤ unaryTier := by
  cases op <;> decide

/-- No operator asks more of an operand than a unary one. -/
theorem operandTier_le_unaryTier (ws : List Waiting) : operandTier ws ≤ unaryTier := by
  match ws with
  | [] => decide
  | .unary .. :: _ => exact Nat.le_refl _
  | .binary op .. :: _ => exact rhsTier_le_unaryTier op

/-- Calls and what binds tighter may be operands of any operator. -/
theorem operandTier_le_of_call {ws : List Waiting} {e : Expr} (ht : callTier ≤ e.tier) :
    operandTier ws ≤ e.tier :=
  Nat.le_trans (operandTier_le_unaryTier ws) (Nat.le_of_succ_le ht)

/-- A waiting operator makes a canonical expression of its operand, which
    may be the operand of the operator outside it. -/
theorem canonical_close {w : Waiting} {ws : List Waiting} {e : Expr}
    (hw : WaitingSound (w :: ws)) (he : e.Canonical) (ht : operandTier (w :: ws) ≤ e.tier) :
    (w.close e).Canonical ∧ operandTier ws ≤ (w.close e).tier ∧ WaitingSound ws := by
  cases w with
  | unary op n => exact ⟨⟨he, ht⟩, operandTier_le_unaryTier ws, hw⟩
  | binary op lhs n =>
      obtain ⟨hl, hlt, hop, hws⟩ := hw
      exact ⟨⟨hl, he, hlt, ht⟩, hop, hws⟩

/-- Closing operators in front of `op` leaves room for it: what is closed is
    a left operand of `op`, and `op` may stand behind what still waits. -/
theorem closeFor_sound (op : BinaryOp) (ws : List Waiting) (e : Expr)
    (hw : WaitingSound ws) (he : e.Canonical) (ht : operandTier ws ≤ e.tier)
    (hop : op.lhsTier ≤ e.tier) :
    WaitingSound (.binary op (Partial.closeFor op ws e).2 0 :: (Partial.closeFor op ws e).1) := by
  induction ws generalizing e with
  | nil => exact ⟨he, hop, op.one_le_tier, trivial⟩
  | cons w ws ih =>
      rw [Partial.closeFor]
      by_cases hy : w.yieldsTo op = true
      · rw [if_pos hy]
        obtain ⟨hc, hct, hws⟩ := canonical_close hw he ht
        refine ih _ hws hc hct ?_
        cases w with
        | unary => exact lhsTier_le_unaryTier op
        | binary o lhs n => exact (yieldsTo_binary o op lhs n).mp hy
      · rw [if_neg hy]
        refine ⟨he, hop, ?_, hw⟩
        -- what does not yield is a binary operator that binds less tightly
        cases w with
        | unary => exact absurd rfl hy
        | binary o lhs n => exact (rhsTier_le_iff o op).mpr (mt (yieldsTo_binary o op lhs n).mpr hy)

/-- An operator that begins to wait has a sound left operand. -/
theorem extend_sound {p : Partial} {op : BinaryOp} {e : Expr} {n : Nat}
    (hw : WaitingSound p.waiting) (he : e.Canonical) (ht : callTier ≤ e.tier) :
    WaitingSound (p.extend op e n).waiting :=
  closeFor_sound op p.waiting e hw he (operandTier_le_of_call ht)
    (Nat.le_trans (lhsTier_le_unaryTier op) (Nat.le_of_succ_le ht))

/-- Sound operators closed over a canonical operand are canonical. -/
theorem canonical_foldl_close {ws : List Waiting} {e : Expr}
    (hw : WaitingSound ws) (he : e.Canonical) (ht : operandTier ws ≤ e.tier) :
    (ws.foldl (fun e w => w.close e) e).Canonical := by
  induction ws generalizing e with
  | nil => exact he
  | cons w ws ih =>
      obtain ⟨hc, hct, hws⟩ := canonical_close hw he ht
      exact ih hws hc hct

theorem canonical_foldl_define (targets : List (String × Nat)) {e : Expr} (he : e.Canonical) :
    (targets.foldl (fun e target => Expr.define target.1 e target.2) e).Canonical := by
  induction targets generalizing e with
  | nil => exact he
  | cons target targets ih => exact ih he

/-- A finished expression is canonical. -/
theorem canonical_finish {p : Partial} {e : Expr}
    (hw : WaitingSound p.waiting) (he : e.Canonical) (ht : callTier ≤ e.tier) :
    (p.finish e).Canonical :=
  canonical_foldl_define p.targets (canonical_foldl_close hw he (operandTier_le_of_call ht))

/-! ## One token -/

/-- The tokens spell what stands in front of an expression in progress and
    then the slots `ss` of its last operand, and all of it is canonical. -/
structure Inside (ts : List Token) (place : Place) (p : Partial) (ss : List Slot) : Prop where
  sound : place.Sound
  waiting : WaitingSound p.waiting
  follows : Follows place.before (p.slots ++ ss)
  spells : Spells ts (place.slots ++ (p.slots ++ ss))

/-- The tokens spell the state, and the state is canonical. -/
def Reads (ts : List Token) : State → Prop
  | .idle => ts = []
  | .operand place p => Inside ts place p []
  | .operator place p e => Inside ts place p e.slots ∧ e.Canonical ∧ callTier ≤ e.tier
  | .gap g place p => Inside ts place p g.slots ∧ g.Sound

section

variable {ts : List Token} {place : Place} {p : Partial} {ss : List Slot} {t : Token}

/-- One more token in one more slot. -/
theorem Inside.token {s : Slot} (h : Inside ts place p ss) (ht : s.Fits t) :
    Inside (ts ++ [t]) place p (ss ++ [s]) where
  sound := h.sound
  waiting := h.waiting
  follows := by
    rw [← List.append_assoc]
    exact h.follows.append _
  spells := by
    rw [← List.append_assoc p.slots, ← List.append_assoc place.slots]
    exact List.rel_append h.spells (.cons ht .nil)

/-- An expression in progress begins inside a construct. -/
theorem Inside.enter {a : Around} (h : Inside ts place p a.slots) (ha : a.Sound)
    (hb : a.before = []) : Inside ts (place.enter a p) {} [] where
  sound := (place.sound_enter a p).mpr ⟨h.sound, ha, h.waiting, h.follows⟩
  waiting := trivial
  follows := by
    show Follows a.before _
    rw [hb]
    exact follows_nil _
  spells := by
    rw [Place.slots_enter]
    exact (List.append_nil _).symm ▸ h.spells

/-- The slot that a token fills when it names a node. -/
theorem fits_itself (t : Token) : (Slot.naming t.kind t.line).Fits t :=
  Slot.fits_naming.mpr ⟨rfl, rfl⟩

/-- A token that goes on with nothing begins the next expression. -/
theorem Inside.next (hp : place.Sound) (hs : Spells ts place.slots)
    (hj : t.kind.joins = false) :
    Inside (ts ++ [t]) place {} [.naming t.kind t.line] where
  sound := hp
  waiting := trivial
  follows := fun _ => ⟨_, rfl, hj⟩
  spells := List.rel_append hs (.cons (fits_itself t) .nil)

/-- What a token does where an operand is due: it is one, it waits for one,
    or it opens a construct. -/
inductive Opened (place : Place) (p : Partial) (t : Token) : State → Prop
  | operand (e : Expr) (hs : e.slots = [.naming t.kind t.line]) (he : e.Canonical)
      (ht : callTier ≤ e.tier) : Opened place p t (.operator place (p.startAt t) e)
  | unary (op : UnaryOp) (hk : t.kind = op.kind) :
      Opened place p t (.operand place ((p.startAt t).wait (.unary op t.line)))
  | enter (a : Around) (hs : a.slots = [.naming t.kind t.line]) (ha : a.Sound)
      (hb : a.before = []) : Opened place p t (.operand (place.enter a (p.startAt t)) {})
  | gap (g : Gap) (hs : g.slots = [.naming t.kind t.line]) (hg : g.Sound) :
      Opened place p t (.gap g place (p.startAt t))

/-- What the reader does where an operand is due. -/
theorem opened_of_readOperand {s : State} (h : readOperand place p t = .ok s) :
    Opened place p t s := by
  obtain ⟨kind, lexeme, n⟩ := t
  have atom : callTier ≤ primaryTier := Nat.le_succ _
  simp only [readOperand] at h
  split at h
  case h_13 => exact nomatch h
  all_goals obtain rfl := Except.ok.inj h
  case h_1 => exact .operand _ rfl trivial atom
  case h_2 => exact .operand _ rfl trivial atom
  case h_3 => exact .operand _ rfl trivial atom
  case h_4 => exact .operand _ rfl trivial atom
  case h_5 => exact .operand _ rfl trivial atom
  case h_6 => exact .operand _ rfl trivial atom
  case h_7 => exact .unary .not rfl
  case h_8 => exact .unary .negate rfl
  case h_9 => exact .enter (.group n) rfl trivial rfl
  case h_10 => exact .enter (.test n) rfl trivial rfl
  case h_11 => exact .gap (.firstItem n) rfl trivial
  case h_12 => exact .gap (.firstParam n) rfl trivial

/-- Reading a token where an operand is due. -/
theorem reads_readOperand {s : State}
    (h : Inside (ts ++ [t]) place p [.naming t.kind t.line])
    (hr : readOperand place p t = .ok s) : Reads (ts ++ [t]) s := by
  -- remembering the first token changes nothing that is read
  have h' : Inside (ts ++ [t]) place (p.startAt t) [.naming t.kind t.line] :=
    ⟨h.sound, h.waiting, h.follows, h.spells⟩
  cases opened_of_readOperand hr with
  | operand e hs he ht => exact ⟨hs ▸ h', he, ht⟩
  | unary op hk =>
      have hslots : ((p.startAt t).wait (.unary op t.line)).slots ++ []
          = p.slots ++ [.naming t.kind t.line] := by
        rw [hk, List.append_nil]
        exact (List.append_assoc ..).symm
      exact ⟨h.sound, h.waiting, hslots ▸ h.follows, hslots ▸ h.spells⟩
  | enter a hs ha hb => exact (hs ▸ h' : Inside _ _ _ a.slots).enter ha hb
  | gap g hs hg => exact ⟨hs ▸ h', hg⟩

/-! ## The token behind an expression -/

/-- What a token does behind a finished expression inside a construct: it
    closes the construct, goes on inside it, or begins the next expression of
    a sequence. -/
inductive Taken (up : Place) (outer : Partial) (a : Around) (e : Expr) (t : Token) : State → Prop
  | close (c : Expr) (slot : Slot) (ht : slot.Fits t)
      (hs : c.slots = a.slots ++ e.slots ++ [slot]) (hc : c.Canonical)
      (htier : callTier ≤ c.tier) : Taken up outer a e t (.operator up outer c)
  | enter (b : Around) (slot : Slot) (ht : slot.Fits t)
      (hs : b.slots = a.slots ++ e.slots ++ [slot]) (hb : b.Sound) (hbefore : b.before = []) :
      Taken up outer a e t (.operand (up.enter b outer) {})
  | gap (g : Gap) (slot : Slot) (ht : slot.Fits t)
      (hs : g.slots = a.slots ++ e.slots ++ [slot]) (hg : g.Sound) :
      Taken up outer a e t (.gap g up outer)
  | next (b : Around) (s : State) (hs : b.slots = a.slots ++ e.slots) (hb : b.Sound)
      (h : readOperand (up.enter b outer) {} t = .ok s) : Taken up outer a e t s

/-- What the reader does behind an expression inside a construct. -/
theorem taken_of_readAfter {around : List (Around × Partial)} {finished : List Expr}
    {outer : Partial} {a : Around} {e : Expr} {s : State} (ha : a.Sound) (he : e.Canonical)
    (hf : Follows a.before e.slots)
    (h : readAfter ⟨(a, outer) :: around, finished⟩ e t = .ok s) :
    Taken ⟨around, finished⟩ outer a e t s := by
  have block : ∀ items : List Expr, (e :: items).reverse ≠ [] := by simp
  simp only [readAfter] at h
  split at h
  case h_2 => exact nomatch h
  case h_5 => exact nomatch h
  case h_8 => exact nomatch h
  case h_10 => exact nomatch h
  -- the next expression of a sequence
  case h_12 =>
      refine .next _ _ ?_ ?_ h
      · simp [Around.slots, slotsSteps_concat]
      · exact ⟨ha.1, canonical_snoc ha.2 he hf⟩
  case h_14 =>
      refine .next _ _ ?_ ?_ h
      · simp [Around.slots, slotsSteps_concat]
      · exact ⟨ha.1, ha.2.1, canonical_snoc ha.2.2 he hf⟩
  case h_16 =>
      refine .next _ _ ?_ ?_ h
      · simp [Around.slots, slotsSteps_concat]
      · exact canonical_snoc ha he hf
  all_goals obtain rfl := Except.ok.inj h
  -- groups, lists and arguments
  case h_1 ht =>
      exact .close _ _ (Slot.fits_plain.mpr ht) rfl he (Nat.le_succ _)
  case h_3 ht =>
      refine .enter _ _ (Slot.fits_plain.mpr ht) ?_ (List.forall_mem_cons.mpr ⟨he, ha⟩) rfl
      simp [Around.slots, itemSlots]
  case h_4 ht =>
      refine .close _ _ (Slot.fits_plain.mpr ht) ?_ ?_ (Nat.le_succ _)
      · simp [Expr.slots, Around.slots, slotsItems_concat]
      · exact canonicalAll_reverse (List.forall_mem_cons.mpr ⟨he, ha⟩)
  case h_6 ht =>
      refine .enter _ _ (Slot.fits_plain.mpr ht) ?_
        ⟨ha.1, ha.2.1, List.forall_mem_cons.mpr ⟨he, ha.2.2⟩⟩ rfl
      simp [Around.slots, itemSlots]
  case h_7 ht =>
      refine .close _ _ (Slot.fits_plain.mpr ht) ?_ ?_ (Nat.le_refl _)
      · simp [Expr.slots, Around.slots, slotsItems_concat]
      · exact ⟨ha.1, ha.2.1, canonicalAll_reverse (List.forall_mem_cons.mpr ⟨he, ha.2.2⟩)⟩
  -- tests, branches and bodies
  case h_9 ht =>
      refine .enter _ _ (Slot.fits_plain.mpr ht) ?_ ⟨he, ?_⟩ rfl
      · simp [Around.slots, Expr.slotsSteps]
      · simp [Program.Canonical, Expr.CanonicalAll, Separated]
  case h_11 ht =>
      refine .gap _ _ (Slot.fits_plain.mpr ht) ?_ ⟨ha.1, block _, canonical_snoc ha.2 he hf⟩
      simp [Gap.slots, Around.slots, slotsSteps_concat]
  case h_13 ht =>
      refine .close _ _ (Slot.fits_plain.mpr ht) ?_ ?_ (Nat.le_succ _)
      · simp [Expr.slots, Around.slots, slotsSteps_concat]
      · exact ⟨ha.1, ha.2.1, block _, canonical_snoc ha.2.2 he hf⟩
  case h_15 ht =>
      refine .close _ _ (Slot.fits_plain.mpr ht) ?_ ?_ (Nat.le_succ _)
      · simp [Expr.slots, Around.slots, slotsSteps_concat]
      · exact ⟨block _, canonical_snoc ha he hf⟩

/-- Reading the token behind a finished expression. -/
theorem reads_readAfter {e : Expr} {s : State} (h : Inside ts place {} e.slots)
    (he : e.Canonical) (hj : t.kind.joins = false) (hr : readAfter place e t = .ok s) :
    Reads (ts ++ [t]) s := by
  obtain ⟨around, finished⟩ := place
  have hs := h.spells
  cases around with
  | nil =>
      refine reads_readOperand (Inside.next ?_ ?_ hj) hr
      · exact ⟨canonical_snoc h.sound.1 he h.follows, trivial⟩
      · simpa [Place.slots, Partial.slots, aroundSlots, slotsSteps_concat, targetSlots,
          waitingSlots] using hs
  | cons frame around =>
      obtain ⟨a, outer⟩ := frame
      obtain ⟨hup, ha, hw, hf⟩ := (Place.sound_enter ⟨around, finished⟩ a outer).mp h.sound
      have hin : Inside ts ⟨around, finished⟩ outer (a.slots ++ e.slots) := by
        refine ⟨hup, hw, ?_, ?_⟩
        · rw [← List.append_assoc]
          exact hf.append _
        · rw [← List.append_assoc outer.slots, ← List.append_assoc, ← Place.slots_enter]
          exact hs
      cases taken_of_readAfter ha he h.follows hr with
      | close c slot ht hs hc htier => exact ⟨hs ▸ hin.token ht, hc, htier⟩
      | enter b slot ht hs hb hbefore =>
          exact (hs ▸ hin.token ht : Inside _ _ _ b.slots).enter hb hbefore
      | gap g slot ht hs hg => exact ⟨hs ▸ hin.token ht, hg⟩
      | next b s hb hsound hr =>
          rw [← hb] at hin
          refine reads_readOperand (Inside.next ?_ ?_ hj) hr
          · exact (Place.sound_enter _ b outer).mpr ⟨hup, hsound, hw, hin.follows⟩
          · rw [Place.slots_enter]
            exact hin.spells

/-! ## Every token -/

/-- The first slot decides what may follow, whether or not it names a node. -/
theorem Follows.unname {before : List Expr} {ss : List Slot} {k : TokenKind} {n : Nat}
    (h : Follows before (ss ++ [.naming k n])) (more : List Slot) :
    Follows before (ss ++ .plain k :: more) := by
  intro hb
  obtain ⟨s, hs, hj⟩ := h hb
  cases ss with
  | nil =>
      obtain rfl := Option.some.inj hs
      exact ⟨_, rfl, hj⟩
  | cons s' ss => exact ⟨s, hs, hj⟩

/-- A name in front of an equals sign is the target of a definition. -/
theorem reads_readEquals {e : Expr} {s : State} (h : Inside ts place p e.slots)
    (ht : t.kind = .mark .equal) (hr : readEquals place p e t = .ok s) :
    Reads (ts ++ [t]) s := by
  obtain ⟨targets, waiting, start⟩ := p
  simp only [readEquals] at hr
  split at hr
  case h_2 => exact nomatch hr
  case h_1 _ name n =>
      obtain rfl := Except.ok.inj hr
      have hf : Follows place.before ((targetSlots targets ++ [])
          ++ [.naming (.identifier name) n]) := h.follows
      have hs : Spells ts (place.slots ++ ((targetSlots targets ++ [])
          ++ [.naming (.identifier name) n])) := h.spells
      rw [List.append_nil] at hf hs
      -- the token of the name is the last one read; its slot no longer names a node
      rw [← List.append_assoc, spells_append] at hs
      obtain ⟨us, vs, rfl, hus, hvs⟩ := hs
      obtain ⟨u, rfl, hu⟩ : ∃ u, vs = [u] ∧ u.kind = .identifier name := by
        cases hvs with
        | cons hu hnil =>
            cases hnil
            exact ⟨_, rfl, (Slot.fits_naming.mp hu).1⟩
      have hslots : (Partial.slots { targets := (name, t.line) :: targets }) ++ []
          = targetSlots targets ++ [.plain (.identifier name), .naming (.mark .equal) t.line] := by
        simp [Partial.slots, targetSlots, waitingSlots]
      refine ⟨h.sound, trivial, ?_, ?_⟩
      · rw [hslots]
        exact hf.unname _
      · rw [hslots, ← List.append_assoc, List.append_assoc us]
        exact List.rel_append hus (.cons (Slot.fits_plain.mpr hu)
          (.cons (Slot.fits_naming.mpr ⟨ht, rfl⟩) .nil))

/-- Reading a token behind an operand. -/
theorem reads_readOperator {e : Expr} {s : State} (h : Inside ts place p e.slots)
    (he : e.Canonical) (htier : callTier ≤ e.tier) (hr : readOperator place p e t = .ok s) :
    Reads (ts ++ [t]) s := by
  simp only [readOperator] at hr
  split at hr
  · next ht =>
      obtain rfl := Except.ok.inj hr
      exact ⟨h.token (Slot.fits_naming.mpr ⟨ht, rfl⟩), he, htier⟩
  · next ht => exact reads_readEquals h ht hr
  · next hparen _ =>
      split at hr
      · next op hop =>
          obtain rfl := Except.ok.inj hr
          have h' := h.token (s := .naming op.kind t.line)
            (Slot.fits_naming.mpr ⟨TokenKind.binaryOp?_eq_some_iff.mp hop, rfl⟩)
          have hslots : (p.extend op e t.line).slots ++ []
              = p.slots ++ (e.slots ++ [.naming op.kind t.line]) := by
            rw [List.append_nil, slots_extend]
          exact ⟨h.sound, extend_sound h.waiting he htier, hslots ▸ h'.follows,
            hslots ▸ h'.spells⟩
      · next hop =>
          have hslots : ({} : Partial).slots ++ (p.finish e).slots = p.slots ++ e.slots :=
            slots_finish p e
          refine reads_readAfter ⟨h.sound, trivial, hslots ▸ h.follows, hslots ▸ h.spells⟩ ?_ ?_ hr
          · exact canonical_finish h.waiting he htier
          · exact TokenKind.joins_eq_false hop hparen

/-- Reading a token at a point inside a construct. -/
theorem reads_readGap {g : Gap} {s : State} (h : Inside ts place p g.slots) (hg : g.Sound)
    (hr : readGap g place p t = .ok s) : Reads (ts ++ [t]) s := by
  -- the first item of a list or of arguments
  have first : ∀ a : Around, a.slots = g.slots → a.Sound → a.before = [] →
      readOperand (place.enter a p) {} t = .ok s → Reads (ts ++ [t]) s := by
    intro a hs ha hb hr
    have hin : Inside ts place p a.slots := hs ▸ h
    exact reads_readOperand ((hin.enter ha hb).token (fits_itself t)) hr
  have empty : Program.Canonical [] := ⟨trivial, fun e he => nomatch he⟩
  simp only [readGap] at hr
  split at hr
  case h_2 => exact first (.list [] _) rfl (fun e he => nomatch he) rfl hr
  case h_4 => exact first (.args _ [] _) rfl ⟨hg.1, hg.2, fun e he => nomatch he⟩ rfl hr
  case h_6 => exact nomatch hr
  case h_8 => exact nomatch hr
  case h_11 => exact nomatch hr
  case h_13 => exact nomatch hr
  case h_16 => exact nomatch hr
  all_goals obtain rfl := Except.ok.inj hr
  case h_1 ht => exact ⟨h.token (Slot.fits_plain.mpr ht), trivial, Nat.le_succ _⟩
  case h_3 ht =>
      refine ⟨?_, ⟨hg.1, hg.2, trivial⟩, Nat.le_refl _⟩
      simpa [Gap.slots, Expr.slots, Expr.slotsItems] using h.token (Slot.fits_plain.mpr ht)
  case h_5 ht =>
      refine ⟨?_, hg⟩
      simpa [Gap.slots] using h.token (Slot.fits_plain.mpr ht)
  case h_7 ht =>
      refine Inside.enter ?_ ⟨hg.1, hg.2, empty⟩ rfl
      simpa [Gap.slots, Around.slots, Expr.slotsSteps] using h.token (Slot.fits_plain.mpr ht)
  case h_9 ht =>
      refine Inside.enter ?_ empty rfl
      simpa [Gap.slots, Around.slots, Expr.slotsSteps, slotsNames]
        using h.token (Slot.fits_plain.mpr ht)
  case h_10 ht => exact ⟨h.token (Slot.fits_plain.mpr ht), List.cons_ne_nil _ _⟩
  case h_12 ht =>
      refine ⟨?_, List.cons_ne_nil _ _⟩
      simpa [Gap.slots, slotsNames_concat] using h.token (Slot.fits_plain.mpr ht)
  case h_14 params n ht =>
      refine ⟨?_, trivial⟩
      obtain ⟨q, qs, rfl⟩ := List.exists_cons_of_ne_nil hg
      simpa [Gap.slots, slotsNames_concat, nameSlots] using h.token (Slot.fits_plain.mpr ht)
  case h_15 ht =>
      refine Inside.enter ?_ empty rfl
      simpa [Gap.slots, Around.slots, Expr.slotsSteps] using h.token (Slot.fits_plain.mpr ht)

/-- One token keeps the state spelled by the tokens read. -/
theorem Reads.step {s s' : State} (h : Reads ts s) (hr : s.step t = .ok s') :
    Reads (ts ++ [t]) s' := by
  cases s with
  | idle =>
      obtain rfl : ts = [] := h
      have start : Inside [] {} {} [] :=
        ⟨⟨⟨trivial, fun e he => nomatch he⟩, trivial⟩, trivial, follows_nil _, .nil⟩
      exact reads_readOperand (start.token (fits_itself t)) hr
  | operand place p => exact reads_readOperand (Inside.token h (fits_itself t)) hr
  | operator place p e => exact reads_readOperator h.1 h.2.1 h.2.2 hr
  | gap g place p => exact reads_readGap h.1 h.2 hr

end

/-! ## Whole runs -/

/-- A complete state is a canonical program that the tokens spell. -/
theorem Reads.complete {ts : List Token} {s : State} {program : Program} (h : Reads ts s)
    (hc : s.complete? = some program) : program.Canonical ∧ Spells ts program.slots := by
  unfold State.complete? at hc
  split at hc
  · obtain rfl := Option.some.inj hc
    obtain rfl : ts = [] := h
    exact ⟨⟨trivial, fun e he => nomatch he⟩, .nil⟩
  · next finished p e =>
      obtain rfl := Option.some.inj hc
      obtain ⟨h, he, htier⟩ := h
      have hslots := slots_finish p e
      constructor
      · refine canonical_snoc h.sound.1 ?_ ?_
        · exact canonical_finish h.waiting he htier
        · rw [hslots]
          exact h.follows
      · rw [Program.slots, List.reverse_cons, slotsSteps_concat, hslots]
        simpa [Place.slots, aroundSlots] using h.spells
  · exact nomatch hc

/-- No state goes on with the end of the input. -/
theorem step_end {s s' : State} {t : Token} (ht : t.isEnd = true) : s.step t ≠ .ok s' := by
  obtain ⟨kind, lexeme, n⟩ := t
  have hk : kind = .endOfInput := by
    unfold Token.isEnd at ht
    split at ht
    · assumption
    · exact nomatch ht
  subst hk
  intro h
  cases s with
  | idle => exact nomatch h
  | operand place p => exact nomatch h
  | operator place p e =>
      obtain ⟨around, finished⟩ := place
      match around with
      | [] => exact nomatch h
      | (a, outer) :: around => cases a <;> exact nomatch h
  | gap g place p => cases g <;> exact nomatch h

/-- A run that goes on from a state and succeeds gives a canonical program that
    the tokens spell. -/
theorem Reads.run {ts us : List Token} {last : Token} {s : State} {program : Program}
    (h : Reads us s) (hts : ∀ t ∈ ts, t.isEnd = false) (hlast : last.isEnd = true)
    (hr : s.run (ts ++ [last]) = .ok program) :
    program.Canonical ∧ Spells (us ++ ts) program.slots := by
  induction ts generalizing us s with
  | nil =>
      rw [List.nil_append, State.run, if_pos hlast] at hr
      split at hr
      · next p hc =>
          obtain rfl := Except.ok.inj hr
          rw [List.append_nil]
          exact h.complete hc
      · split at hr
        · next s' hs => exact absurd hs (step_end hlast)
        · exact nomatch hr
  | cons t ts ih =>
      obtain ⟨ht, hts⟩ := List.forall_mem_cons.mp hts
      rw [List.cons_append, State.run, if_neg (by rw [ht]; exact Bool.false_ne_true)] at hr
      simp only at hr
      split at hr
      · next s' hs =>
          have hrest := ih (h.step hs) hts hr
          rwa [List.append_assoc] at hrest
      · exact nomatch hr

/-- **Only canonical programs are read**, and only from their own tokens. -/
theorem canonical_of_run {ts : List Token} {last : Token} {program : Program}
    (hts : ∀ t ∈ ts, t.isEnd = false) (hlast : last.isEnd = true)
    (hr : State.idle.run (ts ++ [last]) = .ok program) :
    program.Canonical ∧ Spells ts program.slots := by
  have start : Reads [] .idle := rfl
  exact start.run hts hlast hr

end Scriptlet.Reader
