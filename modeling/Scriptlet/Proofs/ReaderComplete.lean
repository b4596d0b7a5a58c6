import Scriptlet.Proofs.ReaderInvariant

/-! # Every canonical program is read

    The reader is followed over the written-out form of a tree, construct by
    construct.  Behind the last token of an operand the operators on its right
    edge still wait (`spine`); they close when the next token shows that the
    operand goes no further.

    Together with `Reader.Reads.run` this makes the reader accept exactly the
    canonical programs. -/

namespace Scriptlet.Reader

/-! ## Several tokens -/

/-- The tokens lead from one state to another. -/
def Steps : State → List Token → State → Prop
  | s, [], s' => s = s'
  | s, t :: ts, s' => ∃ next, s.step t = .ok next ∧ Steps next ts s'

theorem Steps.one {s s' : State} {t : Token} (h : s.step t = .ok s') : Steps s [t] s' :=
  ⟨s', h, rfl⟩

/-- Tokens are read one after the other. -/
theorem Steps.append {s m s' : State} {ts us : List Token} (h : Steps s ts m)
    (h' : Steps m us s') : Steps s (ts ++ us) s' := by
  induction ts generalizing s with
  | nil =>
      obtain rfl : s = m := h
      exact h'
  | cons t ts ih =>
      obtain ⟨next, hs, h⟩ := h
      exact ⟨next, hs, ih h⟩

/-- Two states that agree on the first token agree on all of them. -/
theorem Steps.congr {s m s' : State} {t : Token} {ts : List Token} (h : Steps s (t :: ts) s')
    (hs : m.step t = s.step t) : Steps m (t :: ts) s' := by
  obtain ⟨next, hn, h⟩ := h
  exact ⟨next, hs.trans hn, h⟩

/-- A run goes through the states that the tokens lead to. -/
theorem Steps.run {s s' : State} {ts us : List Token} (h : Steps s ts s')
    (hts : ∀ t ∈ ts, t.isEnd = false) : s.run (ts ++ us) = s'.run us := by
  induction ts generalizing s with
  | nil =>
      obtain rfl : s = s' := h
      rfl
  | cons t ts ih =>
      obtain ⟨next, hs, h⟩ := h
      obtain ⟨ht, hts⟩ := List.forall_mem_cons.mp hts
      rw [List.cons_append, State.run, if_neg (by rw [ht]; exact Bool.false_ne_true), hs]
      exact ih h hts

/-- The token in a slot that names a node. -/
theorem spells_naming {ts : List Token} {k : TokenKind} {n : Nat} {ss : List Slot}
    (h : Spells ts (.naming k n :: ss)) :
    ∃ lexeme us, ts = ⟨k, lexeme, n⟩ :: us ∧ Spells us ss := by
  cases h with
  | cons ht hus =>
      obtain ⟨rfl, rfl⟩ := Slot.fits_naming.mp ht
      exact ⟨_, _, rfl, hus⟩

/-- The token in a slot that names no node. -/
theorem spells_plain {ts : List Token} {k : TokenKind} {ss : List Slot}
    (h : Spells ts (.plain k :: ss)) :
    ∃ lexeme n us, ts = ⟨k, lexeme, n⟩ :: us ∧ Spells us ss := by
  cases h with
  | cons ht hus =>
      obtain rfl := Slot.fits_plain.mp ht
      exact ⟨_, _, _, rfl, hus⟩

/-- The token in the last slot. -/
theorem spells_last {ts : List Token} {k : TokenKind} {ss : List Slot}
    (h : Spells ts (ss ++ [.plain k])) :
    ∃ lexeme n us, ts = us ++ [⟨k, lexeme, n⟩] ∧ Spells us ss := by
  obtain ⟨us, vs, rfl, hus, hvs⟩ := spells_append.mp h
  obtain ⟨lexeme, n, ws, rfl, hws⟩ := spells_plain hvs
  cases hws
  exact ⟨lexeme, n, us, rfl, hus⟩

/-! ## The right edge of an operand -/

/-- The operators on the right edge of an operand, innermost first, and the
    operand behind the last of them. -/
def spine : Expr → List Waiting × Expr
  | .unary op operand n => ((spine operand).1 ++ [.unary op n], (spine operand).2)
  | .binary op lhs rhs n => ((spine rhs).1 ++ [.binary op lhs n], (spine rhs).2)
  | e => ([], e)

/-- An operand is its right edge, closed again. -/
theorem close_spine (e : Expr) :
    (spine e).1.foldl (fun e w => w.close e) (spine e).2 = e := by
  fun_induction spine e with
  | case1 op operand n ih => rw [List.foldl_append, ih]; rfl
  | case2 op lhs rhs n ih => rw [List.foldl_append, ih]; rfl
  | case3 e => rfl

/-- Calls and primaries have no right edge. -/
theorem spine_of_callTier_le {e : Expr} (h : callTier ≤ e.tier) : spine e = ([], e) := by
  unfold spine
  split
  · exact absurd h (Nat.not_succ_le_self _)
  · next op lhs rhs n => exact absurd (Nat.le_of_succ_le h) (Nat.not_le.mpr op.tier_lt_unaryTier)
  · rfl

theorem tier_le_rhsTier (op : BinaryOp) : op.tier ≤ op.rhsTier := by
  unfold BinaryOp.rhsTier
  split <;> omega

/-- An operator that may stand behind an operand closes its right edge. -/
theorem closeFor_spine (op : BinaryOp) (e : Expr) (ws : List Waiting) (he : e.Canonical)
    (ht : op.lhsTier ≤ e.tier) :
    Partial.closeFor op ((spine e).1 ++ ws) (spine e).2 = Partial.closeFor op ws e := by
  fun_induction spine e generalizing ws with
  | case1 o operand n ih =>
      obtain ⟨hc, hct⟩ := he
      rw [List.append_assoc, ih _ hc (Nat.le_trans (lhsTier_le_unaryTier op) hct)]
      rfl
  | case2 o lhs rhs n ih =>
      obtain ⟨-, hr, -, hrt⟩ := he
      -- the tiers go up along the right edge, so `op` closes all of it
      have hle : op.lhsTier ≤ rhs.tier :=
        Nat.le_trans ht (Nat.le_trans (tier_le_rhsTier o) hrt)
      rw [List.append_assoc, ih _ hr hle]
      show Partial.closeFor op (.binary o lhs n :: ws) rhs = _
      rw [Partial.closeFor, if_pos ((yieldsTo_binary o op lhs n).mpr ht)]
      rfl
  | case3 e => rfl

/-- An operator that may be the operand of what waits closes none of it. -/
theorem closeFor_of_operandTier_le {op : BinaryOp} {ws : List Waiting} {e : Expr}
    (h : operandTier ws ≤ op.tier) : Partial.closeFor op ws e = (ws, e) := by
  match ws with
  | [] => rfl
  | .unary .. :: _ => exact absurd h (Nat.not_le.mpr op.tier_lt_unaryTier)
  | .binary o lhs n :: ws =>
      rw [Partial.closeFor, if_neg]
      rw [yieldsTo_binary]
      exact (rhsTier_le_iff o op).mp h

/-! ## Operands -/

/-- The reader goes over an operand wherever its tier allows it, and leaves
    its right edge open. -/
def ReadsOperand (e : Expr) : Prop :=
  ∀ (place : Place) (p : Partial) (ts : List Token), Spells ts e.slots →
    operandTier p.waiting ≤ e.tier →
    ∃ start, Steps (.operand place p) ts
      (.operator place ⟨p.targets, (spine e).1 ++ p.waiting, start⟩ (spine e).2)

/-- The reader goes over a whole expression, perhaps a definition, and is
    left with what finishes to it. -/
def ReadsWhole (e : Expr) : Prop :=
  ∀ (place : Place) (targets : List (String × Nat)) (start : Option Token) (ts : List Token),
    Spells ts e.slots →
    ∃ p last, Steps (.operand place ⟨targets, [], start⟩) ts (.operator place p last)
      ∧ p.finish last = targets.foldl (fun e target => .define target.1 e target.2) e

/-- An operand that is no definition is read as a whole expression, too. -/
theorem ReadsOperand.whole {e : Expr} (h : ReadsOperand e) (ht : 1 ≤ e.tier) : ReadsWhole e := by
  intro place targets start ts hts
  obtain ⟨start', hs⟩ := h place ⟨targets, [], start⟩ ts hts ht
  refine ⟨_, _, hs, ?_⟩
  rw [Partial.finish, List.append_nil, close_spine]

/-- Reading an expression that begins a place of its own. -/
theorem ReadsWhole.alone {e : Expr} (h : ReadsWhole e) (place : Place) {ts : List Token}
    (hts : Spells ts e.slots) :
    ∃ p last, Steps (.operand place {}) ts (.operator place p last) ∧ p.finish last = e :=
  h place [] none ts hts

/-- The token of a binary operator takes the expression in front as its left operand. -/
theorem readOperator_binary (place : Place) (p : Partial) (e : Expr) (op : BinaryOp)
    (lexeme : String) (n : Nat) :
    readOperator place p e ⟨op.kind, lexeme, n⟩ = .ok (.operand place (p.extend op e n)) := by
  cases op <;> rfl

/-- Literals are single tokens. -/
theorem readsOperand_literal (value : Literal) (n : Nat) : ReadsOperand (.literal value n) := by
  intro place p ts hts _
  obtain ⟨lexeme, us, rfl, hus⟩ := spells_naming hts
  cases hus
  refine ⟨(p.startAt ⟨value.kind, lexeme, n⟩).start?, Steps.one ?_⟩
  match value with
  | .nil => rfl
  | .bool true => rfl
  | .bool false => rfl
  | .number x => rfl
  | .string s => rfl

theorem readsOperand_symbol (name : String) (n : Nat) : ReadsOperand (.symbol name n) := by
  intro place p ts hts _
  obtain ⟨lexeme, us, rfl, hus⟩ := spells_naming hts
  cases hus
  exact ⟨_, Steps.one rfl⟩

theorem readsOperand_unary {op : UnaryOp} {operand : Expr} {n : Nat} (h : ReadsOperand operand)
    (ht : unaryTier ≤ operand.tier) : ReadsOperand (.unary op operand n) := by
  intro place p ts hts _
  obtain ⟨lexeme, us, rfl, hus⟩ := spells_naming hts
  obtain ⟨start, hs⟩ := h place ((p.startAt ⟨op.kind, lexeme, n⟩).wait (.unary op n)) us hus ht
  refine ⟨start, .operand place ((p.startAt ⟨op.kind, lexeme, n⟩).wait (.unary op n)), ?_, ?_⟩
  · cases op <;> rfl
  · rw [spine, List.append_assoc]
    exact hs

theorem tier_le_lhsTier (op : BinaryOp) : op.tier ≤ op.lhsTier := by
  unfold BinaryOp.lhsTier
  split <;> omega

/-- Both operands and the operator between them, at tiers that leave the tree as it is. -/
theorem readsOperand_binary {op : BinaryOp} {lhs rhs : Expr} {n : Nat} (hl : ReadsOperand lhs)
    (hr : ReadsOperand rhs) (hc : lhs.Canonical) (hlt : op.lhsTier ≤ lhs.tier)
    (hrt : op.rhsTier ≤ rhs.tier) : ReadsOperand (.binary op lhs rhs n) := by
  intro place p ts hts ht
  obtain ⟨us, vs, rfl, hus, hvs⟩ := spells_append.mp hts
  obtain ⟨lexeme, vs', rfl, hvs'⟩ := spells_naming hvs
  have ht : operandTier p.waiting ≤ op.tier := ht
  obtain ⟨start, hs⟩ := hl place p us hus
    (Nat.le_trans ht (Nat.le_trans (tier_le_lhsTier op) hlt))
  obtain ⟨start', hs'⟩ := hr place ⟨p.targets, .binary op lhs n :: p.waiting, start⟩ vs' hvs' hrt
  refine ⟨start', hs.append ⟨.operand place ⟨p.targets, .binary op lhs n :: p.waiting, start⟩,
    ?_, ?_⟩⟩
  · -- the operator closes the right edge of its left operand and nothing else
    have hclose : Partial.closeFor op ((spine lhs).1 ++ p.waiting) (spine lhs).2
        = (p.waiting, lhs) := by
      rw [closeFor_spine op lhs _ hc hlt, closeFor_of_operandTier_le ht]
    rw [State.step, readOperator_binary, Partial.extend, hclose]
  · rw [spine, List.append_assoc]
    exact hs'

/-! ## Sequences -/

/-- The tokens with which an expression can begin. -/
def opens : TokenKind → Bool
  | .number _ | .string _ | .identifier _ => true
  | .keyword .true | .keyword .false | .keyword .nil | .keyword .not | .keyword .ifWord => true
  | .mark .minus | .mark .leftParen | .mark .leftBracket | .mark .backslash => true
  | _ => false

/-- Every expression begins with a token that opens one. -/
theorem slots_opens (e : Expr) : ∃ s ss, e.slots = s :: ss ∧ opens s.kind = true := by
  induction e using Expr.induction with
  | literal value n =>
      refine ⟨_, _, rfl, ?_⟩
      match value with
      | .nil => rfl
      | .bool true => rfl
      | .bool false => rfl
      | .number x => rfl
      | .string s => rfl
  | list items n _ => exact ⟨_, _, rfl, rfl⟩
  | symbol name n => exact ⟨_, _, rfl, rfl⟩
  | define name value n _ => exact ⟨_, _, rfl, rfl⟩
  | group inner n _ => exact ⟨_, _, rfl, rfl⟩
  | unary op operand n _ => exact ⟨_, _, rfl, by cases op <;> rfl⟩
  | binary op lhs rhs n ihl _ =>
      obtain ⟨s, ss, hs, ho⟩ := ihl
      exact ⟨s, _, by rw [Expr.slots, hs]; rfl, ho⟩
  | choice test yes no n _ _ _ => exact ⟨_, _, rfl, rfl⟩
  | function params body n _ => exact ⟨_, _, rfl, rfl⟩
  | call callee args n ih _ =>
      obtain ⟨s, ss, hs, ho⟩ := ih
      exact ⟨s, _, by rw [Expr.slots, hs]; rfl, ho⟩

/-- The first token of an expression. -/
theorem spells_opens {e : Expr} {ts : List Token} {ss : List Slot}
    (h : Spells ts (e.slots ++ ss)) :
    ∃ t us, ts = t :: us ∧ opens t.kind = true ∧ e.joins = t.kind.joins := by
  obtain ⟨s, rest, hs, ho⟩ := slots_opens e
  rw [hs] at h
  cases h with
  | cons ht hus =>
      refine ⟨_, _, rfl, ht.1.symm ▸ ho, ?_⟩
      rw [Expr.joins, hs, ht.1]
      rfl

/-- A token that begins an expression and joins none ends the one in front
    of it. -/
theorem readOperator_of_opens {place : Place} {p : Partial} {e : Expr} {t : Token}
    (ho : opens t.kind = true) (hj : t.kind.joins = false) :
    readOperator place p e t = readAfter place (p.finish e) t := by
  have hop : t.kind.binaryOp? = none := by
    rw [Option.eq_none_iff_forall_ne_some]
    intro op hop
    rw [TokenKind.binaryOp?_eq_some_iff.mp hop] at ho hj
    cases op <;> simp [BinaryOp.kind, opens, TokenKind.joins] at ho hj
  unfold readOperator
  split
  · next hk => rw [hk] at hj; exact nomatch hj
  · next hk => rw [hk] at ho; exact nomatch ho
  · rw [hop]

/-- A sequence of tokens that begins with an expression is read alike from
    all states that read the first token alike. -/
theorem Steps.begin {s s' : State} {place : Place} {e : Expr} {ss : List Slot} {ts : List Token}
    (h : Steps (.operand place {}) ts s') (hts : Spells ts (e.slots ++ ss))
    (hs : ∀ t, opens t.kind = true → s.step t = readOperand place {} t) : Steps s ts s' := by
  obtain ⟨t, us, rfl, ho, -⟩ := spells_opens hts
  exact h.congr (hs t ho)

/-- The reader goes over items separated by commas, in a place where a comma
    keeps the item in front of it. -/
theorem reads_items {place : List Expr → Place}
    (hcomma : ∀ items e lexeme n,
      readAfter (place items) e ⟨.mark .comma, lexeme, n⟩ = .ok (.operand (place (e :: items)) {}))
    {es : List Expr} (hes : ∀ e ∈ es, ReadsWhole e) (hne : es ≠ []) :
    ∀ (items : List Expr) (ts : List Token), Spells ts (Expr.slotsItems es) →
      ∃ p last items', Steps (.operand (place items) {}) ts (.operator (place items') p last)
        ∧ (p.finish last :: items').reverse = items.reverse ++ es := by
  induction es with
  | nil => exact absurd rfl hne
  | cons e es ih =>
      intro items ts hts
      obtain ⟨he, hes⟩ := List.forall_mem_cons.mp hes
      cases es with
      | nil =>
          obtain ⟨p, last, hs, hf⟩ := he.alone (place items) hts
          exact ⟨p, last, items, hs, by rw [hf, List.reverse_cons]⟩
      | cons f es =>
          obtain ⟨us, vs, rfl, hus, hvs⟩ := spells_append.mp hts
          obtain ⟨lexeme, n, vs', rfl, hvs'⟩ := spells_plain hvs
          obtain ⟨p, last, hs, hf⟩ := he.alone (place items) hus
          obtain ⟨p', last', items', hs', hf'⟩ :=
            ih hes (List.cons_ne_nil _ _) (e :: items) vs' hvs'
          refine ⟨p', last', items', hs.append ⟨_, ?_, hs'⟩, by rw [hf']; simp⟩
          show readAfter (place items) (p.finish last) _ = _
          rw [hf]
          exact hcomma items e lexeme n

/-- The reader goes over expressions that nothing separates, in a place where
    a token that begins an expression keeps the one in front of it. -/
theorem reads_steps {place : List Expr → Place}
    (hnext : ∀ items e t, opens t.kind = true →
      readAfter (place items) e t = readOperand (place (e :: items)) {} t)
    {es : List Expr} (hes : ∀ e ∈ es, ReadsWhole e) (hne : es ≠ []) (hsep : Separated es) :
    ∀ (items : List Expr) (ts : List Token), Spells ts (Expr.slotsSteps es) →
      ∃ p last items', Steps (.operand (place items) {}) ts (.operator (place items') p last)
        ∧ (p.finish last :: items').reverse = items.reverse ++ es := by
  induction es with
  | nil => exact absurd rfl hne
  | cons e es ih =>
      intro items ts hts
      obtain ⟨he, hes⟩ := List.forall_mem_cons.mp hes
      cases es with
      | nil =>
          rw [Expr.slotsSteps, Expr.slotsSteps, List.append_nil] at hts
          obtain ⟨p, last, hs, hf⟩ := he.alone (place items) hts
          exact ⟨p, last, items, hs, by rw [hf, List.reverse_cons]⟩
      | cons f es =>
          obtain ⟨us, vs, rfl, hus, hvs⟩ := spells_append.mp hts
          obtain ⟨p, last, hs, hf⟩ := he.alone (place items) hus
          have hsep' : Separated (f :: es) := fun g hg => hsep g (List.mem_cons_of_mem _ hg)
          obtain ⟨p', last', items', hs', hf'⟩ :=
            ih hes (List.cons_ne_nil _ _) hsep' (e :: items) vs hvs
          obtain ⟨t, vs', rfl, ho, hj⟩ := spells_opens hvs
          refine ⟨p', last', items', hs.append (hs'.congr ?_), by rw [hf']; simp⟩
          -- the first token of the next expression ends the one in front of it
          rw [hsep f (List.mem_cons_self ..)] at hj
          show readOperator (place items) p last t = _
          rw [readOperator_of_opens ho hj.symm, hf]
          exact hnext items e t ho

/-! ## Constructs -/

/-- A closing token behind the last expression of a construct. -/
theorem Steps.close {s s' : State} {place : Place} {p : Partial} {last : Expr}
    {ts : List Token} {t : Token} (h : Steps s ts (.operator place p last))
    (hstep : readOperator place p last t = .ok s') : Steps s (ts ++ [t]) s' :=
  h.append (Steps.one hstep)

theorem readsOperand_group {inner : Expr} {n : Nat} (h : ReadsWhole inner) :
    ReadsOperand (.group inner n) := by
  intro place p ts hts _
  obtain ⟨lexeme, us, rfl, hus⟩ := spells_naming hts
  obtain ⟨lexeme', n', vs, rfl, hvs⟩ := spells_last hus
  let q := p.startAt ⟨.mark .leftParen, lexeme, n⟩
  obtain ⟨p', last, hs, hf⟩ := h.alone (place.enter (.group n) q) hvs
  refine ⟨q.start?, _, rfl, hs.close ?_⟩
  show Except.ok (State.operator place q (.group (p'.finish last) n)) = _
  rw [hf]
  rfl

/-- A token that begins an expression begins the first item of a list. -/
theorem readGap_firstItem {place : Place} {p : Partial} {n : Nat} {t : Token}
    (ho : opens t.kind = true) :
    readGap (.firstItem n) place p t = readOperand (place.enter (.list [] n) p) {} t := by
  obtain ⟨kind, lexeme, m⟩ := t
  cases kind with
  | mark m => cases m <;> first | rfl | simp [opens] at ho
  | _ => rfl

/-- A token that begins an expression begins the first argument of a call. -/
theorem readGap_firstArg {place : Place} {p : Partial} {callee : Expr} {n : Nat} {t : Token}
    (ho : opens t.kind = true) :
    readGap (.firstArg callee n) place p t
      = readOperand (place.enter (.args callee [] n) p) {} t := by
  obtain ⟨kind, lexeme, m⟩ := t
  cases kind with
  | mark m => cases m <;> first | rfl | simp [opens] at ho
  | _ => rfl

theorem slotsItems_cons (e : Expr) (es : List Expr) :
    ∃ ss, Expr.slotsItems (e :: es) = e.slots ++ ss := by
  cases es with
  | nil => exact ⟨[], (List.append_nil _).symm⟩
  | cons f es => exact ⟨_, rfl⟩

/-- Items in brackets, or none. -/
theorem readsOperand_list {items : List Expr} {n : Nat} (h : ∀ e ∈ items, ReadsWhole e) :
    ReadsOperand (.list items n) := by
  intro place p ts hts _
  obtain ⟨lexeme, us, rfl, hus⟩ := spells_naming hts
  obtain ⟨lexeme', n', vs, rfl, hvs⟩ := spells_last hus
  let q := p.startAt ⟨.mark .leftBracket, lexeme, n⟩
  refine ⟨q.start?, .gap (.firstItem n) place q, rfl, ?_⟩
  cases items with
  | nil =>
      cases hvs
      exact Steps.one rfl
  | cons e es =>
      obtain ⟨p', last, items', hs, hf⟩ :=
        @reads_items (fun items => place.enter (.list items n) q)
          (fun _ _ _ _ => rfl) _ h (List.cons_ne_nil _ _) [] vs hvs
      obtain ⟨ss, hss⟩ := slotsItems_cons e es
      refine (hs.begin (hss ▸ hvs) fun t => readGap_firstItem).close ?_
      show Except.ok (State.operator place q (.list (p'.finish last :: items').reverse n)) = _
      rw [hf]
      rfl

/-- A callee and its arguments in parentheses. -/
theorem readsOperand_call {callee : Expr} {args : List Expr} {n : Nat}
    (hc : ReadsOperand callee) (ht : callTier ≤ callee.tier) (h : ∀ e ∈ args, ReadsWhole e) :
    ReadsOperand (.call callee args n) := by
  intro place p ts hts htier
  obtain ⟨lexeme', n', ts', rfl, hts'⟩ := spells_last hts
  obtain ⟨us, vs, rfl, hus, hvs⟩ := spells_append.mp hts'
  obtain ⟨lexeme, ws, rfl, hws⟩ := spells_naming hvs
  obtain ⟨start, hs⟩ := hc place p us hus (Nat.le_trans htier ht)
  rw [spine_of_callTier_le ht] at hs
  refine ⟨start, ?_⟩
  rw [List.append_assoc, List.cons_append]
  refine hs.append ⟨.gap (.firstArg callee n) place ⟨p.targets, p.waiting, start⟩, rfl, ?_⟩
  cases args with
  | nil =>
      cases hws
      exact Steps.one rfl
  | cons e es =>
      obtain ⟨p', last, items', hs', hf⟩ :=
        @reads_items (fun items => place.enter (.args callee items n) ⟨p.targets, p.waiting, start⟩)
          (fun _ _ _ _ => rfl) _ h (List.cons_ne_nil _ _) [] ws hws
      obtain ⟨ss, hss⟩ := slotsItems_cons e es
      refine (hs'.begin (hss ▸ hws) fun t => readGap_firstArg).close ?_
      show Except.ok (State.operator place ⟨p.targets, p.waiting, start⟩
        (.call callee (p'.finish last :: items').reverse n)) = _
      rw [hf]
      rfl

/-! ## Blocks -/

/-- A token that begins an expression begins the next one of a sequence of
    expressions in a block. -/
theorem readAfter_block {place : Place} {p : Partial} {e : Expr} {t : Token}
    (ho : opens t.kind = true) :
    (∀ test items n, readAfter (place.enter (.yes test items n) p) e t
      = readOperand (place.enter (.yes test (e :: items) n) p) {} t) ∧
    (∀ test yes items n, readAfter (place.enter (.no test yes items n) p) e t
      = readOperand (place.enter (.no test yes (e :: items) n) p) {} t) ∧
    (∀ params items n, readAfter (place.enter (.body params items n) p) e t
      = readOperand (place.enter (.body params (e :: items) n) p) {} t) := by
  obtain ⟨kind, lexeme, m⟩ := t
  cases kind with
  | mark m =>
      cases m <;> first
        | exact ⟨fun _ _ _ => rfl, fun _ _ _ _ => rfl, fun _ _ _ => rfl⟩
        | simp [opens] at ho
  | _ => exact ⟨fun _ _ _ => rfl, fun _ _ _ _ => rfl, fun _ _ _ => rfl⟩

theorem readsOperand_choice {test : Expr} {yes no : List Expr} {n : Nat} (ht : ReadsWhole test)
    (hy : ∀ e ∈ yes, ReadsWhole e) (hn : ∀ e ∈ no, ReadsWhole e)
    (hyes : yes ≠ [] ∧ Separated yes) (hno : no ≠ [] ∧ Separated no) :
    ReadsOperand (.choice test yes no n) := by
  intro place p ts hts _
  -- cut the tokens at the braces
  obtain ⟨_, _, most, rfl, hmost⟩ := spells_last hts
  obtain ⟨front, back, rfl, hfront, hback⟩ := spells_append.mp hmost
  obtain ⟨us, vs, rfl, hus, hvs⟩ := spells_append.mp hfront
  obtain ⟨lexeme, testTokens, rfl, hTest⟩ := spells_naming hus
  obtain ⟨_, _, yesTokens, rfl, hYes⟩ := spells_plain hvs
  obtain ⟨_, _, back', rfl, hback'⟩ := spells_plain hback
  obtain ⟨_, _, back'', rfl, hback''⟩ := spells_plain hback'
  obtain ⟨_, _, noTokens, rfl, hNo⟩ := spells_plain hback''
  let q := p.startAt ⟨.keyword .ifWord, lexeme, n⟩
  obtain ⟨p1, last1, hs1, hf1⟩ := ht.alone (place.enter (.test n) q) hTest
  obtain ⟨p2, last2, items2, hs2, hf2⟩ :=
    @reads_steps (fun items => place.enter (.yes test items n) q)
      (fun _ _ _ ho => (readAfter_block ho).1 _ _ _) _ hy hyes.1 hyes.2 [] yesTokens hYes
  obtain ⟨p3, last3, items3, hs3, hf3⟩ :=
    @reads_steps (fun items => place.enter (.no test yes items n) q)
      (fun _ _ _ ho => (readAfter_block ho).2.1 _ _ _ _) _ hn hno.1 hno.2 [] noTokens hNo
  refine ⟨q.start?, Steps.close (Steps.append (Steps.append ⟨_, rfl, hs1⟩ ⟨_, ?_, hs2⟩)
    ⟨.gap (.elseWord test yes n) place q, ?_, _, rfl, _, rfl, hs3⟩) ?_⟩
  · show Except.ok (State.operand (place.enter (.yes (p1.finish last1) [] n) q) {}) = _
    rw [hf1]
  · show Except.ok (State.gap (.elseWord test (p2.finish last2 :: items2).reverse n) place q) = _
    rw [hf2]
    rfl
  · show Except.ok (State.operator place q
      (.choice test yes (p3.finish last3 :: items3).reverse n)) = _
    rw [hf3]
    rfl

/-- The reader goes over the names of parameters. -/
theorem reads_params {place : Place} {q : Partial} {n : Nat} {params : List String}
    (hne : params ≠ []) :
    ∀ (done : List String) (ts : List Token), Spells ts (slotsNames params) →
      Steps (.gap (.param done n) place q) ts
        (.gap (.paramEnd (params.reverse ++ done) n) place q) := by
  induction params with
  | nil => exact absurd rfl hne
  | cons name names ih =>
      intro done ts hts
      cases names with
      | nil =>
          obtain ⟨_, _, us, rfl, hus⟩ := spells_plain hts
          cases hus
          exact Steps.one rfl
      | cons next names =>
          obtain ⟨_, _, us, rfl, hus⟩ := spells_plain hts
          obtain ⟨_, _, vs, rfl, hvs⟩ := spells_plain hus
          refine ⟨_, rfl, _, rfl, ?_⟩
          have hs := ih (List.cons_ne_nil _ _) (name :: done) vs hvs
          rwa [List.append_cons, ← List.reverse_cons] at hs

theorem slotsNames_cons (name : String) (names : List String) :
    ∃ ss, slotsNames (name :: names) = .plain (.identifier name) :: ss := by
  cases names with
  | nil => exact ⟨[], rfl⟩
  | cons next names => exact ⟨_, rfl⟩

/-- The reader goes over what stands between a backslash and the body. -/
theorem reads_head {place : Place} {q : Partial} {n : Nat} {params : List String}
    {ts : List Token} {lexeme : String} {m : Nat} (hts : Spells ts (slotsNames params)) :
    Steps (.gap (.firstParam n) place q) (ts ++ [⟨.mark .leftBrace, lexeme, m⟩])
      (.operand (place.enter (.body params [] n) q) {}) := by
  cases params with
  | nil =>
      cases hts
      exact Steps.one rfl
  | cons name names =>
      have hs := @reads_params place q n _ (List.cons_ne_nil name names) [] ts hts
      -- the first name is read alike behind the backslash and behind a comma
      obtain ⟨ss, hss⟩ := slotsNames_cons name names
      rw [hss] at hts
      obtain ⟨_, _, us, rfl, -⟩ := spells_plain hts
      have hs' : Steps (.gap (.firstParam n) place q) _ _ := hs.congr rfl
      refine hs'.append (Steps.one ?_)
      show Except.ok (State.operand (place.enter
        (.body ((name :: names).reverse ++ []).reverse [] n) q) {}) = _
      rw [List.append_nil, List.reverse_reverse]

theorem readsOperand_function {params : List String} {body : List Expr} {n : Nat}
    (h : ∀ e ∈ body, ReadsWhole e) (hbody : body ≠ [] ∧ Separated body) :
    ReadsOperand (.function params body n) := by
  intro place p ts hts _
  obtain ⟨_, _, most, rfl, hmost⟩ := spells_last hts
  obtain ⟨us, vs, rfl, hus, hvs⟩ := spells_append.mp hmost
  obtain ⟨lexeme, names, rfl, hnames⟩ := spells_naming hus
  obtain ⟨_, _, bodyTokens, rfl, hBody⟩ := spells_plain hvs
  let q := p.startAt ⟨.mark .backslash, lexeme, n⟩
  obtain ⟨p', last, items, hs, hf⟩ :=
    @reads_steps (fun items => place.enter (.body params items n) q)
      (fun _ _ _ ho => (readAfter_block ho).2.2 _ _ _) _ h hbody.1 hbody.2 [] bodyTokens hBody
  refine ⟨q.start?, ?_⟩
  rw [List.cons_append, List.append_cons names]
  refine ⟨.gap (.firstParam n) place q, rfl, ((reads_head hnames).append hs).close ?_⟩
  show Except.ok (State.operator place q
    (.function params (p'.finish last :: items).reverse n)) = _
  rw [hf]
  rfl

/-! ## Whole programs -/

/-- A definition: its target in front of its value. -/
theorem readsWhole_define {name : String} {value : Expr} {n : Nat} (h : ReadsWhole value) :
    ReadsWhole (.define name value n) := by
  intro place targets start ts hts
  obtain ⟨_, _, us, rfl, hus⟩ := spells_plain hts
  obtain ⟨_, vs, rfl, hvs⟩ := spells_naming hus
  obtain ⟨p, last, hs, hf⟩ := h place ((name, n) :: targets) none vs hvs
  exact ⟨p, last, ⟨_, rfl, _, rfl, hs⟩, hf⟩

/-- The reader goes over every canonical expression. -/
theorem reads_canonical (e : Expr) (he : e.Canonical) :
    ReadsWhole e ∧ (1 ≤ e.tier → ReadsOperand e) := by
  have primary : 1 ≤ primaryTier := by decide
  have tight : ∀ {e : Expr}, unaryTier ≤ e.tier → 1 ≤ e.tier := fun h =>
    Nat.le_trans (by decide) h
  -- what is no definition is read as an operand
  have whole : ∀ {e : Expr}, 1 ≤ e.tier → ReadsOperand e →
      ReadsWhole e ∧ (1 ≤ e.tier → ReadsOperand e) := fun ht h => ⟨h.whole ht, fun _ => h⟩
  induction e using Expr.induction with
  | literal value n => exact whole primary (readsOperand_literal value n)
  | list items n ih =>
      have hitems := Expr.canonicalAll_iff.mp he
      exact whole primary (readsOperand_list fun e hm => (ih e hm (hitems e hm)).1)
  | symbol name n => exact whole primary (readsOperand_symbol name n)
  | define name value n ih =>
      exact ⟨readsWhole_define (ih he).1, fun h => absurd h (Nat.not_succ_le_zero 0)⟩
  | group inner n ih => exact whole primary (readsOperand_group (ih he).1)
  | unary op operand n ih =>
      obtain ⟨hc, ht⟩ := he
      exact whole (tight (Nat.le_refl _)) (readsOperand_unary ((ih hc).2 (tight ht)) ht)
  | binary op lhs rhs n ihl ihr =>
      obtain ⟨hl, hr, hlt, hrt⟩ := he
      have hl1 : 1 ≤ lhs.tier :=
        Nat.le_trans op.one_le_tier (Nat.le_trans (tier_le_lhsTier op) hlt)
      have hr1 : 1 ≤ rhs.tier :=
        Nat.le_trans op.one_le_tier (Nat.le_trans (tier_le_rhsTier op) hrt)
      exact whole op.one_le_tier
        (readsOperand_binary ((ihl hl).2 hl1) ((ihr hr).2 hr1) hl hlt hrt)
  | choice test yes no n iht ihy ihn =>
      obtain ⟨ht, ⟨hy, hyc, hys⟩, hn, hnc, hns⟩ := he
      rw [Expr.canonicalAll_iff] at hyc hnc
      exact whole primary (readsOperand_choice (iht ht).1
        (fun e hm => (ihy e hm (hyc e hm)).1) (fun e hm => (ihn e hm (hnc e hm)).1)
        ⟨hy, hys⟩ ⟨hn, hns⟩)
  | function params body n ih =>
      obtain ⟨hb, hbc, hbs⟩ := he
      rw [Expr.canonicalAll_iff] at hbc
      exact whole primary (readsOperand_function
        (fun e hm => (ih e hm (hbc e hm)).1) ⟨hb, hbs⟩)
  | call callee args n ihc iha =>
      obtain ⟨hc, ht, ha⟩ := he
      rw [Expr.canonicalAll_iff] at ha
      exact whole (tight (Nat.le_succ _)) (readsOperand_call
        ((ihc hc).2 (tight (Nat.le_of_succ_le ht))) ht fun e hm => (iha e hm (ha e hm)).1)

/-- The tokens of a canonical program, and then the end of the input, are read
    as that program. -/
theorem run_canonical {p : Program} {ts : List Token} {last : Token} (hp : p.Canonical)
    (hs : Spells ts p.slots) (hts : ∀ t ∈ ts, t.isEnd = false) (hlast : last.isEnd = true) :
    State.idle.run (ts ++ [last]) = .ok p := by
  obtain ⟨hc, hsep⟩ := hp
  rw [Expr.canonicalAll_iff] at hc
  cases p with
  | nil =>
      cases hs
      rw [List.nil_append, State.run, if_pos hlast]
      rfl
  | cons e es =>
      obtain ⟨q, operand, items, hsteps, hf⟩ :=
        @reads_steps (fun items => ⟨[], items⟩) (fun _ _ _ _ => rfl) _
          (fun e he => (reads_canonical e (hc e he)).1) (List.cons_ne_nil _ _) hsep [] ts hs
      have hidle : Steps .idle ts _ := hsteps.begin hs fun _ _ => rfl
      rw [hidle.run hts, State.run, if_pos hlast]
      show Except.ok (q.finish operand :: items).reverse = _
      rw [hf]
      rfl

end Scriptlet.Reader

namespace Scriptlet

/-- **The reader accepts exactly the grammar.**  Tokens without an end of the
    input among them, followed by one, are read as a program if and only if
    the program is canonical, the tokens are the program written out, and
    every node has the line of the token that names it. -/
theorem ofTokens_eq_ok_iff_canonical (ts : List Token) (hts : ∀ t ∈ ts, t.isEnd = false)
    (last : Token) (hlast : last.isEnd = true) (p : Program) :
    Program.ofTokens (ts ++ [last]) = .ok p ↔
      p.Canonical ∧ ts.map Token.kind = p.yield ∧ p.LinesFrom ts := by
  have hspells : Spells ts p.slots ↔ ts.map Token.kind = p.yield ∧ p.LinesFrom ts := spells_iff
  rw [← hspells, Program.ofTokens]
  constructor
  · intro h
    exact Reader.canonical_of_run hts hlast h
  · rintro ⟨hp, hs⟩
    exact Reader.run_canonical hp hs hts hlast

/-- `x = -a ^ b : c` over two lines, and then `y`. -/
theorem ofTokens_definition_then_symbol :
    let ts : List Token :=
      [⟨.identifier "x", "x", 1⟩, ⟨.mark .equal, "=", 1⟩, ⟨.mark .minus, "-", 1⟩,
       ⟨.identifier "a", "a", 1⟩, ⟨.mark .caret, "^", 1⟩, ⟨.identifier "b", "b", 1⟩,
       ⟨.mark .colon, ":", 2⟩, ⟨.identifier "c", "c", 2⟩, ⟨.identifier "y", "y", 2⟩]
    let p : Program :=
      [.define "x"
        (.binary .cons
          (.binary .power (.unary .negate (.symbol "a" 1) 1) (.symbol "b" 1) 1)
          (.symbol "c" 2) 2) 1,
       .symbol "y" 2]
    (∀ t ∈ ts, t.isEnd = false) ∧ (Token.endAt 2).isEnd = true ∧
      Program.ofTokens (ts ++ [Token.endAt 2]) = .ok p ∧
      p.Canonical ∧ ts.map Token.kind = p.yield ∧ p.LinesFrom ts := by
  intro ts p
  have hts : ∀ t ∈ ts, t.isEnd = false := by decide
  have hp : Program.ofTokens (ts ++ [Token.endAt 2]) = .ok p := rfl
  exact ⟨hts, rfl, hp, (ofTokens_eq_ok_iff_canonical ts hts (Token.endAt 2) rfl p).mp hp⟩

end Scriptlet
