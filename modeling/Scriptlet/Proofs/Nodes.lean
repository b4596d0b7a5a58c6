import Scriptlet.Proofs.Likeness
import Scriptlet.Proofs.PrintRead

/-! # The nodes of a program

    The nodes of a program are its expressions and what they are made of, at any
    depth.  What reading sees to for a whole program holds of each node: its
    blocks have expressions (`Program.block_ne_nil`), and its line is the line of
    a token (`Program.exists_token_of_node`). -/

namespace Scriptlet

namespace Expr

/-- `p` is `e` or a part of it, at any depth. -/
inductive Within : Expr → Expr → Prop where
  | self (e : Expr) : Within e e
  | part {p q e : Expr} : Within p q → q ∈ e.parts → Within p e

/-- A part of a part is a part. -/
theorem Within.trans {p q e : Expr} (hp : p.Within q) (h : q.Within e) : p.Within e := by
  induction h with
  | self => exact hp
  | part _ hmem ih => exact .part ih hmem

/-- The parts of a canonical expression are canonical. -/
theorem Canonical.part {e p : Expr} (h : e.Canonical) (hp : p ∈ e.parts) : p.Canonical := by
  cases e with
  | literal | symbol => cases hp
  | list items n => exact canonicalAll_iff.mp h p hp
  | define name value n =>
      obtain rfl := List.mem_singleton.mp hp
      exact h
  | group inner n =>
      obtain rfl := List.mem_singleton.mp hp
      exact h
  | unary op operand n =>
      obtain rfl := List.mem_singleton.mp hp
      exact h.1
  | binary op lhs rhs n =>
      obtain ⟨hl, hr, -⟩ := h
      rcases List.mem_cons.mp hp with rfl | hp
      · exact hl
      · obtain rfl := List.mem_singleton.mp hp
        exact hr
  | choice test yes no n =>
      obtain ⟨ht, ⟨-, hyes, -⟩, -, hno, -⟩ := h
      rcases List.mem_cons.mp hp with rfl | hp
      · exact ht
      · rcases List.mem_append.mp hp with hp | hp
        · exact canonicalAll_iff.mp hyes p hp
        · exact canonicalAll_iff.mp hno p hp
  | function params body n => exact canonicalAll_iff.mp h.2.1 p hp
  | call callee args n =>
      obtain ⟨hc, -, hargs⟩ := h
      rcases List.mem_cons.mp hp with rfl | hp
      · exact hc
      · exact canonicalAll_iff.mp hargs p hp

/-- The parts of a canonical expression, at any depth, are canonical. -/
theorem Canonical.within {e p : Expr} (h : e.Canonical) (hp : p.Within e) : p.Canonical := by
  induction hp with
  | self => exact h
  | part _ hmem ih => exact ih (h.part hmem)

/-- No block of a canonical expression is empty. -/
theorem Canonical.block_ne_nil {e : Expr} (h : e.Canonical) {b : List Expr} (hb : b ∈ e.blocks) :
    b ≠ [] := by
  cases e with
  | choice test yes no n =>
      obtain ⟨-, ⟨hyes, -⟩, hno, -⟩ := h
      rcases List.mem_cons.mp hb with rfl | hb
      · exact hyes
      · obtain rfl := List.mem_singleton.mp hb
        exact hno
  | function params body n =>
      obtain rfl := List.mem_singleton.mp hb
      exact h.1
  | _ => cases hb

/-- What a part is written out as is in what the whole is written out as. -/
theorem slots_subset_of_mem_parts {e p : Expr} (h : p ∈ e.parts) : p.slots ⊆ e.slots := by
  have hitems : ∀ {items : List Expr}, p ∈ items → p.slots ⊆ slotsItems items :=
    fun hp => forall_slotsItems (fun _ hs => hs) p hp
  have hsteps : ∀ {steps : List Expr}, p ∈ steps → p.slots ⊆ slotsSteps steps :=
    fun hp => forall_slotsSteps (fun _ hs => hs) p hp
  intro s hs
  cases e with
  | literal | symbol => cases h
  | list items n =>
      have hmem : s ∈ slotsItems items := hitems h hs
      simp [slots, hmem]
  | define name value n =>
      obtain rfl := List.mem_singleton.mp h
      simp [slots, hs]
  | group inner n =>
      obtain rfl := List.mem_singleton.mp h
      simp [slots, hs]
  | unary op operand n =>
      obtain rfl := List.mem_singleton.mp h
      simp [slots, hs]
  | binary op lhs rhs n =>
      rcases List.mem_cons.mp h with rfl | h
      · simp [slots, hs]
      · obtain rfl := List.mem_singleton.mp h
        simp [slots, hs]
  | choice test yes no n =>
      rcases List.mem_cons.mp h with rfl | h
      · simp [slots, hs]
      · rcases List.mem_append.mp h with h | h
        · simp [slots, hsteps h hs]
        · simp [slots, hsteps h hs]
  | function params body n =>
      have hmem : s ∈ slotsSteps body := hsteps h hs
      simp [slots, hmem]
  | call callee args n =>
      rcases List.mem_cons.mp h with rfl | h
      · simp [slots, hs]
      · simp [slots, hitems h hs]

/-- A part is written with slots of the whole. -/
theorem Within.slots_subset {e p : Expr} (h : p.Within e) : p.slots ⊆ e.slots := by
  induction h with
  | self => exact List.Subset.refl _
  | part _ hmem ih => exact List.Subset.trans ih (slots_subset_of_mem_parts hmem)

/-- An expression is written out with a token that gives it its line. -/
theorem naming_mem_slots (e : Expr) : ∃ kind, Slot.naming kind e.line ∈ e.slots := by
  cases e with
  | literal value n => exact ⟨value.kind, by simp [slots, line]⟩
  | list items n => exact ⟨.mark .leftBracket, by simp [slots, line]⟩
  | symbol name n => exact ⟨.identifier name, by simp [slots, line]⟩
  | define name value n => exact ⟨.mark .equal, by simp [slots, line]⟩
  | group inner n => exact ⟨.mark .leftParen, by simp [slots, line]⟩
  | unary op operand n => exact ⟨op.kind, by simp [slots, line]⟩
  | binary op lhs rhs n => exact ⟨op.kind, by simp [slots, line]⟩
  | choice test yes no n => exact ⟨.keyword .ifWord, by simp [slots, line]⟩
  | function params body n => exact ⟨.mark .backslash, by simp [slots, line]⟩
  | call callee args n => exact ⟨.mark .leftParen, by simp [slots, line]⟩

end Expr

/-- A run that goes on from a state and succeeds, on any tokens, gives a
    canonical program that the first of them spell. -/
theorem Reader.Reads.run_front {ts us : List Token} {s : State} {program : Program}
    (h : Reads us s) (hr : s.run ts = .ok program) :
    program.Canonical ∧ ∃ front, front <+: ts ∧ Spells (us ++ front) program.slots := by
  induction ts generalizing us s with
  | nil =>
      rw [State.run] at hr
      split at hr
      · next p hc =>
          obtain rfl := Except.ok.inj hr
          obtain ⟨hcanonical, hspells⟩ := h.complete hc
          exact ⟨hcanonical, [], List.nil_prefix, by rwa [List.append_nil]⟩
      · cases hr
  | cons t ts ih =>
      rw [State.run] at hr
      split at hr
      · next p hp =>
          obtain rfl := Except.ok.inj hr
          have hc : s.complete? = some p := by
            split at hp
            · exact hp
            · cases hp
          obtain ⟨hcanonical, hspells⟩ := h.complete hc
          exact ⟨hcanonical, [], List.nil_prefix, by rwa [List.append_nil]⟩
      · split at hr
        · next s' hs =>
            obtain ⟨hcanonical, front, hfront, hspells⟩ := ih (h.step hs) hr
            refine ⟨hcanonical, t :: front, (List.prefix_cons_inj t).mpr hfront, ?_⟩
            rwa [List.append_assoc] at hspells
        · cases hr

namespace Program

variable {program : Program} {tokens : List Token} {p : Expr}

/-- `p` is a node of the program. -/
def HasNode (program : Program) (p : Expr) : Prop :=
  ∃ e ∈ program, p.Within e

theorem HasNode.of_mem (h : p ∈ program) : program.HasNode p :=
  ⟨p, h, .self p⟩

theorem HasNode.within {e : Expr} (h : program.HasNode e) (hp : p.Within e) :
    program.HasNode p := by
  obtain ⟨f, hf, he⟩ := h
  exact ⟨f, hf, hp.trans he⟩

/-- The blocks of a node of a program that was read have expressions. -/
theorem block_ne_nil (h : ofTokens tokens = .ok program) (hp : program.HasNode p)
    {b : List Expr} (hb : b ∈ p.blocks) : b ≠ [] := by
  obtain ⟨e, he, hwithin⟩ := hp
  have start : Reader.Reads [] .idle := rfl
  obtain ⟨⟨hcanonical, -⟩, -⟩ := start.run_front h
  exact ((Expr.canonicalAll_iff.mp hcanonical e he).within hwithin).block_ne_nil hb

/-- What a node is written out as is in what its program is written out as. -/
theorem HasNode.slots_subset (h : program.HasNode p) : p.slots ⊆ program.slots := by
  obtain ⟨e, he, hwithin⟩ := h
  intro s hs
  exact Expr.forall_slotsSteps (fun _ hs => hs) e he _ (hwithin.slots_subset hs)

/-- A node of a program that was read has the line of a token. -/
theorem exists_token_of_node (h : ofTokens tokens = .ok program) (hp : program.HasNode p) :
    ∃ t ∈ tokens, t.line = p.line := by
  have start : Reader.Reads [] .idle := rfl
  obtain ⟨-, front, hfront, hspells⟩ := start.run_front h
  rw [List.nil_append] at hspells
  obtain ⟨kind, hkind⟩ := p.naming_mem_slots
  obtain ⟨i, hi, hslot⟩ := List.mem_iff_getElem.mp (hp.slots_subset hkind)
  have hlt : i < front.length := by
    rw [hspells.length_eq]
    exact hi
  have hfits := hspells.get hlt hi
  refine ⟨front[i], hfront.subset (List.getElem_mem hlt), ?_⟩
  have hline := hfits.2 p.line
  rw [List.get_eq_getElem, List.get_eq_getElem, hslot] at hline
  exact hline rfl

end Program

end Scriptlet
