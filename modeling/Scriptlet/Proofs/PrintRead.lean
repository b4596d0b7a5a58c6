import Scriptlet.Proofs.Lines
import Scriptlet.Proofs.ReaderComplete
import Scriptlet.Proofs.Scanning

/-! # Printed programs read back

    The text of an expression is read as the tokens of the expression written
    out (`Expr.scans_write`), all of them on one line.  A program that was read
    from a source is canonical, and so is every stretch of it; hence these
    tokens are read as that stretch, moved to one line. -/

namespace Scriptlet

/-! ## Moving to one line -/

/-- The slot with its node moved to a line. -/
def Slot.onLine (n : Nat) (s : Slot) : Slot :=
  ⟨s.kind, s.line?.map fun _ => n⟩

namespace Program

/-- Putting a program on one line is mapping its lines to that one. -/
theorem map_onLine (n : Nat) (p : Program) :
    p.map (Expr.onLine n) = p.map (Expr.mapLine fun _ => n) :=
  List.map_congr_left fun e _ => e.onLine_eq_mapLine n

/-- A canonical program is so on one line, too. -/
theorem Canonical.onLine {p : Program} (h : p.Canonical) (n : Nat) :
    Program.Canonical (p.map (Expr.onLine n)) := by
  rw [map_onLine]
  exact h.mapLine _

/-- A stretch of a canonical program is canonical. -/
theorem Canonical.stretch {before run after : Program}
    (h : Program.Canonical (before ++ run ++ after)) : Program.Canonical run := by
  obtain ⟨hall, hsep⟩ := h
  rw [Expr.canonicalAll_iff] at hall
  refine ⟨?_, ?_⟩
  · rw [Expr.canonicalAll_iff]
    intro e he
    exact hall e (List.mem_append_left _ (List.mem_append_right _ he))
  · intro e he
    apply hsep
    -- only the first expression of the whole program is free to join
    cases before with
    | nil =>
        cases run with
        | nil => exact nomatch he
        | cons f run => exact List.mem_append_left _ he
    | cons f before =>
        have hrun : e ∈ run := List.mem_of_mem_tail he
        exact List.mem_append_left _ (List.mem_append_right _ hrun)

/-- On one line, the slots of a program are its slots on that line. -/
theorem slots_onLine (n : Nat) (p : Program) :
    Program.slots (p.map (Expr.onLine n)) = p.slots.map (Slot.onLine n) := by
  rw [map_onLine]
  exact slots_mapLine _ p

end Program

/-- Tokens of the right kinds, all on one line, spell the slots of that line. -/
theorem spells_onLine {n : Nat} {ts : List Token} {ss : List Slot}
    (hk : ts.map Token.kind = ss.map Slot.kind) (hl : ∀ t ∈ ts, t.line = n) :
    Spells ts (ss.map (Slot.onLine n)) := by
  induction ts generalizing ss with
  | nil =>
      rw [List.map_eq_nil_iff.mp hk.symm]
      exact .nil
  | cons t ts ih =>
      obtain ⟨hl, hls⟩ := List.forall_mem_cons.mp hl
      cases ss with
      | nil => exact nomatch hk
      | cons s ss =>
          obtain ⟨hkind, hks⟩ := List.cons.inj hk
          refine .cons ⟨hkind, ?_⟩ (ih hks hls)
          intro m hm
          obtain ⟨_, _, rfl⟩ := Option.map_eq_some_iff.mp hm
          exact hl

/-! ## Reading a printed expression -/

/-- A kind that its text is read back as. -/
def TokenKind.Printable : TokenKind → Prop
  | .identifier name => Token.IsName name
  | .number x => ∃ bits, bits < Number.infinityBits ∧ x = Number.ofMagnitude false bits
  | .endOfInput => False
  | _ => True

/-- What can be read can be printed, but for numbers that are not finite. -/
theorem TokenKind.Readable.printable {k : TokenKind} (h : k.Readable)
    (hfin : ∀ x, k = .number x → x.isFinite = true) : k.Printable := by
  cases k with
  | number x =>
      obtain ⟨whole, fraction, rfl⟩ := h
      exact Number.ofDigits_finite (hfin _ rfl)
  | _ => exact h

namespace Expr

open Token

/-- The text of an expression is read as the tokens of the expression. -/
def ScansBack (e : Expr) : Prop :=
  ∀ rest, Stops rest → Scans (e.write rest) rest (e.slots.map Slot.kind)

/-- Items that scan back do so with the commas between them. -/
theorem scans_writeItems {items : List Expr} (h : ∀ e ∈ items, e.ScansBack) {rest : List Char}
    (hrest : Stops rest) :
    Scans (writeItems items rest) rest ((slotsItems items).map Slot.kind) := by
  induction items with
  | nil => exact .refl rest
  | cons e items ih =>
      obtain ⟨he, hes⟩ := List.forall_mem_cons.mp h
      cases items with
      | nil => exact he rest hrest
      | cons f items =>
          have hcomma := @scans_mark_alone .comma rfl (' ' :: writeItems (f :: items) rest)
          have htail := (scans_blank _).append (ih hes)
          rw [writeItems, slotsItems, List.map_append]
          exact (he _ (stops_cons rfl (by decide) _)).append (hcomma.append htail)

/-- Steps that scan back do so with the spaces between them. -/
theorem scans_writeSteps {steps : List Expr} (h : ∀ e ∈ steps, e.ScansBack) {rest : List Char}
    (hrest : Stops rest) :
    Scans (writeSteps steps rest) rest ((slotsSteps steps).map Slot.kind) := by
  induction steps with
  | nil => exact .refl rest
  | cons e steps ih =>
      obtain ⟨he, hes⟩ := List.forall_mem_cons.mp h
      rw [slotsSteps, List.map_append]
      cases steps with
      | nil => exact (he rest hrest).append (.refl rest)
      | cons f steps =>
          exact (he _ (stops_blank _)).append ((scans_blank _).append (ih hes))

/-- Names scan back with the commas between them. -/
theorem scans_writeNames {names : List String} (h : ∀ p ∈ names, IsName p) {rest : List Char}
    (hrest : Stops rest) :
    Scans (writeNames names rest) rest ((slotsNames names).map Slot.kind) := by
  fun_induction slotsNames names with
  | case1 => exact .refl rest
  | case2 p => exact scans_name (h p (List.mem_singleton_self p)) hrest
  | case3 p q ps ih =>
      obtain ⟨hp, hps⟩ := List.forall_mem_cons.mp h
      have hcomma := @scans_mark_alone .comma rfl (' ' :: writeNames (q :: ps) rest)
      have htail := (scans_blank _).append (ih hps)
      exact (scans_name hp (stops_cons rfl (by decide) _)).append (hcomma.append htail)

/-- Between the backslash and the body there are the parameters. -/
theorem scans_writeParams {names : List String} (h : ∀ p ∈ names, IsName p) (rest : List Char) :
    Scans (writeParams names rest) rest ((slotsNames names).map Slot.kind) := by
  unfold writeParams
  split
  · next hnil =>
      subst hnil
      exact .refl rest
  · have hnames := scans_writeNames h (stops_blank rest)
    exact (hnames.append (scans_blank rest)).congr (List.append_nil _)

/-- A literal scans back as one token. -/
theorem scans_literal {value : Literal} (h : value.kind.Printable) {rest : List Char}
    (hrest : Stops rest) : Scans (value.write rest) rest [value.kind] := by
  cases value with
  | nil => exact scans_keyword .nil hrest
  | bool b =>
      cases b with
      | true => exact scans_keyword .true hrest
      | false => exact scans_keyword .false hrest
  | number x =>
      obtain ⟨bits, hfin, rfl⟩ := h
      exact scans_number hfin hrest
  | string s => exact scans_quoted s rest

/-- What holds of the slots of items holds of the slots of each item. -/
theorem forall_slotsItems {P : Slot → Prop} {items : List Expr} (h : ∀ s ∈ slotsItems items, P s) :
    ∀ e ∈ items, ∀ s ∈ e.slots, P s := by
  induction items with
  | nil => exact nofun
  | cons e items ih =>
      cases items with
      | nil => exact List.forall_mem_singleton.mpr h
      | cons f items =>
          obtain ⟨he, hes⟩ := List.forall_mem_append.mp h
          exact List.forall_mem_cons.mpr ⟨he, ih (List.forall_mem_cons.mp hes).2⟩

theorem forall_slotsSteps {P : Slot → Prop} {steps : List Expr} (h : ∀ s ∈ slotsSteps steps, P s) :
    ∀ e ∈ steps, ∀ s ∈ e.slots, P s := by
  induction steps with
  | nil => exact nofun
  | cons e steps ih =>
      obtain ⟨he, hes⟩ := List.forall_mem_append.mp h
      exact List.forall_mem_cons.mpr ⟨he, ih hes⟩

theorem forall_slotsNames {names : List String} (h : ∀ s ∈ slotsNames names, s.kind.Printable) :
    ∀ p ∈ names, IsName p := by
  fun_induction slotsNames names with
  | case1 => exact List.forall_mem_nil _
  | case2 p => exact List.forall_mem_singleton.mpr (h _ (List.mem_singleton_self _))
  | case3 p q ps ih =>
      obtain ⟨hp, hps⟩ := List.forall_mem_cons.mp h
      exact List.forall_mem_cons.mpr ⟨hp, ih (List.forall_mem_cons.mp hps).2⟩

/-- A unary operator scans back in front of its operand. -/
theorem scans_unary (op : UnaryOp) {operand rest : List Char} {ks : List TokenKind}
    (h : Scans operand rest ks) :
    Scans (op.spelling.toList ++ operand) rest (op.kind :: ks) := by
  cases op with
  | negate => exact (@scans_mark_alone .minus rfl operand).append h
  | not => exact (scans_keyword .not (stops_blank operand)).append ((scans_blank operand).append h)

/-- A binary operator stands between blanks. -/
theorem scans_binary (op : BinaryOp) {operand rest : List Char} {ks : List TokenKind}
    (h : Scans operand rest ks) :
    Scans (' ' :: (op.spelling.toList ++ ' ' :: operand)) rest (op.kind :: ks) := by
  have htail := (scans_blank operand).append h
  refine (scans_blank _).append ?_
  cases op with
  | and => exact (scans_keyword .and (stops_blank operand)).append htail
  | or => exact (scans_keyword .or (stops_blank operand)).append htail
  | equal => exact (scans_mark .equalEqual operand).append htail
  | notEqual => exact (scans_mark .slashEqual operand).append htail
  | less => exact (scans_mark .less operand).append htail
  | greater => exact (scans_mark .greater operand).append htail
  | lessEqual => exact (scans_mark .lessEqual operand).append htail
  | greaterEqual => exact (scans_mark .greaterEqual operand).append htail
  | cons => exact (scans_mark .colon operand).append htail
  | concat => exact (scans_mark .dotDot operand).append htail
  | add => exact (scans_mark .plus operand).append htail
  | subtract => exact (scans_mark .minus operand).append htail
  | multiply => exact (scans_mark .star operand).append htail
  | divide => exact (scans_mark .slash operand).append htail
  | power => exact (scans_mark .caret operand).append htail

/-- A block: braces, and blanks inside them. -/
theorem scans_block {steps : List Expr} (h : ∀ e ∈ steps, e.ScansBack) {rest rest' : List Char}
    {ks : List TokenKind} (htail : Scans rest rest' ks) :
    Scans ('\x7b' :: ' ' :: writeSteps steps (' ' :: '\x7d' :: rest)) rest'
      (.mark .leftBrace :: ((slotsSteps steps).map Slot.kind ++ .mark .rightBrace :: ks)) := by
  have hclose := (@scans_mark_alone .rightBrace rfl rest).append htail
  have hsteps := scans_writeSteps h (stops_blank ('\x7d' :: rest))
  have hinside := hsteps.append ((scans_blank _).append hclose)
  exact (@scans_mark_alone .leftBrace rfl _).append ((scans_blank _).append hinside)

/-- **A printed expression is read as its tokens**, when they are such as a
    text can spell. -/
theorem scans_write (e : Expr) (h : ∀ s ∈ e.slots, s.kind.Printable) : e.ScansBack := by
  induction e using Expr.induction with
  | literal value n =>
      intro rest hrest
      exact scans_literal (h _ (List.mem_singleton_self _)) hrest
  | symbol name n =>
      intro rest hrest
      exact scans_name (h _ (List.mem_singleton_self _)) hrest
  | list items n ih =>
      intro rest hrest
      have hback : ∀ e ∈ items, e.ScansBack := fun e he =>
        ih e he (forall_slotsItems (fun s hs => h s (by simp [slots, hs])) e he)
      have hitems := scans_writeItems hback (stops_cons rfl (by decide) rest : Stops (']' :: rest))
      have hclose := @scans_mark_alone .rightBracket rfl rest
      exact ((@scans_mark_alone .leftBracket rfl _).append (hitems.append hclose)).congr
        (by simp [slots])
  | define name value n ih =>
      intro rest hrest
      have hname : IsName name := h _ (List.mem_cons_self ..)
      have hvalue := ih (fun s hs => h s (by simp [slots, hs])) rest hrest
      have hequal := (scans_mark .equal (value.write rest)).append ((scans_blank _).append hvalue)
      exact ((scans_name hname (stops_blank _)).append ((scans_blank _).append hequal)).congr
        (by simp [slots])
  | group inner n ih =>
      intro rest hrest
      have hinner := ih (fun s hs => h s (by simp [slots, hs])) (')' :: rest)
        (stops_cons rfl (by decide) rest)
      have hclose := @scans_mark_alone .rightParen rfl rest
      exact ((@scans_mark_alone .leftParen rfl _).append (hinner.append hclose)).congr
        (by simp [slots])
  | unary op operand n ih =>
      intro rest hrest
      exact scans_unary op (ih (fun s hs => h s (by simp [slots, hs])) rest hrest)
  | binary op lhs rhs n ihl ihr =>
      intro rest hrest
      have hlhs := ihl fun s hs => h s (by simp [slots, hs])
      have hrhs := ihr (fun s hs => h s (by simp [slots, hs])) rest hrest
      exact ((hlhs _ (stops_blank _)).append (scans_binary op hrhs)).congr (by simp [slots])
  | choice test yes no n iht ihy ihn =>
      intro rest hrest
      have htest := iht fun s hs => h s (by simp [slots, hs])
      have hyes : ∀ e ∈ yes, e.ScansBack := fun e he =>
        ihy e he (forall_slotsSteps (fun s hs => h s (by simp [slots, hs])) e he)
      have hno : ∀ e ∈ no, e.ScansBack := fun e he =>
        ihn e he (forall_slotsSteps (fun s hs => h s (by simp [slots, hs])) e he)
      have hblock := (scans_blank _).append (scans_block hno (.refl rest))
      have helse := (scans_keyword .elseWord (stops_blank _)).append hblock
      have hthen := scans_block hyes ((scans_blank _).append helse)
      have hbody := (htest _ (stops_blank _)).append ((scans_blank _).append hthen)
      exact ((scans_keyword .ifWord (stops_blank _)).append
        ((scans_blank _).append hbody)).congr (by simp [slots])
  | function params body n ih =>
      intro rest hrest
      have hparams : ∀ p ∈ params, IsName p :=
        forall_slotsNames fun s hs => h s (by simp [slots, hs])
      have hbody : ∀ e ∈ body, e.ScansBack := fun e he =>
        ih e he (forall_slotsSteps (fun s hs => h s (by simp [slots, hs])) e he)
      have hblock := scans_block hbody (.refl rest)
      exact ((@scans_mark_alone .backslash rfl _).append
        ((scans_writeParams hparams _).append hblock)).congr (by simp [slots])
  | call callee args n ihc iha =>
      intro rest hrest
      have hcallee := ihc fun s hs => h s (by simp [slots, hs])
      have hback : ∀ e ∈ args, e.ScansBack := fun e he =>
        iha e he (forall_slotsItems (fun s hs => h s (by simp [slots, hs])) e he)
      have hargs := scans_writeItems hback (stops_cons rfl (by decide) rest : Stops (')' :: rest))
      have hclose := @scans_mark_alone .rightParen rfl rest
      have hopen := (@scans_mark_alone .leftParen rfl _).append (hargs.append hclose)
      exact ((hcallee _ (stops_cons rfl (by decide) _)).append hopen).congr (by simp [slots])

/-! ## Printed programs -/

/-- What is written in front of a text stays in front of it. -/
def Onto (write : List Char → List Char) : Prop :=
  ∀ cs rest, write (cs ++ rest) = write cs ++ rest

theorem onto_append (word : List Char) : Onto (word ++ ·) :=
  fun cs rest => (List.append_assoc word cs rest).symm

/-- One text written in front of another one. -/
theorem Onto.comp {f g : List Char → List Char} (hf : Onto f) (hg : Onto g) :
    Onto fun cs => f (g cs) := by
  intro cs rest
  show f (g (cs ++ rest)) = f (g cs) ++ rest
  rw [hg, hf]

/-- Items and steps are written in front of what follows. -/
theorem onto_writeItems {items : List Expr} (h : ∀ e ∈ items, Onto e.write) :
    Onto (writeItems items) := by
  induction items with
  | nil => exact fun _ _ => rfl
  | cons e items ih =>
      obtain ⟨he, hes⟩ := List.forall_mem_cons.mp h
      cases items with
      | nil => exact he
      | cons f items => exact he.comp ((onto_append [',', ' ']).comp (ih hes))

theorem onto_writeSteps {steps : List Expr} (h : ∀ e ∈ steps, Onto e.write) :
    Onto (writeSteps steps) := by
  induction steps with
  | nil => exact fun _ _ => rfl
  | cons e steps ih =>
      obtain ⟨he, hes⟩ := List.forall_mem_cons.mp h
      cases steps with
      | nil => exact he
      | cons f steps => exact he.comp ((onto_append [' ']).comp (ih hes))

theorem onto_writeNames (names : List String) : Onto (writeNames names) := by
  induction names with
  | nil => exact fun _ _ => rfl
  | cons p names ih =>
      cases names with
      | nil => exact onto_append _
      | cons q names => exact (onto_append _).comp ((onto_append [',', ' ']).comp ih)

theorem onto_writeParams (params : List String) : Onto (writeParams params) := by
  intro cs rest
  unfold writeParams
  split
  · rfl
  · exact onto_writeNames params (' ' :: cs) rest

theorem onto_literal (value : Literal) : Onto value.write := by
  cases value with
  | nil => exact onto_append ['n', 'i', 'l']
  | bool b => cases b <;> exact onto_append _
  | number x => exact onto_append _
  | string s =>
      have hclose := (onto_append (Text.escapeChars s.toList)).comp (onto_append ['"'])
      exact (onto_append ['"']).comp hclose

/-- **An expression is written in front of what follows**, whatever that is. -/
theorem onto_write (e : Expr) : Onto e.write := by
  induction e using Expr.induction with
  | literal value n => exact onto_literal value
  | symbol name n => exact onto_append _
  | list items n ih =>
      exact (onto_append ['[']).comp ((onto_writeItems ih).comp (onto_append [']']))
  | define name value n ih =>
      exact (onto_append _).comp ((onto_append [' ', '=', ' ']).comp ih)
  | group inner n ih => exact (onto_append ['(']).comp (ih.comp (onto_append [')']))
  | unary op operand n ih => exact (onto_append _).comp ih
  | binary op lhs rhs n ihl ihr =>
      have hop := (onto_append op.spelling.toList).comp ((onto_append [' ']).comp ihr)
      exact ihl.comp ((onto_append [' ']).comp hop)
  | choice test yes no n iht ihy ihn =>
      have helse := (onto_writeSteps ihn).comp (onto_append [' ', '\x7d'])
      have hthen := (onto_writeSteps ihy).comp ((onto_append " \x7d else \x7b ".toList).comp helse)
      have htest := iht.comp ((onto_append [' ', '\x7b', ' ']).comp hthen)
      exact (onto_append ['i', 'f', ' ']).comp htest
  | function params body n ih =>
      have hblock := (onto_append ['\x7b', ' ']).comp
        ((onto_writeSteps ih).comp (onto_append [' ', '\x7d']))
      exact (onto_append ['\\']).comp ((onto_writeParams params).comp hblock)
  | call callee args n ihc iha =>
      have hargs := (onto_writeItems iha).comp (onto_append [')'])
      exact ihc.comp ((onto_append ['(']).comp hargs)

/-- The texts of expressions with blanks between them. -/
theorem toList_intercalate_text (es : List Expr) :
    (" ".intercalate (es.map text)).toList = writeSteps es [] := by
  induction es with
  | nil => rfl
  | cons e es ih =>
      cases es with
      | nil => simp [writeSteps, text]
      | cons f es =>
          rw [List.map_cons, List.map_cons, String.intercalate_cons_cons, ← List.map_cons,
            String.toList_append, String.toList_append, ih, text, String.toList_ofList, writeSteps,
            List.append_assoc]
          exact (onto_write e [] (' ' :: writeSteps (f :: es) [])).symm

end Expr

/-- Only the mark at the end is the end. -/
theorem Token.isEnd_eq_false {t : Token} (h : t.kind ≠ .endOfInput) : t.isEnd = false := by
  unfold isEnd
  split
  · next he => exact absurd he h
  · rfl

/-- The mark at the end is not written by anything. -/
theorem TokenKind.Readable.isEnd_eq_false {t : Token} (h : t.kind.Readable) : t.isEnd = false := by
  refine Token.isEnd_eq_false fun he => ?_
  rw [he] at h
  exact h

/-- What the tokens of a source are read as: a canonical program that they
    spell. -/
theorem spells_of_scan {source : String} {tokens : List Token} {p : Program}
    (hscan : Token.scan source = .ok tokens) (h : Program.ofTokens tokens = .ok p) :
    ∃ ts last, tokens = ts ++ [last] ∧ last.isEnd = true ∧ (∀ t ∈ ts, t.kind.Readable)
      ∧ p.Canonical ∧ Spells ts p.slots := by
  obtain ⟨ts, last, rfl, hlast, hts⟩ := Token.scan_readable hscan
  obtain ⟨hcanonical, hspells⟩ :=
    Reader.canonical_of_run (fun t ht => (hts t ht).isEnd_eq_false) hlast h
  exact ⟨ts, last, rfl, hlast, hts, hcanonical, hspells⟩

/-- What a source is read as: a canonical program, written out in tokens that
    a text can spell. -/
theorem readable_of_read {source : String} {p : Program} (h : Program.read source = .ok p) :
    p.Canonical ∧ ∀ k ∈ p.yield, k.Readable := by
  unfold Program.read at h
  split at h
  · next tokens hscan =>
      obtain ⟨ts, last, rfl, hlast, hts, hcanonical, hspells⟩ := spells_of_scan hscan h
      refine ⟨hcanonical, ?_⟩
      intro k hk
      rw [Program.yield, ← (spells_iff.mp hspells).1] at hk
      obtain ⟨t, ht, rfl⟩ := List.mem_map.mp hk
      exact hts t ht
  · exact nomatch h

/-- The texts of a canonical program, with blanks between them, are read as the
    program on one line. -/
theorem read_intercalate_text {p : Program} (hp : p.Canonical)
    (hk : ∀ k ∈ p.yield, k.Printable) :
    Program.read (" ".intercalate (p.map Expr.text)) = .ok (p.map (Expr.onLine 1)) := by
  have hslots : ∀ s ∈ p.slots, s.kind.Printable := fun s hs => hk _ (List.mem_map_of_mem hs)
  have hback : ∀ e ∈ p, e.ScansBack := fun e he =>
    e.scans_write (Expr.forall_slotsSteps hslots e he)
  have hscans := Expr.scans_writeSteps hback Token.stops_nil
  rw [← Expr.toList_intercalate_text] at hscans
  -- the text has no line break, so all its tokens are on line 1
  obtain ⟨ts, hkinds, hlines, hscan⟩ := hscans.scan
  have hspells : Spells ts (Program.slots (p.map (Expr.onLine 1))) := by
    rw [Program.slots_onLine]
    exact spells_onLine hkinds hlines
  have hend : ∀ t ∈ ts, t.isEnd = false := by
    intro t ht
    refine Token.isEnd_eq_false fun he => ?_
    have hmem : t.kind ∈ ts.map Token.kind := List.mem_map_of_mem ht
    rw [hkinds, he] at hmem
    exact hk _ hmem
  rw [Program.read, hscan]
  exact Reader.run_canonical (hp.onLine 1) hspells hend rfl

/-- The tokens of a program are those of its expressions, one after the other. -/
theorem yield_eq_flatMap (p : Program) :
    p.yield = p.flatMap fun e => e.slots.map Slot.kind := by
  rw [Program.yield, Program.slots, Reader.slotsSteps_eq_flatMap, List.map_flatMap]

/-- **Printed programs read back.**  When a source is read as a program, the
    texts of any consecutive expressions of it, with blanks between them, are
    read as these expressions again, apart from their lines, provided their
    numbers are finite. -/
theorem read_text_of_read {source : String} {before run after : Program}
    (hread : Program.read source = .ok (before ++ run ++ after))
    (hfin : ∀ x, TokenKind.number x ∈ Program.yield run → x.isFinite = true) :
    ∃ q, Program.read (" ".intercalate (run.map Expr.text)) = .ok q
      ∧ q.map (Expr.onLine 0) = run.map (Expr.onLine 0) := by
  obtain ⟨hcanonical, hreadable⟩ := readable_of_read hread
  have hprintable : ∀ k ∈ Program.yield run, k.Printable := by
    intro k hk
    have hmem : k ∈ Program.yield (before ++ run ++ after) := by
      rw [yield_eq_flatMap, List.flatMap_append, List.flatMap_append, ← yield_eq_flatMap run]
      exact List.mem_append_left _ (List.mem_append_right _ hk)
    refine (hreadable k hmem).printable ?_
    rintro x rfl
    exact hfin x hk
  refine ⟨_, read_intercalate_text hcanonical.stretch hprintable, ?_⟩
  rw [List.map_map]
  exact List.map_congr_left fun e _ => e.onLine_onLine 1 0

/-- A definition on one line and a call on the next, printed and read back. -/
theorem read_text_definition_then_call :
    let one := Number.ofDigits ['1'] [] 0
    let half := Number.ofDigits ['0'] ['5'] 0
    let definition : Expr :=
      .define "f" (.function ["x"] [.binary .add (.symbol "x" 1) (.literal (.number one) 1) 1] 1) 1
    let call : Expr :=
      .call (.symbol "f" 2)
        [.unary .negate (.literal (.number half) 2) 2, .literal (.string "\"\n") 2] 2
    Program.read "f = \\x \x7b x + 1 \x7d\nf(-0.5, \"\\\"\\n\")" = .ok [definition, call] ∧
      one.isFinite = true ∧ half.isFinite = true ∧
      ∃ q, Program.read (" ".intercalate ([definition, call].map Expr.text)) = .ok q
        ∧ q.map (Expr.onLine 0) = [definition, call].map (Expr.onLine 0) := by
  intro one half definition call
  have hread : Program.read "f = \\x \x7b x + 1 \x7d\nf(-0.5, \"\\\"\\n\")"
      = .ok [definition, call] := rfl
  have hone : one.isFinite = true := by decide +kernel
  have hhalf : half.isFinite = true := by decide +kernel
  have hfin : ∀ x, TokenKind.number x ∈ Program.yield [definition, call] → x.isFinite = true := by
    intro x hx
    have hx : x = one ∨ x = half := by
      simpa [Program.yield, Program.slots, Expr.slotsSteps, Expr.slotsItems, Expr.slots,
        slotsNames, definition, call, Literal.kind, UnaryOp.kind, BinaryOp.kind] using hx
    rcases hx with rfl | rfl
    · exact hone
    · exact hhalf
  exact ⟨hread, hone, hhalf, @read_text_of_read _ [] [definition, call] [] hread hfin⟩

end Scriptlet
