import Mathlib.Data.List.Forall2
import Scriptlet.Program.Read
import Scriptlet.Proofs.Trees

/-! # The grammar of programs

    What a program looks like when its trees are written out token by token
    (`Program.yield`), and which trees the grammar builds (`Program.Canonical`).

    The binary operators stand on a ladder of tiers; above them come unary
    operators, calls and primaries, below them definitions.  An operand sits
    at the tier of its operator or above, and of two operators of one tier
    the left one is applied first, but for `:`, where the right one is.

    Nothing separates the expressions of a sequence.  An expression that
    begins with a minus or a parenthesis is read as going on with the one in
    front of it, so it stands first or not at all. -/

namespace Scriptlet

/-! ## Tiers -/

/-- The binary operators tier by tier, the loosest first. -/
def BinaryOp.ladder : List (List BinaryOp) :=
  [[.and, .or],
   [.equal, .notEqual],
   [.less, .greater, .lessEqual, .greaterEqual],
   [.cons],
   [.concat],
   [.add, .subtract],
   [.multiply, .divide],
   [.power]]

/-- The tier of a binary operator; the loosest one is 1. -/
def BinaryOp.tier (op : BinaryOp) : Nat :=
  BinaryOp.ladder.findIdx (·.contains op) + 1

/-- The tier of unary operators. -/
def unaryTier : Nat := BinaryOp.ladder.length + 1

/-- The tier of calls. -/
def callTier : Nat := unaryTier + 1

/-- The tier of everything that stands for itself. -/
def primaryTier : Nat := callTier + 1

/-- The tier of an expression; definitions are below every operator. -/
def Expr.tier : Expr → Nat
  | .define .. => 0
  | .binary op .. => op.tier
  | .unary .. => unaryTier
  | .call .. => callTier
  | .literal .. | .list .. | .symbol .. | .group .. | .choice .. | .function .. => primaryTier

/-- The least tier of a left operand. -/
def BinaryOp.lhsTier (op : BinaryOp) : Nat :=
  if op = .cons then op.tier + 1 else op.tier

/-- The least tier of a right operand. -/
def BinaryOp.rhsTier (op : BinaryOp) : Nat :=
  if op = .cons then op.tier else op.tier + 1

/-- The tiers of the grammar are the levels that the reader climbs. -/
theorem BinaryOp.tier_eq_level (op : BinaryOp) : op.tier = op.level := by
  cases op <;> rfl

theorem BinaryOp.one_le_tier (op : BinaryOp) : 1 ≤ op.tier :=
  Nat.succ_le_succ (Nat.zero_le _)

/-- Every binary operator binds looser than a unary one. -/
theorem BinaryOp.tier_lt_unaryTier (op : BinaryOp) : op.tier < unaryTier := by
  cases op <;> decide

/-! ## The written-out form -/

/-- The token that stands for a unary operator. -/
def UnaryOp.kind : UnaryOp → TokenKind
  | .negate => .mark .minus
  | .not => .keyword .not

/-- The token that stands for a binary operator. -/
def BinaryOp.kind : BinaryOp → TokenKind
  | .and => .keyword .and
  | .or => .keyword .or
  | .equal => .mark .equalEqual
  | .notEqual => .mark .slashEqual
  | .less => .mark .less
  | .greater => .mark .greater
  | .lessEqual => .mark .lessEqual
  | .greaterEqual => .mark .greaterEqual
  | .cons => .mark .colon
  | .concat => .mark .dotDot
  | .add => .mark .plus
  | .subtract => .mark .minus
  | .multiply => .mark .star
  | .divide => .mark .slash
  | .power => .mark .caret

/-- A token is read as an operator exactly when it is the token that the operator is
    written as. -/
theorem TokenKind.binaryOp?_eq_some_iff {k : TokenKind} {op : BinaryOp} :
    k.binaryOp? = some op ↔ k = op.kind := by
  constructor
  · intro h
    unfold TokenKind.binaryOp? at h
    split at h <;> cases h <;> rfl
  · rintro rfl
    cases op <;> rfl

/-- The token that stands for a literal. -/
def Literal.kind : Literal → TokenKind
  | .nil => .keyword .nil
  | .bool true => .keyword .true
  | .bool false => .keyword .false
  | .number x => .number x
  | .string s => .string s

/-- A place for a token in a written-out tree.  The token that names a node
    gives the node its line. -/
structure Slot where
  kind : TokenKind
  line? : Option Nat

namespace Slot

/-- A token that names no node. -/
def plain (kind : TokenKind) : Slot := ⟨kind, none⟩

/-- A token that names a node of the given line. -/
def naming (kind : TokenKind) (line : Nat) : Slot := ⟨kind, some line⟩

@[simp] theorem kind_plain (kind : TokenKind) : (plain kind).kind = kind := rfl

@[simp] theorem kind_naming (kind : TokenKind) (line : Nat) : (naming kind line).kind = kind := rfl

end Slot

/-- Names separated by commas. -/
def slotsNames : List String → List Slot
  | [] => []
  | [p] => [.plain (.identifier p)]
  | p :: q :: ps => .plain (.identifier p) :: .plain (.mark .comma) :: slotsNames (q :: ps)

namespace Expr

mutual

/-- An expression written out. -/
def slots : Expr → List Slot
  | .literal value n => [.naming value.kind n]
  | .list items n =>
    .naming (.mark .leftBracket) n :: slotsItems items ++ [.plain (.mark .rightBracket)]
  | .symbol name n => [.naming (.identifier name) n]
  | .define name value n =>
    .plain (.identifier name) :: .naming (.mark .equal) n :: value.slots
  | .group inner n =>
    .naming (.mark .leftParen) n :: inner.slots ++ [.plain (.mark .rightParen)]
  | .unary op operand n => .naming op.kind n :: operand.slots
  | .binary op lhs rhs n => lhs.slots ++ .naming op.kind n :: rhs.slots
  | .choice test yes no n =>
    .naming (.keyword .ifWord) n :: test.slots
      ++ .plain (.mark .leftBrace) :: slotsSteps yes
      ++ .plain (.mark .rightBrace) :: .plain (.keyword .elseWord)
      :: .plain (.mark .leftBrace) :: slotsSteps no ++ [.plain (.mark .rightBrace)]
  | .function params body n =>
    .naming (.mark .backslash) n :: slotsNames params
      ++ .plain (.mark .leftBrace) :: slotsSteps body ++ [.plain (.mark .rightBrace)]
  | .call callee args n =>
    callee.slots ++ .naming (.mark .leftParen) n :: slotsItems args
      ++ [.plain (.mark .rightParen)]

/-- Expressions separated by commas. -/
def slotsItems : List Expr → List Slot
  | [] => []
  | [e] => e.slots
  | e :: f :: es => e.slots ++ .plain (.mark .comma) :: slotsItems (f :: es)

/-- Expressions one after the other. -/
def slotsSteps : List Expr → List Slot
  | [] => []
  | e :: es => e.slots ++ slotsSteps es

end

end Expr

/-- A program written out. -/
def Program.slots (p : Program) : List Slot :=
  Expr.slotsSteps p

/-- The kinds of token of a program written out. -/
def Program.yield (p : Program) : List TokenKind :=
  p.slots.map Slot.kind

/-- Every node of a program has the line of the token that names it, the
    tokens being those of the program written out. -/
def Program.LinesFrom (p : Program) (ts : List Token) : Prop :=
  List.Forall₂ (fun (t : Token) (s : Slot) => ∀ n ∈ s.line?, t.line = n) ts p.slots

/-- Whether a token can stand in a slot. -/
def Slot.Fits (t : Token) (s : Slot) : Prop :=
  t.kind = s.kind ∧ ∀ n ∈ s.line?, t.line = n

/-- Whether tokens stand in slots, one in each. -/
abbrev Spells : List Token → List Slot → Prop :=
  List.Forall₂ Slot.Fits

/-- A slot without a line takes every token of its kind. -/
theorem Slot.fits_plain {t : Token} {k : TokenKind} : (plain k).Fits t ↔ t.kind = k := by
  simp [Fits, plain]

/-- A slot with a line takes the tokens of its kind on that line. -/
theorem Slot.fits_naming {t : Token} {k : TokenKind} {n : Nat} :
    (naming k n).Fits t ↔ t.kind = k ∧ t.line = n := by
  simp [Fits, naming]

/-- Tokens spell slots when they have their kinds and their lines. -/
theorem spells_iff {ts : List Token} {ss : List Slot} :
    Spells ts ss ↔ ts.map Token.kind = ss.map Slot.kind ∧
      List.Forall₂ (fun (t : Token) (s : Slot) => ∀ n ∈ s.line?, t.line = n) ts ss := by
  rw [← List.forall₂_eq_eq_eq, List.forall₂_map_left_iff, List.forall₂_map_right_iff]
  constructor
  · intro h
    exact ⟨h.imp fun _ _ ht => ht.1, h.imp fun _ _ ht => ht.2⟩
  · rintro ⟨hk, hl⟩
    induction hk with
    | nil => exact .nil
    | cons ht _ ih =>
        obtain ⟨hn, hl⟩ := List.forall₂_cons.mp hl
        exact .cons ⟨ht, hn⟩ (ih hl)

/-- Tokens spell two stretches of slots by spelling the one and then the
    other. -/
theorem spells_append {ts : List Token} {as bs : List Slot} :
    Spells ts (as ++ bs) ↔ ∃ us vs, ts = us ++ vs ∧ Spells us as ∧ Spells vs bs := by
  constructor
  · intro h
    refine ⟨ts.take as.length, ts.drop as.length, (List.take_append_drop _ _).symm, ?_, ?_⟩
    · exact List.forall₂_take_append _ _ _ h
    · exact List.forall₂_drop_append _ _ _ h
  · rintro ⟨us, vs, rfl, hu, hv⟩
    exact List.rel_append hu hv

/-! ## Canonical trees -/

/-- The tokens that go on with an expression in front of them although they
    can begin one. -/
def TokenKind.joins : TokenKind → Bool
  | .mark .minus | .mark .leftParen => true
  | _ => false

/-- Only an operator or an opening parenthesis goes on with an expression in front. -/
theorem TokenKind.joins_eq_false {k : TokenKind} (hop : k.binaryOp? = none)
    (hp : k ≠ .mark .leftParen) : k.joins = false := by
  unfold TokenKind.joins
  split
  · exact nomatch hop
  · exact absurd rfl hp
  · rfl

/-- Whether an expression begins with a token that goes on with an
    expression in front of it. -/
def Expr.joins (e : Expr) : Bool :=
  e.slots.head?.any (·.kind.joins)

/-- No expression of the sequence but the first begins with a token that
    goes on with the one in front. -/
def Separated (es : List Expr) : Prop :=
  ∀ e ∈ es.tail, e.joins = false

namespace Expr

mutual

/-- The operands sit at their tiers, blocks have expressions, and sequences
    are separated. -/
def Canonical : Expr → Prop
  | .literal .. | .symbol .. => True
  | .list items _ => CanonicalAll items
  | .define _ value _ => value.Canonical
  | .group inner _ => inner.Canonical
  | .unary _ operand _ => operand.Canonical ∧ unaryTier ≤ operand.tier
  | .binary op lhs rhs _ =>
    lhs.Canonical ∧ rhs.Canonical ∧ op.lhsTier ≤ lhs.tier ∧ op.rhsTier ≤ rhs.tier
  | .choice test yes no _ =>
    test.Canonical ∧ (yes ≠ [] ∧ CanonicalAll yes ∧ Separated yes)
      ∧ (no ≠ [] ∧ CanonicalAll no ∧ Separated no)
  | .function _ body _ => body ≠ [] ∧ CanonicalAll body ∧ Separated body
  | .call callee args _ => callee.Canonical ∧ callTier ≤ callee.tier ∧ CanonicalAll args

/-- Every expression is canonical. -/
def CanonicalAll : List Expr → Prop
  | [] => True
  | e :: es => e.Canonical ∧ CanonicalAll es

end

/-- Expressions are canonical together when each one is. -/
theorem canonicalAll_iff {es : List Expr} : CanonicalAll es ↔ ∀ e ∈ es, e.Canonical := by
  induction es with
  | nil => simp [CanonicalAll]
  | cons e es ih => simp [CanonicalAll, ih]

end Expr

/-- Every expression of the program is canonical, and they are separated. -/
def Program.Canonical (p : Program) : Prop :=
  Expr.CanonicalAll p ∧ Separated p

end Scriptlet
