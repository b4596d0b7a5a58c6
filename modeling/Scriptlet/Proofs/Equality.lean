import Scriptlet.Eval.Operator
import Scriptlet.Proofs.Likeness

/-! # Equality of values

    Equality is symmetric and transitive, and a value is equal to itself unless
    there is a NaN in it.

      * Two doubles are equal when they are the same up to the sign of zero and no
        NaN (`Number.beq_iff`), from which the laws for doubles follow.
      * Lists compare their lengths, which they keep, and then their items as far
        as both reach (`Value.equalItems_iff`).  The length is right for every list
        that was made with the operations on lists (`Items.Built.counted`), so this
        is a comparison of all items (`Value.equal_list_iff`).

    The laws for values follow by induction over what is inside of lists
    (`Value.Inside`).  Functions compare by identity, so what they have captured
    does not matter. -/

namespace Scriptlet

/-! ## Doubles -/

namespace Number

open Float.Model (UnpackedFloat)

/-- A double without the sign of a zero. -/
def signless : UnpackedFloat → UnpackedFloat
  | .zero _ => .zero .positive
  | u => u

theorem sign_eq_of_compare {s t : UnpackedFloat.Sign} (h : compare s t = .eq) : s = t := by
  cases s with
  | negative =>
      cases t with
      | negative => rfl
      | positive => cases h
  | positive =>
      cases t with
      | negative => cases h
      | positive => rfl

/-- Comparison finds two unpacked doubles equal when they are the same up to the
    sign of zero; a NaN is not equal to anything. -/
theorem compare_eq_iff (u v : UnpackedFloat) :
    u.compare v = some .eq ↔ u.isNaN = false ∧ signless u = signless v := by
  constructor
  · intro h
    cases u with
    | notANumber => cases h
    | infinity s =>
        cases v with
        | infinity t =>
            obtain rfl : s = t := sign_eq_of_compare (Option.some.inj h)
            exact ⟨rfl, rfl⟩
        | _ => cases s <;> cases h
    | zero s =>
        cases v with
        | zero t => exact ⟨rfl, rfl⟩
        | notANumber => cases h
        | infinity t | finite t => cases t <;> cases h
    | finite s m e hm =>
        cases v with
        | finite t m' e' hm' =>
            have hparts : (compare e e').then (compare m m') = .eq ∧ s = t := by
              cases s with
              | negative =>
                  cases t with
                  | negative => exact ⟨Ordering.swap_eq_eq.mp (Option.some.inj h), rfl⟩
                  | positive => cases h
              | positive =>
                  cases t with
                  | negative => cases h
                  | positive => exact ⟨Option.some.inj h, rfl⟩
            obtain ⟨hcompare, rfl⟩ := hparts
            rw [Ordering.then_eq_eq, Int.compare_eq_eq, Nat.compare_eq_eq] at hcompare
            obtain ⟨rfl, rfl⟩ := hcompare
            exact ⟨rfl, rfl⟩
        | infinity t => cases s <;> cases t <;> cases h
        | _ => cases s <;> cases h
  · rintro ⟨hnumber, hsame⟩
    cases u with
    | notANumber => cases hnumber
    | infinity s =>
        cases v with
        | infinity t =>
            cases hsame
            cases s <;> rfl
        | _ => cases hsame
    | zero s =>
        cases v with
        | zero t => rfl
        | _ => cases hsame
    | finite s m e hm =>
        cases v with
        | finite t m' e' hm' =>
            cases hsame
            have hcompare : (compare e e).then (compare m m) = .eq := by
              rw [Ordering.then_eq_eq, Int.compare_eq_eq, Nat.compare_eq_eq]
              exact ⟨rfl, rfl⟩
            cases s with
            | negative => exact congrArg (some ·.swap) hcompare
            | positive => exact congrArg some hcompare
        | _ => cases hsame

/-- The sign of a zero does not matter for being a NaN. -/
theorem isNaN_signless (u : UnpackedFloat) : (signless u).isNaN = u.isNaN := by
  cases u <;> rfl

/-- Two doubles are equal when they are the same up to the sign of zero, and no
    NaN. -/
theorem beq_iff (x y : Float) :
    (x == y) = true ↔
      x.isNaN = false ∧ signless x.toModel.unpack = signless y.toModel.unpack := by
  have hcompare : (x == y) = (x.toModel.unpack.compare y.toModel.unpack == some .eq) := rfl
  rw [hcompare, beq_iff_eq]
  exact compare_eq_iff x.toModel.unpack y.toModel.unpack

/-- A NaN equals nothing. -/
theorem isNaN_eq_of_beq {x y : Float} (h : (x == y) = true) : y.isNaN = false := by
  obtain ⟨hx, hxy⟩ := (beq_iff x y).mp h
  show y.toModel.unpack.isNaN = false
  rw [← isNaN_signless, ← hxy, isNaN_signless]
  exact hx

/-- Equality of numbers goes both ways. -/
theorem beq_comm (x y : Float) : (x == y) = (y == x) := by
  have hswap : ∀ {x y : Float}, (x == y) = true → (y == x) = true := by
    intro x y h
    exact (beq_iff y x).mpr ⟨isNaN_eq_of_beq h, ((beq_iff x y).mp h).2.symm⟩
  exact Bool.eq_iff_iff.mpr ⟨hswap, hswap⟩

/-- Numbers that equal the same number equal each other. -/
theorem beq_trans {x y z : Float} (hxy : (x == y) = true) (hyz : (y == z) = true) :
    (x == z) = true := by
  rw [beq_iff] at hxy hyz ⊢
  exact ⟨hxy.1, hxy.2.trans hyz.2⟩

/-- Every number equals itself, except a NaN. -/
theorem beq_self_iff (x : Float) : (x == x) = true ↔ x.isNaN = false := by
  rw [beq_iff]
  exact and_iff_left rfl

end Number

/-! ## Lists -/

/-- A list that was made with the operations on lists. -/
inductive Items.Built {α : Type} : Items α → Prop where
  | empty : Built .empty
  | ofList (as : List α) : Built (.ofList as)
  | cons (a : α) {xs : Items α} : Built xs → Built (xs.cons a)
  | rest {xs ys : Items α} : Built xs → xs.rest? = some ys → Built ys

/-- However a list was made, it keeps its right length. -/
theorem Items.Built.counted {α : Type} {xs : Items α} (h : xs.Built) : xs.Counted := by
  induction h with
  | empty => exact counted_empty
  | ofList as => exact counted_ofList as
  | cons a _ ih => exact ih.cons a
  | rest _ hrest ih => exact ih.rest hrest

/-! ## Values -/

namespace Callable

theorem isSame_comm (f g : Callable Value) : f.isSame g = g.isSame f := by
  cases f with
  | builtin b =>
      cases g with
      | builtin b' => exact BEq.comm
      | closure c => rfl
  | closure c =>
      cases g with
      | builtin b => rfl
      | closure c' => exact BEq.comm

/-- A function is the same as itself. -/
theorem isSame_self (f : Callable Value) : f.isSame f = true := by
  cases f with
  | builtin b => exact beq_self_eq_true b
  | closure c => exact beq_self_eq_true c.identity

/-- To be the same function is transitive. -/
theorem isSame_trans {f g k : Callable Value} (hfg : f.isSame g = true)
    (hgk : g.isSame k = true) : f.isSame k = true := by
  cases f with
  | builtin b =>
      cases g with
      | builtin b' =>
          obtain rfl : b = b' := eq_of_beq hfg
          exact hgk
      | closure c => cases hfg
  | closure c =>
      cases g with
      | builtin b => cases hfg
      | closure c' =>
          cases k with
          | builtin b => cases hgk
          | closure c'' => exact beq_iff_eq.mpr ((eq_of_beq hfg).trans (eq_of_beq hgk))

end Callable

namespace Value

/-- A value is another one, or stands in its lists, at any depth.  What a function
    has captured is not inside of it. -/
inductive Inside (w : Value) : Value → Prop where
  | self : Inside w w
  | item {items : Items Value} {v : Value} : v ∈ items.toList → Inside w v →
      Inside w (.list items)

/-- There is a NaN in a value. -/
def HoldsNaN (v : Value) : Prop :=
  ∃ x : Float, x.isNaN = true ∧ Inside (.number x) v

/-- All lists in a value were made with the operations on lists. -/
def Built (v : Value) : Prop :=
  ∀ items : Items Value, Inside (.list items) v → items.Built

variable {items xs ys : Items Value} {a b c : Value}

theorem holdsNaN_number (x : Float) : HoldsNaN (.number x) ↔ x.isNaN = true := by
  constructor
  · rintro ⟨y, hy, hinside⟩
    cases hinside
    exact hy
  · exact fun hx => ⟨x, hx, .self⟩

/-- There is a NaN in a list when there is one in an item. -/
theorem holdsNaN_list : HoldsNaN (.list items) ↔ ∃ v ∈ items.toList, HoldsNaN v := by
  constructor
  · rintro ⟨x, hx, hinside⟩
    cases hinside with
    | item hv hinside => exact ⟨_, hv, x, hx, hinside⟩
  · rintro ⟨v, hv, x, hx, hinside⟩
    exact ⟨x, hx, .item hv hinside⟩

/-- Only numbers and lists can hold a NaN. -/
theorem not_holdsNaN {v : Value} (hn : v.number? = none) (hl : v.list? = none) :
    ¬ HoldsNaN v := by
  rintro ⟨x, -, hinside⟩
  cases hinside with
  | self => cases hn
  | item => cases hl

/-- Without lists there is nothing to be built. -/
theorem built_of_not_list (h : a.list? = none) : a.Built := by
  intro items hinside
  cases hinside with
  | self => cases h
  | item => cases h

theorem built_list (h : items.Built) (hitems : ∀ v ∈ items.toList, v.Built) :
    Built (.list items) := by
  intro inner hinside
  cases hinside with
  | self => exact h
  | item hv hinside => exact hitems _ hv inner hinside

/-- The size that a built list keeps is its number of items. -/
theorem Built.counted (h : Built (.list items)) : items.Counted :=
  (h items .self).counted

theorem Built.item (h : Built (.list items)) {v : Value} (hv : v ∈ items.toList) : Built v :=
  fun _ hinside => h _ (.item hv hinside)

/-- Items in the same place of two lists are equal. -/
def Agree (vs ws : List Value) : Prop :=
  ∀ (i : Nat) (v w : Value), vs[i]? = some v → ws[i]? = some w → v.equal w = true

/-- Items are compared place by place, as far as both lists reach. -/
theorem equalItems_iff (vs ws : List Value) :
    equalItems vs ws = true ↔ Agree vs ws := by
  induction vs generalizing ws with
  | nil =>
      have hnil : equalItems [] ws = true := by
        cases ws <;> rfl
      refine iff_of_true hnil ?_
      intro i v w hv
      cases hv
  | cons v vs ih =>
      cases ws with
      | nil =>
          refine iff_of_true rfl ?_
          intro i v w _ hw
          cases hw
      | cons w ws =>
          rw [equalItems, Bool.and_eq_true, ih]
          constructor
          · rintro ⟨hfirst, hrest⟩ i v' w' hv hw
            cases i with
            | zero =>
                cases hv
                cases hw
                exact hfirst
            | succ i => exact hrest i v' w' hv hw
          · intro h
            exact ⟨h 0 v w rfl rfl, fun i => h (i + 1)⟩

/-- Why two values are equal. -/
inductive Equates : Value → Value → Prop where
  | nil : Equates .nil .nil
  | bool (b : Bool) : Equates (.bool b) (.bool b)
  | number {x y : Float} : (x == y) = true → Equates (.number x) (.number y)
  | string (s : String) : Equates (.string s) (.string s)
  | list {xs ys : Items Value} : xs.size = ys.size → Agree xs.toList ys.toList →
      Equates (.list xs) (.list ys)
  | function {f g : Callable Value} : f.isSame g = true → Equates (.function f) (.function g)

/-- Equality holds for these reasons and for no other. -/
theorem equal_iff_equates : a.equal b = true ↔ Equates a b := by
  constructor
  · intro h
    cases a <;> cases b <;> simp only [Value.equal] at h
    case nil.nil => exact .nil
    case bool.bool b b' =>
      obtain rfl := eq_of_beq h
      exact .bool b
    case number.number x y => exact .number h
    case string.string s t =>
      obtain rfl := eq_of_beq h
      exact .string s
    case list.list xs ys =>
      rw [Bool.and_eq_true, beq_iff_eq, equalItems_iff] at h
      exact .list h.1 h.2
    case function.function f g => exact .function h
    all_goals cases h
  · intro h
    cases h with
    | nil => rw [Value.equal]
    | bool b => rw [Value.equal, beq_self_eq_true]
    | number h => rw [Value.equal, h]
    | string s => rw [Value.equal, beq_self_eq_true]
    | list hsize hitems =>
        rw [Value.equal, Bool.and_eq_true, beq_iff_eq, equalItems_iff]
        exact ⟨hsize, hitems⟩
    | function h => rw [Value.equal, h]

/-- **Equality goes both ways.** -/
theorem equal_symm (h : a.equal b = true) : b.equal a = true := by
  rw [equal_iff_equates] at h ⊢
  induction a using Value.induction generalizing b with
  | nil =>
      cases h
      exact .nil
  | bool x =>
      cases h
      exact .bool x
  | number x =>
      cases h with
      | @number _ y hxy => exact .number ((Number.beq_comm y x).trans hxy)
  | string s =>
      cases h
      exact .string s
  | list xs ih =>
      cases h with
      | list hsize hitems =>
          refine .list hsize.symm fun i w v hw hv => ?_
          have hvw := equal_iff_equates.mp (hitems i v w hv hw)
          exact equal_iff_equates.mpr (ih v (List.mem_of_getElem? hv) hvw)
  | builtin f | closure f =>
      cases h with
      | @function _ g hfg => exact .function ((Callable.isSame_comm g _).trans hfg)

/-- Equality is transitive.  Items that stand in the same place of the outer two
    lists have one between them, for the list between is as long as the first. -/
theorem equal_trans (ha : a.Built) (hb : b.Built) (hab : a.equal b = true)
    (hbc : b.equal c = true) : a.equal c = true := by
  induction a using Value.induction generalizing b c with
  | list xs ih =>
      rw [equal_iff_equates] at hab hbc ⊢
      cases hab with
      | @list _ ys hsize hitems =>
          cases hbc with
          | @list _ zs hsize' hitems' =>
              refine .list (hsize.trans hsize') fun i x z hx hz => ?_
              have hi : i < ys.toList.length := by
                have hlt := (List.getElem?_eq_some_iff.mp hx).1
                rwa [← ha.counted, hsize, hb.counted] at hlt
              obtain ⟨y, hy⟩ : ∃ y, ys.toList[i]? = some y := ⟨_, List.getElem?_eq_getElem hi⟩
              have hxmem := List.mem_of_getElem? hx
              exact ih x hxmem (ha.item hxmem) (hb.item (List.mem_of_getElem? hy))
                (hitems i x y hx hy) (hitems' i y z hy hz)
  | nil | bool x | string s =>
      rw [equal_iff_equates] at hab
      cases hab
      exact hbc
  | number x =>
      rw [equal_iff_equates] at hab hbc ⊢
      cases hab with
      | number hxy =>
          cases hbc with
          | number hyz => exact .number (Number.beq_trans hxy hyz)
  | builtin f | closure f =>
      rw [equal_iff_equates] at hab hbc ⊢
      cases hab with
      | function hfg =>
          cases hbc with
          | function hgk => exact .function (Callable.isSame_trans hfg hgk)

/-- Items of a list agree with themselves when each is equal to itself. -/
theorem agree_self_iff (vs : List Value) : Agree vs vs ↔ ∀ v ∈ vs, v.equal v = true := by
  constructor
  · intro h v hv
    obtain ⟨i, hi⟩ := List.mem_iff_getElem?.mp hv
    exact h i v v hi hi
  · intro h i v w hv hw
    obtain rfl : v = w := Option.some.inj (hv.symm.trans hw)
    exact h v (List.mem_of_getElem? hv)

/-- A value is equal to itself unless there is a NaN in it. -/
theorem equal_self_iff (v : Value) : v.equal v = true ↔ ¬ v.HoldsNaN := by
  induction v using Value.induction with
  | number x => rw [Value.equal, Number.beq_self_iff, holdsNaN_number, Bool.not_eq_true]
  | list items ih =>
      rw [Value.equal, Bool.and_eq_true, equalItems_iff, agree_self_iff, holdsNaN_list,
        and_iff_right (beq_self_eq_true items.size)]
      constructor
      · rintro h ⟨v, hv, hnan⟩
        exact (ih v hv).mp (h v hv) hnan
      · exact fun h v hv => (ih v hv).mpr fun hnan => h ⟨v, hv, hnan⟩
  | nil => exact iff_of_true (equal_iff_equates.mpr .nil) (not_holdsNaN rfl rfl)
  | bool b => exact iff_of_true (equal_iff_equates.mpr (.bool b)) (not_holdsNaN rfl rfl)
  | string s => exact iff_of_true (equal_iff_equates.mpr (.string s)) (not_holdsNaN rfl rfl)
  | builtin f | closure f =>
      refine iff_of_true (equal_iff_equates.mpr (.function ?_)) (not_holdsNaN rfl rfl)
      exact Callable.isSame_self _

/-- Values of different types are not equal. -/
theorem typeName_eq_of_equal (h : a.equal b = true) : a.typeName = b.typeName := by
  cases equal_iff_equates.mp h <;> rfl

/-- Lists are equal when they are as long as each other and agree in every place. -/
theorem equal_list_iff (hx : xs.Counted) (hy : ys.Counted) :
    (Value.list xs).equal (.list ys) = true ↔
      xs.toList.length = ys.toList.length ∧ Agree xs.toList ys.toList := by
  rw [Value.equal, Bool.and_eq_true, beq_iff_eq, equalItems_iff, hx, hy]

/-- **Equality is a partial equivalence.**  It is symmetric and transitive; a value is
    equal to itself exactly when there is no NaN in it, as a number or in its lists at
    any depth; equal values are of one type, and lists are equal exactly when they are
    as long as each other and their items are equal place by place.  The operators
    for equality and inequality never fail, and one is the negation of the other. -/
theorem equality_partial_equivalence :
    (∀ a b : Value, a.equal b = b.equal a) ∧
    (∀ a b c : Value, a.Built → b.Built →
      a.equal b = true → b.equal c = true → a.equal c = true) ∧
    (∀ a : Value, a.equal a = true ↔ ¬ a.HoldsNaN) ∧
    (∀ a b : Value, a.equal b = true → a.typeName = b.typeName) ∧
    (∀ xs ys : Items Value, xs.Built → ys.Built →
      ((Value.list xs).equal (.list ys) = true ↔
        xs.toList.length = ys.toList.length ∧
          ∀ (i : Nat) (x y : Value), xs.toList[i]? = some x → ys.toList[i]? = some y →
            x.equal y = true)) ∧
    (∀ (a b : Value) (expr : Expr) (line : Nat),
      BinaryOp.equal.apply a b expr line = .ok (.bool (a.equal b)) ∧
        BinaryOp.notEqual.apply a b expr line = .ok (.bool (!a.equal b))) := by
  refine ⟨?_, ?_, equal_self_iff, ?_, ?_, ?_⟩
  · exact fun a b => Bool.eq_iff_iff.mpr ⟨equal_symm, equal_symm⟩
  · exact fun a b c ha hb => equal_trans ha hb
  · exact fun a b => typeName_eq_of_equal
  · exact fun xs ys hx hy => equal_list_iff hx.counted hy.counted
  · exact fun a b expr line => ⟨rfl, rfl⟩

/-- The two zeros are equal, also inside of lists, however these were built. -/
theorem equality_partial_equivalence_zeros :
    let inner : Value := .ofList [.string "a"]
    let xs : Items Value := .ofList [.number 0.0, inner]
    let ys : Items Value := .ofList [.number (-0.0), inner]
    let zs : Items Value := (Items.ofList [inner]).cons (.number 0.0)
    (Value.list xs).Built ∧ (Value.list ys).Built
      ∧ (Value.list xs).equal (.list ys) = true ∧ (Value.list ys).equal (.list zs) = true
      ∧ (Value.list xs).equal (.list zs) = true
      ∧ (Value.list xs).typeName = (Value.list ys).typeName
      ∧ xs.Built ∧ ys.Built ∧ xs.toList.length = ys.toList.length := by
  intro inner xs ys zs
  have hinner : inner.Built := by
    refine built_list (.ofList _) ?_
    exact List.forall_mem_singleton.mpr (built_of_not_list rfl)
  have hlist : ∀ {items : Items Value} {x : Float}, items.Built →
      items.toList = [.number x, inner] → (Value.list items).Built := by
    intro items x hbuilt heq
    refine built_list hbuilt ?_
    rw [heq]
    exact List.forall_mem_cons.mpr
      ⟨built_of_not_list rfl, List.forall_mem_singleton.mpr hinner⟩
  have hxs : xs.Built := .ofList _
  have hys : ys.Built := .ofList _
  have hxy : (Value.list xs).equal (.list ys) = true := rfl
  have hyz : (Value.list ys).equal (.list zs) = true := rfl
  obtain ⟨-, htrans, -, htype, hplaces, -⟩ := equality_partial_equivalence
  have hxz := htrans _ _ _ (hlist hxs rfl) (hlist hys rfl) hxy hyz
  exact ⟨hlist hxs rfl, hlist hys rfl, hxy, hyz, hxz, htype _ _ hxy, hxs, hys,
    ((hplaces xs ys hxs hys).mp hxy).1⟩

end Value

end Scriptlet
