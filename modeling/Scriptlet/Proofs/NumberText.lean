import Mathlib
import Scriptlet.Number.Read
import Scriptlet.Number.Write

/-! # Numbers read back from their text

    A finite double is written as a decimal that lies in the interval of reals
    rounding to it, and a decimal in that interval is read as the double:

      * `toBits_ofBits`: a double that is no NaN keeps its bits,
      * `eq_ofMagnitude`, `neg_ofMagnitude`: a finite double is a sign and a
        magnitude, and negation adds the sign,
      * `nearestBits_of_contains`: what lies in the interval rounds to the double,
      * `holds_shortest`: the search for the shortest decimal ends in the interval,
      * `magnitudeText_eq`: the text is made of digits around a point, and these
        digits are read as the double.

    All of it is exact arithmetic on natural numbers. -/

namespace Scriptlet.Number

open Float.Model.UnpackedFloat
open Float.Model (Format)

/-! ## Bits of a double -/

theorem toBitVec_ofBitVec (s : BitVec 1) : (Sign.ofBitVec s).toBitVec = s := by
  revert s
  decide

/-- Put together again, the three fields of a word are the word. -/
theorem packComponents_unpack (b : BitVec 64) :
    packComponents Format.binary64 (Sign.ofBitVec (@unpackSign Format.binary64 b))
      (@unpackExponent Format.binary64 b) (@unpackMantissa Format.binary64 b) = b := by
  apply BitVec.eq_of_getLsbD_eq
  intro i hi
  have hi64 : i < 64 := hi
  rw [packComponents, toBitVec_ofBitVec, BitVec.getLsbD_append, BitVec.getLsbD_append]
  simp only [unpackSign, unpackExponent, unpackMantissa]
  by_cases hm : i < 52
  · simp [hm]
  · by_cases he : i < 63
    · have hlt : i - 52 < 11 := by omega
      have hsum : 52 + (i - 52) = i := by omega
      simp [hm, hlt, hsum]
    · obtain rfl : i = 63 := by omega
      simp

/-- A subnormal double has its significand as mantissa, and the least exponent. -/
theorem pack_subnormal (sign : Sign) (m : BitVec 52) (hm : 0 < m.toNat) :
    pack Format.binary64 (.finite sign m.toNat (-1074) hm)
      = packComponents Format.binary64 sign 0 m := by
  have hlog : m.toNat.log2 < 52 := (Nat.log2_lt (Nat.ne_of_gt hm)).mpr m.isLt
  have hbits : ¬ m.toNat.log2 + 1 = Format.binary64.mantissaBits := by
    show ¬ m.toNat.log2 + 1 = 53
    omega
  rw [pack, if_neg (by decide), if_neg hbits, BitVec.ofNat_toNat]
  rfl

theorem toNat_one_append (m : BitVec 52) : (1#1 ++ m).toNat = 2 ^ 52 + m.toNat := by
  rw [BitVec.toNat_append, BitVec.toNat_ofNat, ← Nat.shiftLeft_add_eq_or_of_lt m.isLt]
  rfl

/-- The significand of a normal double has one bit more than the mantissa. -/
theorem pack_normal (sign : Sign) (e : BitVec 11) (m : BitVec 52) (he : e ≠ -1#11)
    (h : 0 < (1#1 ++ m).toNat) :
    pack Format.binary64 (.finite sign (1#1 ++ m).toNat (e.toNat - 1075) h)
      = packComponents Format.binary64 sign e m := by
  have hmlt := m.isLt
  have helt : e.toNat < 2047 := by
    have hlt := e.isLt
    have hne : e.toNat ≠ 2047 := fun hc => he (BitVec.eq_of_toNat_eq hc)
    omega
  have hlog : (1#1 ++ m).toNat.log2 = 52 := by
    rw [toNat_one_append, Nat.log2_eq_iff (by omega)]
    omega
  have hbiased : ((e.toNat : Int) - 1075 + Format.binary64.exponentBias
      + Format.binary64.mantissaBitsWithoutImplicit).toNat = e.toNat := by
    show ((e.toNat : Int) - 1075 + (1023 : Nat) + (52 : Nat)).toNat = e.toNat
    omega
  have hlow : BitVec.ofNat 52 (1#1 ++ m).toNat = m := by
    apply BitVec.eq_of_toNat_eq
    rw [toNat_one_append, BitVec.toNat_ofNat, Nat.add_mod_left, Nat.mod_eq_of_lt hmlt]
  have hnormal : 52 + 1 = Format.binary64.mantissaBits := rfl
  have hfinite : ¬ 2 ^ Format.binary64.exponentBits ≤ e.toNat + 1 := by
    show ¬ 2048 ≤ e.toNat + 1
    omega
  rw [pack, hlog, hbiased, if_neg hfinite, if_pos hnormal, hlow, BitVec.ofNat_toNat]
  rfl

/-- Unpacking loses nothing, unless the word is an infinity or a NaN. -/
theorem pack_unpack {b : BitVec 64} (h : @unpackExponent Format.binary64 b ≠ -1#_) :
    pack Format.binary64 (unpack Format.binary64 b) = b := by
  refine Eq.trans ?_ (packComponents_unpack b)
  rw [unpack, if_neg h]
  split
  · next h0 =>
      split
      · next hm => rw [h0, hm]; rfl
      · rw [h0]
        exact pack_subnormal ..
  · exact pack_normal _ _ _ h _

/-- The exponent is in the eleven bits above the mantissa. -/
theorem toNat_unpackExponent (b : BitVec 64) :
    (@unpackExponent Format.binary64 b).toNat = b.toNat / 2 ^ 52 % 2 ^ 11 := by
  simp [unpackExponent, Nat.shiftRight_eq_div_pow]

theorem unpackExponent_ne_of_toNat {b : BitVec 64} (h : b.toNat / 2 ^ 52 % 2 ^ 11 ≠ 2047) :
    @unpackExponent Format.binary64 b ≠ -1#_ := by
  intro hc
  have hn := congrArg BitVec.toNat hc
  rw [toNat_unpackExponent] at hn
  exact h hn

/-- A finite double keeps its bits. -/
theorem toBits_ofBits {b : UInt64} (h : b.toNat / 2 ^ 52 % 2 ^ 11 ≠ 2047) :
    (Float.ofBits b).toBits = b ∧ (Float.ofBits b).isNaN = false := by
  have hexp : @unpackExponent Format.binary64 b.toBitVec ≠ -1#_ := unpackExponent_ne_of_toNat h
  have hbits : (Float.ofBits b).toBits = b := by
    show UInt64.ofBitVec (pack Format.binary64 (unpack Format.binary64 b.toBitVec)) = b
    rw [pack_unpack hexp]
  refine ⟨hbits, ?_⟩
  show (unpack Format.binary64 (Float.ofBits b).toBits.toBitVec).isNaN = false
  rw [hbits, unpack, if_neg hexp]
  split
  · split <;> rfl
  · rfl

/-- Below the infinite one, a magnitude with a sign is a number with just these bits. -/
theorem ofMagnitude_finite {bits : Nat} (hfin : bits < infinityBits) (negative : Bool) :
    (ofMagnitude negative bits).toBits.toNat = (if negative then signBit + bits else bits)
      ∧ (ofMagnitude negative bits).isNaN = false := by
  have hb : bits < 2047 * 2 ^ 52 := hfin
  generalize hw : (if negative then signBit + bits else bits) = word
  have hword : word = bits ∨ word = 2 ^ 63 + bits := by
    cases negative with
    | false => exact Or.inl hw.symm
    | true => exact Or.inr hw.symm
  have hlt : word < 2 ^ 64 := by omega
  have hnat : (UInt64.ofNat word).toNat = word := UInt64.toNat_ofNat_of_lt' hlt
  have hexp : (UInt64.ofNat word).toNat / 2 ^ 52 % 2 ^ 11 ≠ 2047 := by
    rw [hnat]
    omega
  obtain ⟨hbits, hnan⟩ := toBits_ofBits hexp
  rw [ofMagnitude, hw, hbits]
  exact ⟨hnat, hnan⟩

/-- A finite double is written as its sign and its magnitude. -/
theorem chars_ofMagnitude {bits : Nat} (hfin : bits < infinityBits) (negative : Bool) :
    chars (ofMagnitude negative bits)
      = if negative then '-' :: magnitudeText bits else magnitudeText bits := by
  obtain ⟨hbits, hnan⟩ := ofMagnitude_finite hfin negative
  have hlt : bits < signBit := Nat.lt_trans hfin (by decide)
  rw [chars, hnan, isNegative, magnitudeBits, hbits]
  cases negative with
  | false => simp [Nat.not_le.mpr hlt, Nat.mod_eq_of_lt hlt]
  | true => simp [Nat.mod_eq_of_lt hlt]

/-! ## Signs -/

/-- The mantissa is in the lowest 52 bits. -/
theorem toNat_unpackMantissa (b : BitVec 64) :
    (@unpackMantissa Format.binary64 b).toNat = b.toNat % 2 ^ 52 := by
  simp [unpackMantissa]

/-- The sign is in the highest bit. -/
theorem toNat_unpackSign (b : BitVec 64) :
    (@unpackSign Format.binary64 b).toNat = b.toNat / 2 ^ 63 % 2 := by
  simp [unpackSign, Nat.shiftRight_eq_div_pow]

/-- Words that differ in the sign alone are unpacked to opposite numbers, unless
    they are infinities or NaNs. -/
theorem unpack_opposite {b b' : BitVec 64} (h : @unpackExponent Format.binary64 b ≠ -1#_)
    (hlow : b'.toNat % 2 ^ 63 = b.toNat % 2 ^ 63)
    (hsign : b.toNat / 2 ^ 63 % 2 = 0) (hsign' : b'.toNat / 2 ^ 63 % 2 = 1) :
    unpack Format.binary64 b' = (unpack Format.binary64 b).neg := by
  have he : @unpackExponent Format.binary64 b' = @unpackExponent Format.binary64 b := by
    apply BitVec.eq_of_toNat_eq
    rw [toNat_unpackExponent, toNat_unpackExponent]
    omega
  have hm : @unpackMantissa Format.binary64 b' = @unpackMantissa Format.binary64 b := by
    apply BitVec.eq_of_toNat_eq
    rw [toNat_unpackMantissa, toNat_unpackMantissa]
    omega
  have hs : @unpackSign Format.binary64 b = 0#1 := by
    apply BitVec.eq_of_toNat_eq
    rw [toNat_unpackSign, hsign]
    rfl
  have hs' : @unpackSign Format.binary64 b' = 1#1 := by
    apply BitVec.eq_of_toNat_eq
    rw [toNat_unpackSign, hsign']
    rfl
  simp only [unpack, he, hm, hs, hs', if_neg h]
  split
  · split <;> rfl
  · rfl

/-- The negative of a finite magnitude has that magnitude and the sign. -/
theorem neg_ofMagnitude {bits : Nat} (hfin : bits < infinityBits) :
    -ofMagnitude false bits = ofMagnitude true bits := by
  have hb : bits < 2047 * 2 ^ 52 := hfin
  have hword : (ofMagnitude false bits).toBits.toNat = bits := (ofMagnitude_finite hfin false).1
  have hword' : (ofMagnitude true bits).toBits.toNat = 2 ^ 63 + bits :=
    (ofMagnitude_finite hfin true).1
  generalize ofMagnitude false bits = x at hword ⊢
  generalize ofMagnitude true bits = y at hword' ⊢
  rw [← UInt64.toNat_toBitVec] at hword hword'
  have hexp : @unpackExponent Format.binary64 y.toBits.toBitVec ≠ -1#_ :=
    unpackExponent_ne_of_toNat (by omega)
  have hneg : unpack Format.binary64 y.toBits.toBitVec
      = (unpack Format.binary64 x.toBits.toBitVec).neg :=
    unpack_opposite (unpackExponent_ne_of_toNat (by omega)) (by omega) (by omega) (by omega)
  apply Float.toBits_inj.mp
  show UInt64.ofBitVec (pack Format.binary64 (unpack Format.binary64 x.toBits.toBitVec).neg) = _
  rw [← hneg, pack_unpack hexp]

/-- A finite double is put together from its sign and its magnitude. -/
theorem eq_ofMagnitude {x : Float} (h : x.isFinite = true) :
    magnitudeBits x < infinityBits ∧ x = ofMagnitude (isNegative x) (magnitudeBits x) := by
  have hexp : x.toBits.toNat / 2 ^ 52 % 2 ^ 11 ≠ 2047 := by
    intro hc
    have hall : @unpackExponent Format.binary64 x.toBits.toBitVec = -1#11 := by
      apply BitVec.eq_of_toNat_eq
      rw [toNat_unpackExponent]
      exact hc
    have hfinite : (unpack Format.binary64 x.toBits.toBitVec).isFinite = true := h
    rw [unpack, if_pos hall] at hfinite
    split at hfinite <;> cases hfinite
  have hlt : x.toBits.toNat < 2 ^ 64 := x.toBits.toNat_lt
  have hmagnitude : magnitudeBits x = x.toBits.toNat % 2 ^ 63 := rfl
  refine ⟨?_, ?_⟩
  · show magnitudeBits x < 2047 * 2 ^ 52
    omega
  · have hword : (if isNegative x then signBit + magnitudeBits x else magnitudeBits x)
        = x.toBits.toNat := by
      have hsign : signBit = 2 ^ 63 := rfl
      rw [hmagnitude, isNegative, hsign]
      by_cases hle : 2 ^ 63 ≤ x.toBits.toNat
      · simp only [hle, decide_true, if_true]
        omega
      · simp only [hle, decide_false, Bool.false_eq_true, if_false]
        omega
    rw [ofMagnitude, hword, UInt64.ofNat_toNat, Float.ofBits_toBits]

/-! ## Rounding -/

theorem stride_eq : stride = 2 ^ 52 := rfl

/-- Bits are so many strides and the significand. -/
theorem scale_mul_stride_add_significand (bits : Nat) :
    scaleOf bits * stride + significandOf bits = bits := by
  simp only [significandOf, scaleOf, stride_eq]
  omega

/-- A significand has at most 53 bits. -/
theorem significandOf_lt (bits : Nat) : significandOf bits < 2 * stride := by
  simp only [significandOf, scaleOf, stride_eq]
  omega

/-- Above the least scale it has all 53. -/
theorem stride_le_significandOf {bits : Nat} (h : scaleOf bits ≠ 0) :
    stride ≤ significandOf bits := by
  simp only [significandOf, scaleOf, stride_eq] at h ⊢
  omega

theorem significandOf_pos {bits : Nat} (h : 0 < bits) : 0 < significandOf bits := by
  simp only [significandOf, scaleOf, stride_eq]
  omega

/-- There are 2046 scales of finite numbers. -/
theorem scaleOf_lt {bits : Nat} (h : bits < infinityBits) : scaleOf bits < 2046 := by
  have hb : bits < 2047 * 2 ^ 52 := h
  simp only [scaleOf, stride_eq]
  omega

/-- Whatever lies within half a unit of a whole number rounds to it; at half a
    unit it does so when the number is even. -/
theorem roundHalfEven_eq {n d s : Nat} (hd : 0 < d) (hlow : 2 * (s * d) ≤ 2 * n + d)
    (hhigh : 2 * n ≤ 2 * (s * d) + d)
    (hodd : s % 2 = 1 → 2 * (s * d) < 2 * n + d ∧ 2 * n < 2 * (s * d) + d) :
    roundHalfEven n d = s := by
  have hn : d * (n / d) + n % d = n := Nat.div_add_mod n d
  have hr : n % d < d := Nat.mod_lt n hd
  rw [roundHalfEven]
  generalize n / d = q at hn ⊢
  generalize n % d = r at hn hr ⊢
  -- within half a unit, `s` is the quotient or the number above it
  have hle : s ≤ q + 1 := by
    refine Nat.le_of_not_lt fun hc => ?_
    have hfar : (q + 2) * d ≤ s * d := Nat.mul_le_mul_right d hc
    rw [Nat.add_mul, Nat.mul_comm q d] at hfar
    omega
  have hge : q ≤ s := by
    refine Nat.le_of_not_lt fun hc => ?_
    have hfar : (s + 1) * d ≤ q * d := Nat.mul_le_mul_right d hc
    rw [Nat.add_mul, Nat.mul_comm q d] at hfar
    omega
  obtain rfl | rfl : s = q ∨ s = q + 1 := by omega
  · have hq : s * d + r = n := by rw [Nat.mul_comm s d]; exact hn
    split
    · rfl
    · split
      · omega
      · rcases Nat.mod_two_eq_zero_or_one s with h0 | h1
        · omega
        · have hstrict := hodd h1
          omega
  · have hq : (q + 1) * d + r = n + d := by rw [Nat.add_mul, Nat.mul_comm q d]; omega
    split
    · omega
    · split
      · rfl
      · rcases Nat.mod_two_eq_zero_or_one (q + 1) with h0 | h1
        · omega
        · have hstrict := hodd h1
          omega

/-- The scale under which the units of a quotient fit into 53 bits. -/
theorem log2_div_sub {u d c : Nat} (hd : 0 < d) (hlow : c ≠ 0 → stride * (d * 2 ^ c) ≤ u)
    (hhigh : u < 2 * stride * (d * 2 ^ c)) : Nat.log2 (u / d) - 52 = c := by
  have hpow : ∀ k, 2 ^ k * (d * 2 ^ c) = 2 ^ (k + c) * d := by
    intro k
    rw [Nat.pow_add, Nat.mul_assoc, Nat.mul_comm (2 ^ c)]
  have hlt : u / d < 2 ^ (53 + c) := by
    apply Nat.div_lt_of_lt_mul
    rw [Nat.mul_comm, ← hpow]
    exact hhigh
  have hle : c ≠ 0 → 2 ^ (52 + c) ≤ u / d := by
    intro hc
    rw [Nat.le_div_iff_mul_le hd, ← hpow]
    exact hlow hc
  by_cases hc : c = 0
  · by_cases h0 : u / d = 0
    · rw [h0, hc]
      rfl
    · have hlog := (Nat.log2_lt h0).mpr hlt
      omega
  · have h0 : u / d ≠ 0 := Nat.ne_of_gt (Nat.lt_of_lt_of_le (Nat.two_pow_pos _) (hle hc))
    have hlog := (Nat.log2_lt h0).mpr hlt
    have hlog' := (Nat.le_log2 h0).mpr (hle hc)
    omega

/-- To find a double it is enough to find its scale and its significand. -/
theorem nearestBits_eq {n d c s bits : Nat} (hfin : bits < infinityBits)
    (hbits : c * stride + s = bits)
    (h : Nat.log2 (n * 2 ^ unitExponent / d) - 52 = c
      ∧ roundHalfEven (n * 2 ^ unitExponent) (d * 2 ^ c) = s) : nearestBits n d = bits := by
  obtain ⟨hscale, hround⟩ := h
  rw [nearestBits, Nat.pow_eq, Nat.pow_eq, hscale, hround, hbits]
  exact Nat.min_eq_left (Nat.le_of_lt hfin)

/-- The quotient `n / d`, counted in quarter units, lies in the interval. -/
def Interval.Contains (i : Interval) (n d : Nat) : Prop :=
  if i.closed = true then i.low * d ≤ n ∧ n ≤ i.high * d else i.low * d < n ∧ n < i.high * d

/-- What is in an interval is between its ends. -/
theorem Interval.Contains.le {i : Interval} {n d : Nat} (h : i.Contains n d) :
    i.low * d ≤ n ∧ n ≤ i.high * d := by
  unfold Contains at h
  split at h
  · exact h
  · exact ⟨Nat.le_of_lt h.1, Nat.le_of_lt h.2⟩

/-- What is in an open interval is strictly between its ends. -/
theorem Interval.Contains.lt {i : Interval} {n d : Nat} (h : i.Contains n d)
    (ho : i.closed = false) : i.low * d < n ∧ n < i.high * d := by
  rw [Contains, ho] at h
  exact h

/-- Within half a unit of the significand, on its own scale. -/
theorem nearest_same_scale {u d s c : Nat} (hd : 0 < d) (hs : s < 2 * stride)
    (hnormal : c ≠ 0 → stride * (d * 2 ^ c) ≤ u)
    (hlow : (4 * s - 2) * (d * 2 ^ c) ≤ 4 * u) (hhigh : 4 * u ≤ (4 * s + 2) * (d * 2 ^ c))
    (hodd : s % 2 = 1 → (4 * s - 2) * (d * 2 ^ c) < 4 * u ∧ 4 * u < (4 * s + 2) * (d * 2 ^ c)) :
    Nat.log2 (u / d) - 52 = c ∧ roundHalfEven u (d * 2 ^ c) = s := by
  have hpos : 0 < d * 2 ^ c := Nat.mul_pos hd (Nat.two_pow_pos c)
  constructor
  · apply log2_div_sub hd hnormal
    have hbelow : (4 * s + 2) * (d * 2 ^ c) < 4 * (2 * stride) * (d * 2 ^ c) :=
      Nat.mul_lt_mul_of_pos_right (by omega) hpos
    rw [Nat.mul_assoc 4] at hbelow
    omega
  · generalize d * 2 ^ c = e at *
    rw [Nat.sub_mul, Nat.mul_assoc] at hlow hodd
    rw [Nat.add_mul, Nat.mul_assoc] at hhigh hodd
    apply roundHalfEven_eq hpos
    · omega
    · omega
    · intro h
      obtain ⟨hl, hh⟩ := hodd h
      omega

/-- Just below a power of two the scale is the one below, and the significand
    is rounded up to the power. -/
theorem nearest_scale_below {u d c : Nat} (hd : 0 < d) (hbelow : u < stride * (d * 2 ^ (c + 1)))
    (hlow : (4 * stride - 1) * (d * 2 ^ (c + 1)) ≤ 4 * u) :
    Nat.log2 (u / d) - 52 = c ∧ roundHalfEven u (d * 2 ^ c) = 2 * stride := by
  have hpos : 0 < d * 2 ^ c := Nat.mul_pos hd (Nat.two_pow_pos c)
  have hdouble : d * 2 ^ (c + 1) = 2 * (d * 2 ^ c) := by
    rw [Nat.pow_succ, ← Nat.mul_assoc, Nat.mul_comm]
  rw [hdouble] at hbelow hlow
  constructor
  · apply log2_div_sub hd
    · intro _
      generalize d * 2 ^ c = e at *
      rw [stride_eq] at *
      omega
    · generalize d * 2 ^ c = e at *
      rw [stride_eq] at *
      omega
  · generalize d * 2 ^ c = e at *
    rw [stride_eq] at *
    apply roundHalfEven_eq hpos <;> omega

/-- **What lies in the interval of a double rounds to it.** -/
theorem nearestBits_of_contains {bits n d : Nat} (hd : 0 < d) (hfin : bits < infinityBits)
    (h : (Interval.ofBits bits).Contains (4 * (n * 2 ^ unitExponent)) d) :
    nearestBits n d = bits := by
  have heq := scale_mul_stride_add_significand bits
  have hlt := significandOf_lt bits
  have hnormal := @stride_le_significandOf bits
  obtain ⟨hlow, hhigh⟩ := h.le
  have hopen := h.lt
  have hassoc : ∀ a, a * 2 ^ scaleOf bits * d = a * (d * 2 ^ scaleOf bits) := by
    intro a
    rw [Nat.mul_assoc, Nat.mul_comm (2 ^ _)]
  simp only [Interval.ofBits, Nat.pow_eq, hassoc] at hlow hhigh hopen
  by_cases hedge : (significandOf bits = stride ∧ scaleOf bits ≠ 0)
      ∧ n * 2 ^ unitExponent < stride * (d * 2 ^ scaleOf bits)
  · -- the lower end of a power of two reaches into the scale below
    obtain ⟨hpower, hbelow⟩ := hedge
    rw [if_pos hpower, hpower.1] at hlow
    obtain ⟨c, hc⟩ := Nat.exists_eq_succ_of_ne_zero hpower.2
    rw [hc] at heq hlow hbelow
    rw [hpower.1, Nat.succ_mul c] at heq
    refine nearestBits_eq hfin ?_ (nearest_scale_below hd hbelow hlow)
    omega
  · have hhalf : (4 * significandOf bits - 2) * (d * 2 ^ scaleOf bits)
        ≤ (if significandOf bits = stride ∧ scaleOf bits ≠ 0 then 4 * significandOf bits - 1
            else 4 * significandOf bits - 2) * (d * 2 ^ scaleOf bits) := by
      apply Nat.mul_le_mul_right
      split <;> omega
    refine nearestBits_eq hfin heq
      (nearest_same_scale hd hlt ?_ (Nat.le_trans hhalf hlow) hhigh ?_)
    · intro hc
      by_cases hs : significandOf bits = stride
      · exact Nat.le_of_not_lt fun hu => hedge ⟨⟨hs, hc⟩, hu⟩
      · have hge := hnormal hc
        have hfar : 4 * stride * (d * 2 ^ scaleOf bits)
            ≤ (4 * significandOf bits - 2) * (d * 2 ^ scaleOf bits) :=
          Nat.mul_le_mul_right _ (by omega)
        rw [Nat.mul_assoc] at hfar
        exact Nat.le_of_mul_le_mul_left (Nat.le_trans hfar (Nat.le_trans hhalf hlow)) (by decide)
    · intro hs
      obtain ⟨hl, hh⟩ := hopen (by rw [hs]; rfl)
      exact ⟨Nat.lt_of_le_of_lt hhalf hl, hh⟩

/-! ## The search for the shortest decimal -/

theorem gridDenominator_eq (k : Int) :
    gridDenominator k = 10 ^ k.toNat * 2 ^ (unitExponent + 2) := by
  rw [gridDenominator, Nat.pow_eq, Nat.pow_eq]

theorem gridNumerator_eq (k : Int) : gridNumerator k = 10 ^ (-k).toNat := by
  rw [gridNumerator, Nat.pow_eq]

theorem gridDenominator_pos (k : Int) : 0 < gridDenominator k := by
  rw [gridDenominator_eq]
  exact Nat.mul_pos (Nat.pow_pos (by decide)) (Nat.pow_pos (by decide))

namespace Interval

/-- A point of a grid is tested as the quotient it is. -/
theorem contains_of_holds {i : Interval} {k : Int} {p : Nat} (h : i.holds k p = true) :
    i.Contains (p * gridDenominator k) (gridNumerator k) := by
  unfold holds at h
  unfold Contains
  dsimp only at h
  split at h
  · next hc => rw [if_pos hc]; simpa using h
  · next hc => rw [if_neg hc]; simpa using h

/-- A decimal that is strictly between the ends is held, whether they belong to the
    interval or not. -/
theorem holds_of_between {i : Interval} {k : Int} {p : Nat}
    (hlow : i.low * gridNumerator k < p * gridDenominator k)
    (hhigh : p * gridDenominator k < i.high * gridNumerator k) : i.holds k p = true := by
  unfold holds
  dsimp only
  split
  · simpa using ⟨Nat.le_of_lt hlow, Nat.le_of_lt hhigh⟩
  · simpa using ⟨hlow, hhigh⟩

theorem holds_of_hit? {i : Interval} {k : Int} {p : Nat} (h : i.hit? k = some p) :
    i.holds k p = true := by
  unfold hit? at h
  dsimp only at h
  split at h
  · next hb ha =>
      split at h
      · exact Option.some.inj h ▸ ha
      · exact Option.some.inj h ▸ hb
  · next hb _ => exact Option.some.inj h ▸ hb
  · next ha => exact Option.some.inj h ▸ ha
  · exact nomatch h

/-- On a grid finer than the upper half of the interval there is a hit: the
    next point above the value. -/
theorem hit?_ne_none {i : Interval} {k : Int} (hlow : i.low ≤ i.value)
    (hfine : i.value * gridNumerator k + gridDenominator k < i.high * gridNumerator k) :
    i.hit? k ≠ none := by
  have hden := gridDenominator_pos k
  have habove : i.holds k (i.value * gridNumerator k / gridDenominator k + 1) = true := by
    have hdiv := Nat.div_add_mod (i.value * gridNumerator k) (gridDenominator k)
    have hmod := Nat.mod_lt (i.value * gridNumerator k) hden
    rw [Nat.mul_comm] at hdiv
    have hlow' := Nat.mul_le_mul_right (gridNumerator k) hlow
    apply holds_of_between
    · rw [Nat.add_mul]
      omega
    · rw [Nat.add_mul]
      omega
  unfold hit?
  dsimp only
  rw [habove]
  split
  · split <;> exact nofun
  · exact nofun
  · exact nofun
  · next hb => exact nomatch hb

/-- A search that comes to a grid with a hit ends with one. -/
theorem search_holds (i : Interval) {n : Nat} {k : Int} {m : Nat} (hm : m < n)
    (hit : i.hit? (k - m) ≠ none) :
    i.holds (i.search n k).exponent (i.search n k).coefficient = true := by
  induction n generalizing k m with
  | zero => exact absurd hm (Nat.not_lt_zero m)
  | succ n ih =>
      unfold search
      split
      · next p hp => exact holds_of_hit? hp
      · next hnone =>
          cases m with
          | zero => exact absurd hnone (by simpa using hit)
          | succ m =>
              apply ih (Nat.lt_of_succ_lt_succ hm)
              have hk : k - 1 - (m : Int) = k - (m + 1 : Nat) := by omega
              rw [hk]
              exact hit

end Interval

/-- Three digits are worth less than ten bits. -/
theorem ten_pow_le_two_pow {k x : Nat} (h : 10 * k ≤ 3 * x) : 10 ^ k ≤ 2 ^ x := by
  apply (Nat.pow_le_pow_iff_left (show 3 ≠ 0 by decide)).mp
  calc (10 ^ k) ^ 3 = (10 ^ 3) ^ k := by rw [← Nat.pow_mul, ← Nat.pow_mul, Nat.mul_comm]
    _ ≤ (2 ^ 10) ^ k := Nat.pow_le_pow_left (by decide) k
    _ = 2 ^ (10 * k) := by rw [← Nat.pow_mul]
    _ ≤ 2 ^ (3 * x) := Nat.pow_le_pow_right (by decide) h
    _ = (2 ^ x) ^ 3 := by rw [← Nat.pow_mul, Nat.mul_comm]

/-- 33 bits are worth less than ten digits. -/
theorem two_pow_le_ten_pow {y j : Nat} (h : 10 * y ≤ 33 * j) : 2 ^ y ≤ 10 ^ j := by
  apply (Nat.pow_le_pow_iff_left (show 33 ≠ 0 by decide)).mp
  calc (2 ^ y) ^ 33 = (2 ^ 33) ^ y := by rw [← Nat.pow_mul, ← Nat.pow_mul, Nat.mul_comm]
    _ ≤ (10 ^ 10) ^ y := Nat.pow_le_pow_left (by decide) y
    _ = 10 ^ (10 * y) := by rw [← Nat.pow_mul]
    _ ≤ 10 ^ (33 * j) := Nat.pow_le_pow_right (by decide) h
    _ = (10 ^ j) ^ 33 := by rw [← Nat.pow_mul, Nat.mul_comm]

/-- A grid that is fine enough for a scale: its step is less than half a unit. -/
theorem gridDenominator_lt {k : Int} {c : Nat} (hc : c < 2046)
    (hk : 100000 * (k + 21) ≤ ((c : Int) - 1021) * 30103) :
    gridDenominator k < 2 ^ (c + 1) * gridNumerator k := by
  rw [gridDenominator_eq, gridNumerator_eq]
  -- the exponent stays a variable, so that no power of this size is computed
  have hunit : unitExponent + 2 = 1076 := rfl
  generalize unitExponent + 2 = w at hunit ⊢
  have hc1 : 2 ^ c < 2 ^ (c + 1) := Nat.pow_lt_pow_right (by decide) (Nat.lt_succ_self c)
  rcases Int.le_total 0 k with h0 | h0
  · have hzero : (-k).toNat = 0 := by omega
    have hle := @ten_pow_le_two_pow k.toNat (c - 1076) (by omega)
    rw [hzero, Nat.pow_zero, Nat.mul_one]
    have hsum : c - 1076 + w = c := by omega
    calc 10 ^ k.toNat * 2 ^ w ≤ 2 ^ (c - 1076) * 2 ^ w := Nat.mul_le_mul_right _ hle
      _ = 2 ^ c := by rw [← Nat.pow_add, hsum]
      _ < 2 ^ (c + 1) := hc1
  · have hzero : k.toNat = 0 := by omega
    have hle := @two_pow_le_ten_pow (1076 - c) (-k).toNat (by omega)
    rw [hzero, Nat.pow_zero, Nat.one_mul]
    calc 2 ^ w ≤ 2 ^ (c + (1076 - c)) := Nat.pow_le_pow_right (by decide) (by omega)
      _ = 2 ^ c * 2 ^ (1076 - c) := Nat.pow_add 2 c (1076 - c)
      _ ≤ 2 ^ c * 10 ^ (-k).toNat := Nat.mul_le_mul_left _ hle
      _ < 2 ^ (c + 1) * 10 ^ (-k).toNat := Nat.mul_lt_mul_of_pos_right hc1 (Nat.pow_pos (by decide))

/-- The search starts at most two grids above the size of the double. -/
theorem coarsestGrid_le (bits : Nat) :
    100000 * (coarsestGrid bits - 2) ≤ ((scaleOf bits : Int) - 1021) * 30103 := by
  have hs : significandOf bits < 2 ^ 53 := significandOf_lt bits
  have hlog : Nat.log2 (significandOf bits) ≤ 52 := by
    by_cases h0 : significandOf bits = 0
    · rw [h0]
      decide
    · exact Nat.le_of_lt_succ ((Nat.log2_lt h0).mpr hs)
  unfold coarsestGrid unitExponent
  dsimp only
  rw [Int.fdiv_eq_ediv_of_nonneg _ (by decide)]
  omega

/-- **The search for the shortest decimal succeeds**: what it finds lies in the
    interval. -/
theorem holds_shortest {bits : Nat} (hfin : bits < infinityBits) :
    (Interval.ofBits bits).holds (shortest bits).exponent (shortest bits).coefficient = true := by
  -- the last of the 24 grids is fine enough for every double
  apply Interval.search_holds _ (show 23 < 24 by decide)
  apply Interval.hit?_ne_none
  · apply Nat.mul_le_mul_right
    split <;> omega
  · have hcoarse := coarsestGrid_le bits
    have hstep := @gridDenominator_lt (coarsestGrid bits - (23 : Nat)) _ (scaleOf_lt hfin)
      (by omega)
    generalize gridDenominator (coarsestGrid bits - (23 : Nat)) = den at *
    generalize gridNumerator (coarsestGrid bits - (23 : Nat)) = num at *
    calc 4 * significandOf bits * 2 ^ scaleOf bits * num + den
        < 4 * significandOf bits * 2 ^ scaleOf bits * num + 2 ^ (scaleOf bits + 1) * num :=
          Nat.add_lt_add_left hstep _
      _ = (4 * significandOf bits + 2) * 2 ^ scaleOf bits * num := by
        rw [Nat.add_mul, Nat.add_mul, Nat.pow_succ, Nat.mul_comm 2 (2 ^ _)]

/-- The point that was found is worth the double. -/
theorem nearestBits_of_holds {bits p : Nat} {k : Int} (hfin : bits < infinityBits)
    (h : (Interval.ofBits bits).holds k p = true) :
    nearestBits (p * 10 ^ k.toNat) (10 ^ (-k).toNat) = bits := by
  apply nearestBits_of_contains (Nat.pow_pos (by decide)) hfin
  have hc := Interval.contains_of_holds h
  have hunits : 4 * (p * 10 ^ k.toNat * 2 ^ unitExponent) = p * gridDenominator k := by
    rw [gridDenominator_eq, Nat.pow_add]
    simp only [Nat.mul_comm, Nat.mul_left_comm, Nat.mul_assoc]
  rw [hunits, ← gridNumerator_eq]
  exact hc

/-- The point that was found is not far below the least double. -/
theorem ten_pow_le_of_holds {bits p : Nat} {k : Int} (h0 : 0 < bits)
    (h : (Interval.ofBits bits).holds k p = true) :
    10 ^ (-k).toNat ≤ p * 10 ^ k.toNat * 2 ^ (unitExponent + 2) := by
  have hlow : 1 ≤ (Interval.ofBits bits).low := by
    have hs := significandOf_pos h0
    apply Nat.mul_pos
    · split <;> omega
    · exact Nat.pow_pos (by decide)
  calc 10 ^ (-k).toNat = 1 * gridNumerator k := by rw [gridNumerator_eq, Nat.one_mul]
    _ ≤ (Interval.ofBits bits).low * gridNumerator k := Nat.mul_le_mul_right _ hlow
    _ ≤ p * gridDenominator k := (Interval.contains_of_holds h).le.1
    _ = p * 10 ^ k.toNat * 2 ^ (unitExponent + 2) := by rw [gridDenominator_eq, Nat.mul_assoc]

/-- A decimal that is not far below the least double is rounded exactly. -/
theorem decimalBits_eq {m places : Nat} (h : 10 ^ places ≤ m * 2 ^ (unitExponent + 2)) :
    decimalBits m (-(places : Int)) = nearestBits m (10 ^ places) := by
  have hm : m ≠ 0 := by
    rintro rfl
    rw [Nat.zero_mul] at h
    exact Nat.not_lt.mpr h (Nat.pow_pos (by decide))
  have hlog : 3 * places < Nat.log2 m + 1 + (unitExponent + 2) := by
    apply (Nat.pow_lt_pow_iff_right (show 1 < 2 by decide)).mp
    calc 2 ^ (3 * places) = 8 ^ places := by rw [Nat.pow_mul]
      _ ≤ 10 ^ places := Nat.pow_le_pow_left (by decide) places
      _ ≤ m * 2 ^ (unitExponent + 2) := h
      _ < 2 ^ (Nat.log2 m + 1) * 2 ^ (unitExponent + 2) :=
        Nat.mul_lt_mul_of_pos_right Nat.lt_log2_self (Nat.pow_pos (by decide))
      _ = 2 ^ (Nat.log2 m + 1 + (unitExponent + 2)) := (Nat.pow_add ..).symm
  unfold unitExponent at hlog
  unfold decimalBits
  rw [if_neg hm, if_neg (by omega), if_neg (by omega)]
  split
  · obtain rfl : places = 0 := by omega
    simp
  · rw [Int.neg_neg, Int.toNat_natCast, Nat.pow_eq]

/-- A decimal that the interval of a double holds is read as this double. -/
theorem decimalBits_of_holds {bits p : Nat} {k : Int} (h0 : 0 < bits) (hfin : bits < infinityBits)
    (h : (Interval.ofBits bits).holds k p = true) :
    decimalBits (p * 10 ^ k.toNat) (-((-k).toNat : Int)) = bits := by
  rw [decimalBits_eq (ten_pow_le_of_holds h0 h)]
  exact nearestBits_of_holds hfin h

/-! ## Positional notation -/

/-- Digits around a point, which is left out when none follow. -/
def decimalText (whole fraction : List Char) : List Char :=
  whole ++ (if fraction = [] then [] else '.' :: fraction)

/-- Digits around a point that are worth the decimal, with no exponent left. -/
structure Decimal.WrittenAs (d : Decimal) (whole fraction : List Char) : Prop where
  whole_ne_nil : whole ≠ []
  isDigit : ∀ c ∈ whole ++ fraction, c.isDigit = true
  value : Nat.ofDigitChars 10 (whole ++ fraction) 0 = d.coefficient * 10 ^ d.exponent.toNat
  places : fraction.length = (-d.exponent).toNat

theorem isDigit_of_mem_replicate {n : Nat} {c : Char} (h : c ∈ List.replicate n '0') :
    c.isDigit = true := by
  rw [List.eq_of_mem_replicate h]
  rfl

theorem isDigit_of_mem_toDigits {n : Nat} {c : Char} (h : c ∈ Nat.toDigits 10 n) :
    c.isDigit = true :=
  Nat.isDigit_of_mem_toDigits (by decide) (by decide) h

/-- Zeros behind the digits. -/
theorem writtenAs_zeros (m zeros : Nat) :
    Decimal.WrittenAs ⟨m, .ofNat zeros⟩ (Nat.toDigits 10 m ++ List.replicate zeros '0') [] where
  whole_ne_nil := List.append_ne_nil_of_left_ne_nil Nat.toDigits_ne_nil _
  isDigit := by
    intro c hc
    rw [List.append_nil, List.mem_append] at hc
    exact hc.elim isDigit_of_mem_toDigits isDigit_of_mem_replicate
  value := by
    rw [List.append_nil, Nat.ofDigitChars_append, Nat.ofDigitChars_replicate_zero,
      Nat.ofDigitChars_ten_toDigits, Nat.mul_comm]
    rfl
  places := by
    show 0 = (-(zeros : Int)).toNat
    omega

/-- All digits behind the point, after as many zeros as there are places left. -/
theorem writtenAs_fraction {m n : Nat} (h : (Nat.toDigits 10 m).length ≤ n + 1) :
    Decimal.WrittenAs ⟨m, .negSucc n⟩ ['0']
      (List.replicate (n + 1 - (Nat.toDigits 10 m).length) '0' ++ Nat.toDigits 10 m) where
  whole_ne_nil := nofun
  isDigit := by
    intro c hc
    rcases List.mem_append.mp hc with hc | hc
    · rw [List.mem_singleton.mp hc]
      rfl
    · exact (List.mem_append.mp hc).elim isDigit_of_mem_replicate isDigit_of_mem_toDigits
  value := by
    show Nat.ofDigitChars 10 (List.replicate (_ + 1) '0' ++ Nat.toDigits 10 m) 0 = _
    rw [Nat.ofDigitChars_append, Nat.ofDigitChars_replicate_zero, Nat.mul_zero,
      Nat.ofDigitChars_ten_toDigits]
    exact (Nat.mul_one m).symm
  places := by
    rw [List.length_append, List.length_replicate]
    show _ = n + 1
    omega

/-- The point among the digits. -/
theorem writtenAs_split {m n : Nat} (h : n + 1 < (Nat.toDigits 10 m).length) :
    Decimal.WrittenAs ⟨m, .negSucc n⟩
      ((Nat.toDigits 10 m).take ((Nat.toDigits 10 m).length - (n + 1)))
      ((Nat.toDigits 10 m).drop ((Nat.toDigits 10 m).length - (n + 1))) where
  whole_ne_nil := by
    intro hnil
    rw [List.take_eq_nil_iff] at hnil
    exact hnil.elim (by omega) Nat.toDigits_ne_nil
  isDigit := by
    intro c hc
    rw [List.take_append_drop] at hc
    exact isDigit_of_mem_toDigits hc
  value := by
    rw [List.take_append_drop, Nat.ofDigitChars_ten_toDigits]
    exact (Nat.mul_one m).symm
  places := by
    rw [List.length_drop]
    show _ = n + 1
    omega

/-- Positional notation writes a decimal out. -/
theorem positional_eq (d : Decimal) : ∃ whole fraction,
    positional d = decimalText whole fraction ∧ d.WrittenAs whole fraction := by
  obtain ⟨m, k⟩ := d
  cases k with
  | ofNat zeros =>
      refine ⟨_, _, ?_, writtenAs_zeros m zeros⟩
      simp [positional, decimalText]
  | negSucc n =>
      unfold positional
      dsimp only
      split
      · next hshort =>
          refine ⟨_, _, ?_, writtenAs_fraction hshort⟩
          rw [decimalText, if_neg (List.append_ne_nil_of_right_ne_nil _ Nat.toDigits_ne_nil)]
          rfl
      · next hlong =>
          have hsplit := writtenAs_split (Nat.lt_of_not_le hlong)
          refine ⟨_, _, ?_, hsplit⟩
          rw [decimalText, if_neg (List.ne_nil_of_length_eq_add_one hsplit.places)]

/-- **A magnitude reads back from its text**, which is made of digits around a
    point. -/
theorem magnitudeText_eq {bits : Nat} (hfin : bits < infinityBits) : ∃ whole fraction,
    magnitudeText bits = decimalText whole fraction ∧ whole ≠ []
      ∧ (∀ c ∈ whole ++ fraction, c.isDigit = true)
      ∧ ofDigits whole fraction 0 = ofMagnitude false bits := by
  by_cases h0 : bits = 0
  · subst h0
    refine ⟨['0'], [], rfl, nofun, List.all_eq_true.mp rfl, ?_⟩
    show ofMagnitude false (decimalBits 0 0) = ofMagnitude false 0
    rw [decimalBits, if_pos rfl]
  · have hbits := decimalBits_of_holds (Nat.pos_of_ne_zero h0) hfin (holds_shortest hfin)
    rw [magnitudeText, if_neg h0, if_neg (Nat.ne_of_lt hfin)]
    -- from here on only the value of the decimal counts, not how it was found
    generalize shortest bits = d at hbits ⊢
    obtain ⟨whole, fraction, htext, hd⟩ := positional_eq d
    refine ⟨whole, fraction, htext, hd.whole_ne_nil, hd.isDigit, ?_⟩
    rw [ofDigits, hd.value, hd.places, Int.zero_sub, hbits]

/-! ## Numbers that digits spell -/

/-- A decimal that is too large is read as infinite, and none as more. -/
theorem decimalBits_le (m : Nat) (e : Int) : decimalBits m e ≤ infinityBits := by
  have hnearest : ∀ n d, nearestBits n d ≤ infinityBits := fun _ _ => Nat.min_le_right ..
  unfold decimalBits
  split
  · exact Nat.zero_le _
  · split
    · exact Nat.le_refl _
    · split
      · exact Nat.zero_le _
      · split <;> exact hnearest _ _

/-- Digits spell a double without a sign, finite or not. -/
theorem ofDigits_finite {whole fraction : List Char} {e : Int}
    (h : (ofDigits whole fraction e).isFinite = true) :
    ∃ bits, bits < infinityBits ∧ ofDigits whole fraction e = ofMagnitude false bits := by
  refine ⟨_, Nat.lt_of_le_of_ne (decimalBits_le _ _) ?_, rfl⟩
  intro hinf
  have hnot : (ofMagnitude false infinityBits).isFinite = false := by decide
  rw [ofDigits, hinf, hnot] at h
  exact nomatch h

end Scriptlet.Number
