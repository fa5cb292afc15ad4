import Mathlib
import PulseSequencer.Proofs.Scalar.Laws

/-!
This module contains the order that floats are sorted by. The bits of a float below its sign count how far it is from
zero: the exponent stands in front of the mantissa, and the mantissa of all but the smallest numbers starts with a one
that is left out. So to compare the bits of two numbers is to compare the numbers, but for the two zeros.
-/

namespace PulseSequencer.Scalar

open Float.Model UnpackedFloat

def distance (a : Float) : ℕ :=
  a.toBits.toNat % 2 ^ 63

theorem xor_ones {n : ℕ} (word : n < 2 ^ 64) (negative : 2 ^ 63 ≤ n) :
    n ^^^ (2 ^ 63 - 1) = 2 ^ 64 - 1 - n % 2 ^ 63 := by
  have low : n % 2 ^ 63 ^^^ (2 ^ 63 - 1) = 2 ^ 63 - 1 - n % 2 ^ 63 := by
    have flipped := congrArg BitVec.toNat (BitVec.xor_allOnes (x := BitVec.ofNat 63 n))
    rwa [BitVec.toNat_xor, BitVec.toNat_not, BitVec.toNat_allOnes, BitVec.toNat_ofNat] at flipped
  have front := Nat.xor_div_two_pow (a := n) (b := 2 ^ 63 - 1) (n := 63)
  have back := Nat.xor_mod_two_pow (a := n) (b := 2 ^ 63 - 1) (n := 63)
  rw [Nat.mod_eq_of_lt (by omega : 2 ^ 63 - 1 < 2 ^ 63), low] at back
  rw [Nat.div_eq_of_lt (by omega : 2 ^ 63 - 1 < 2 ^ 63), Nat.xor_zero] at front
  omega

theorem toInt_sortKey (a : Float) :
    (sortKey a).toInt = if a.toBits.toNat < 2 ^ 63 then (distance a : ℤ) else -1 - distance a := by
  have word := a.toBits.toNat_lt
  have bits : a.toBits.toInt64.toInt
      = if 2 * a.toBits.toNat < 2 ^ 64 then (a.toBits.toNat : ℤ) else a.toBits.toNat - 2 ^ 64 :=
    BitVec.toInt_eq_toNat_cond a.toBits.toBitVec
  have flipped : (a.toBits.toInt64 ^^^ 0x7FFFFFFFFFFFFFFF).toInt
      = if 2 * (a.toBits.toNat ^^^ (2 ^ 63 - 1)) < 2 ^ 64 then ((a.toBits.toNat ^^^ (2 ^ 63 - 1) : ℕ) : ℤ)
        else (a.toBits.toNat ^^^ (2 ^ 63 - 1) : ℕ) - 2 ^ 64 :=
    BitVec.toInt_eq_toNat_cond (a.toBits.toBitVec ^^^ 0x7FFFFFFFFFFFFFFF#64)
  unfold sortKey distance
  by_cases small : a.toBits.toNat < 2 ^ 63
  · have nonneg : ¬ a.toBits.toInt64 < 0 := by
      rw [Int64.lt_iff_toInt_lt, bits, Int64.toInt_zero]
      omega
    dsimp only
    rw [if_neg nonneg, if_pos small, bits]
    omega
  · have negative : a.toBits.toInt64 < 0 := by
      rw [Int64.lt_iff_toInt_lt, bits, Int64.toInt_zero]
      omega
    dsimp only
    rw [xor_ones word (by omega)] at flipped
    rw [if_pos negative, if_neg small, flipped]
    omega

inductive Away : UnpackedFloat → Sign → ℕ → Prop
  | zero (sign : Sign) : Away (.zero sign) sign 0
  | infinity (sign : Sign) : Away (.infinity sign) sign (2047 * 2 ^ 52)
  | finite (sign : Sign) {field mantissa : ℕ} (positive : 0 < mantissa) : field < 2046 → mantissa < 2 ^ 53 →
    (0 < field → 2 ^ 52 ≤ mantissa) →
    Away (.finite sign mantissa (field - 1074) positive) sign (field * 2 ^ 52 + mantissa)

section Fields

variable (b : BitVec Format.binary64.numBits)

theorem toNat_unpackSign : (unpackSign b).toNat = b.toNat / 2 ^ 63 := by
  have word : b.toNat < 2 ^ 64 := b.isLt
  rw [unpackSign_def, BitVec.extractLsb'_toNat, Nat.shiftRight_eq_div_pow]
  change b.toNat / 2 ^ 63 % 2 ^ 1 = _
  omega

theorem ofBitVec_unpackSign :
    Sign.ofBitVec (unpackSign b) = if b.toNat < 2 ^ 63 then .positive else .negative := by
  have top := toNat_unpackSign b
  unfold Sign.ofBitVec
  congr 1
  rw [← BitVec.toNat_inj, top, BitVec.toNat_zero, eq_iff_iff]
  omega

theorem toNat_unpackExponent : (unpackExponent b).toNat = b.toNat % 2 ^ 63 / 2 ^ 52 := by
  rw [unpackExponent_def, BitVec.extractLsb'_toNat, Nat.shiftRight_eq_div_pow]
  change b.toNat / 2 ^ 52 % 2 ^ 11 = _
  omega

theorem toNat_unpackMantissa : (unpackMantissa b).toNat = b.toNat % 2 ^ 63 % 2 ^ 52 := by
  rw [unpackMantissa_def, BitVec.extractLsb'_toNat, Nat.shiftRight_eq_div_pow]
  change b.toNat / 2 ^ 0 % 2 ^ 52 = _
  omega

theorem away_unpack : UnpackedFloat.unpack .binary64 b = .notANumber
    ∨ Away (UnpackedFloat.unpack .binary64 b) (Sign.ofBitVec (unpackSign b)) (b.toNat % 2 ^ 63) := by
  have exponent := toNat_unpackExponent b
  have mantissa := toNat_unpackMantissa b
  have far : b.toNat % 2 ^ 63 = (unpackExponent b).toNat * 2 ^ 52 + (unpackMantissa b).toNat := by omega
  have narrow : (unpackExponent b).toNat < 2 ^ 11 := (unpackExponent b).isLt
  have small : (unpackMantissa b).toNat < 2 ^ 52 := (unpackMantissa b).isLt
  rw [far]
  fun_cases UnpackedFloat.unpack .binary64 b with
  | case1 mvec evec svec s last empty =>
    have top : (unpackExponent b).toNat = 2047 := congrArg BitVec.toNat last
    have none : (unpackMantissa b).toNat = 0 := congrArg BitVec.toNat empty
    rw [top, none]
    exact .inr (.infinity s)
  | case2 mvec evec hevec hmvec => exact .inl rfl
  | case3 mvec evec svec s _ first empty =>
    have bottom : (unpackExponent b).toNat = 0 := congrArg BitVec.toNat first
    have none : (unpackMantissa b).toNat = 0 := congrArg BitVec.toNat empty
    rw [bottom, none]
    exact .inr (.zero s)
  | case4 mvec evec e svec s _ first some =>
    have bottom : (unpackExponent b).toNat = 0 := congrArg BitVec.toNat first
    have positive : 0 < (unpackMantissa b).toNat := Nat.pos_of_ne_zero fun none => some (BitVec.eq_of_toNat_eq none)
    have place : e + 1 = ((0 : ℕ) : ℤ) - 1074 := by
      change ((unpackExponent b).toNat : ℤ) - (1023 + 52) + 1 = _
      omega
    rw [bottom]
    simp only [place]
    exact .inr (.finite s positive (by omega) (by omega) (by omega))
  | case5 mvec evec e svec s last first =>
    have below : (unpackExponent b).toNat ≠ 2047 := fun top => last (BitVec.eq_of_toNat_eq top)
    have above : (unpackExponent b).toNat ≠ 0 := fun bottom => first (BitVec.eq_of_toNat_eq bottom)
    have full : (1#1 ++ mvec).toNat = 2 ^ 52 + (unpackMantissa b).toNat := by
      rw [BitVec.toNat_append, Nat.shiftLeft_eq]
      exact (Nat.two_pow_add_eq_or_of_lt mvec.isLt 1).symm
    have place : e = (((unpackExponent b).toNat - 1 : ℕ) : ℤ) - 1074 := by
      change ((unpackExponent b).toNat : ℤ) - (1023 + 52) = _
      omega
    have count : (unpackExponent b).toNat * 2 ^ 52 + (unpackMantissa b).toNat
        = ((unpackExponent b).toNat - 1) * 2 ^ 52 + (1#1 ++ mvec).toNat := by omega
    rw [count]
    simp only [place]
    exact .inr (.finite s (by omega) (by omega) (by omega) (by omega))

end Fields

theorem lt_of_compare {f g m n : ℕ} (small : m < 2 ^ 53) (full : 0 < g → 2 ^ 52 ≤ n)
    (less : (compare ((f : ℤ) - 1074) (g - 1074)).then (compare m n) = .lt) :
    f * 2 ^ 52 + m < g * 2 ^ 52 + n := by
  rw [Ordering.then_eq_lt, Int.compare_eq_lt, Int.compare_eq_eq, Nat.compare_eq_lt] at less
  -- The mantissa of a larger exponent is full.
  omega

theorem lt_apply_positive {m n : ℕ} (s : Sign) (positive : 0 < n) (further : s = .positive → m < n) :
    s.apply m < Sign.positive.apply n := by
  cases s with
  | negative =>
    rw [Sign.apply, Sign.apply]
    omega
  | positive => exact Int.ofNat_lt.mpr (further rfl)

theorem negative_apply_lt {m n : ℕ} (t : Sign) (positive : 0 < m) (further : t = .negative → n < m) :
    Sign.negative.apply m < t.apply n := by
  cases t with
  | negative => exact neg_lt_neg (Int.ofNat_lt.mpr (further rfl))
  | positive =>
    rw [Sign.apply, Sign.apply]
    omega

theorem lt_of_away {u v : UnpackedFloat} {s t : Sign} {m n : ℕ} (first : Away u s m) (second : Away v t n)
    (less : u.lt v = true) : s.apply m < t.apply n := by
  have order : u.compare v = some .lt := beq_iff_eq.mp less
  cases first with
  | zero s =>
    cases second with
    | zero t => cases order
    | infinity t =>
      cases t with
      | positive => exact lt_apply_positive s (by decide) (by omega)
      | negative => cases order
    | finite t positive _ _ _ =>
      cases t with
      | positive => exact lt_apply_positive s (by omega) (by omega)
      | negative => cases order
  | infinity s =>
    cases s with
    | positive =>
      cases second with
      | zero t => cases order
      | infinity t => cases t <;> cases order
      | finite t _ _ _ _ => cases order
    | negative =>
      cases second with
      | zero t => exact negative_apply_lt t (by decide) (by omega)
      | infinity t =>
        cases t with
        | positive => decide
        | negative => cases order
      | finite t _ narrow small _ => exact negative_apply_lt t (by decide) (by omega)
  | finite s positive narrow small full =>
    cases second with
    | zero t =>
      cases s with
      | positive => cases order
      | negative => exact negative_apply_lt t (by omega) (by omega)
    | infinity t =>
      cases t with
      | positive => exact lt_apply_positive s (by decide) (by omega)
      | negative => cases order
    | finite t positive' narrow' small' full' =>
      cases s with
      | positive =>
        cases t with
        | positive =>
          have lexicographic := Option.some.inj order
          exact lt_apply_positive .positive (by omega) fun _ => lt_of_compare small full' lexicographic
        | negative => cases order
      | negative =>
        cases t with
        | positive => exact negative_apply_lt .positive (by omega) (by simp)
        | negative =>
          -- Of two negative numbers, the one that is further away is the smaller one.
          have lexicographic := Option.some.inj order
          rw [Ordering.swap_then, Int.compare_swap, Nat.compare_swap] at lexicographic
          exact negative_apply_lt .negative (by omega) fun _ => lt_of_compare small' full lexicographic

theorem sortKey_lt_of_lt {a b : Float} (less : a < b) : sortKey a < sortKey b := by
  have order : a.toModel.unpack.lt b.toModel.unpack = true := of_decide_eq_true less
  unfold Float.Model.unpack at order
  rcases away_unpack a.toModel.toBits.toBitVec with none | first
  · rw [none] at order
    cases order
  · rcases away_unpack b.toModel.toBits.toBitVec with none | second
    · rw [none] at order
      generalize UnpackedFloat.unpack .binary64 a.toModel.toBits.toBitVec = u at order
      cases u <;> cases order
    · have apart := lt_of_away first second order
      rw [ofBitVec_unpackSign, ofBitVec_unpackSign] at apart
      rw [Int64.lt_iff_toInt_lt, toInt_sortKey, toInt_sortKey]
      change Sign.apply (if a.toBits.toNat < 2 ^ 63 then _ else _) (distance a)
        < Sign.apply (if b.toBits.toNat < 2 ^ 63 then _ else _) (distance b) at apart
      split at apart <;> split at apart <;> simp only [Sign.apply] at apart <;> omega

instance : TotallyOrdered Float where
  total a b := by
    rcases Int64.le_total (sortKey a) (sortKey b) with before | after
    · exact .inl (decide_eq_true before)
    · exact .inr (decide_eq_true after)
  trans before later := decide_eq_true (Int64.le_trans (of_decide_eq_true before) (of_decide_eq_true later))
  not_lt before less := by
    have strict := sortKey_lt_of_lt less
    exact absurd (of_decide_eq_true before) (Int64.not_le.mpr strict)

end PulseSequencer.Scalar
