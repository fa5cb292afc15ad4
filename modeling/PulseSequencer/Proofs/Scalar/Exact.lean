import Mathlib.Algebra.Order.Floor.Ring
import Mathlib.Algebra.Order.Round
import Mathlib.Data.Rat.Floor
import Mathlib.Tactic.Linarith
import Mathlib.Tactic.NormNum
import PulseSequencer.Proofs.Scalar.Laws

/-!
This module contains exact numbers as the numbers that pulses are computed with: an ordered field whose numbers have
whole parts. Nothing is assumed of its elementary functions, which waveforms are merely evaluated with.
-/

namespace PulseSequencer

/--
The functions and constants that an ordered field does not determine.
-/
class Elementary (K : Type) where
  sqrt : K → K
  exp : K → K
  sin : K → K
  cos : K → K
  pi : K
  ln2 : K

/--
The elementary functions of fractions to first order around zero. Constants without a phase are played without them.
-/
instance : Elementary ℚ where
  sqrt x := x
  exp x := 1 + x
  sin x := x
  cos _ := 1
  pi := 355 / 113
  ln2 := 9 / 13

variable {K : Type} [Field K] [LinearOrder K] [FloorRing K] [Elementary K]

instance : Scalar K where
  toAdd := inferInstance
  toSub := inferInstance
  toMul := inferInstance
  toDiv := inferInstance
  toNeg := inferInstance
  toOfScientific := inferInstance
  toLT := inferInstance
  toLE := inferInstance
  toBEq := instBEqOfDecidableEq
  decidableLT := inferInstance
  decidableLE := inferInstance
  ofCount n := n
  toCount x := UInt64.ofNat (min ⌊x⌋.toNat (2 ^ 64 - 1))
  -- A half goes away from zero, and not up.
  round x := if 0 ≤ x then ⌊x + 1 / 2⌋ else ⌈x - 1 / 2⌉
  ceil x := ⌈x⌉
  sqrt := Elementary.sqrt
  exp := Elementary.exp
  sin := Elementary.sin
  cos := Elementary.cos
  pi := Elementary.pi
  ln2 := Elementary.ln2
  totalLE a b := decide (a ≤ b)

namespace Scalar

@[simp]
theorem zero_exact : (0.0 : K) = 0 := by
  norm_num

@[simp]
theorem one_exact : (1.0 : K) = 1 := by
  norm_num

instance : NeutralZero K where
  gap_add_zero a b _ := by simp

instance : TotallyOrdered K where
  total a b := by
    rcases le_total a b with before | after
    · exact .inl (decide_eq_true before)
    · exact .inr (decide_eq_true after)
  trans before later := decide_eq_true ((of_decide_eq_true before).trans (of_decide_eq_true later))
  not_lt before := not_lt.mpr (of_decide_eq_true before)

theorem maximum_exact (a b : K) : maximum a b = max a b := by
  unfold maximum
  by_cases less : a < b
  · rw [if_pos less, max_eq_right less.le]
  · rw [if_neg less, if_pos (beq_self_eq_true a), max_eq_left (not_lt.mp less)]

theorem exists_round (x : K) : ∃ z : ℤ, Scalar.round x = (z : K) := by
  by_cases nonneg : 0 ≤ x
  · exact ⟨⌊x + 1 / 2⌋, if_pos nonneg⟩
  · exact ⟨⌈x - 1 / 2⌉, if_neg nonneg⟩

variable [IsStrictOrderedRing K]

theorem round_eq_of_near {x : K} {z : ℤ} (near : |x - z| < 1 / 2) : Scalar.round x = (z : K) := by
  rw [abs_lt] at near
  by_cases nonneg : 0 ≤ x
  · have floor : ⌊x + 1 / 2⌋ = z := Int.floor_eq_iff.mpr ⟨by linarith, by linarith⟩
    exact (if_pos nonneg).trans (congrArg Int.cast floor)
  · have ceil : ⌈x - 1 / 2⌉ = z := Int.ceil_eq_iff.mpr ⟨by linarith, by linarith⟩
    exact (if_neg nonneg).trans (congrArg Int.cast ceil)

theorem magnitude_exact (a : K) : magnitude a = |a| := by
  unfold magnitude
  rw [zero_exact]
  by_cases negative : a < 0
  · rw [if_pos negative, abs_of_neg negative]
  · rw [if_neg negative, abs_of_nonneg (not_lt.mp negative)]

theorem apart_eq_false_iff {a b : K} : apart a b = false ↔ |a - b| ≤ tolerance := by
  unfold apart
  rw [magnitude_exact, decide_eq_false_iff_not, not_lt]

theorem tolerance_pos : (0 : K) < tolerance := by
  unfold tolerance
  norm_num

instance : SelfNear K where
  apart_self a := by
    have near : ¬ (tolerance : K) < 0 := tolerance_pos.not_gt
    simp [apart, magnitude, near]

end Scalar

end PulseSequencer
