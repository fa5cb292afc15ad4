import Mathlib
import PulseSequencer.Proofs.Scalar.Laws

/-!
This module contains the proof that machine floating point obeys these laws. A number that is unpacked and packed again is
the same, so a sum with zero is the other operand, with the exception of negative zero. The difference of a number and
itself is zero or undefined.
-/

namespace PulseSequencer.Scalar

open Float.Model UnpackedFloat

theorem pack_unpack_model (m : Float.Model) : Float.Model.pack m.unpack = m := by
  obtain ⟨bits, valid⟩ := m
  have same := pack_unpack_of_valid valid
  simp only [Float.Model.pack, Float.Model.unpack, same]

theorem toModel_add (a b : Float) :
    (a + b).toModel = Float.Model.pack (UnpackedFloat.add .binary64 a.toModel.unpack b.toModel.unpack) := rfl

theorem toModel_sub (a b : Float) :
    (a - b).toModel = Float.Model.pack (UnpackedFloat.sub .binary64 a.toModel.unpack b.toModel.unpack) := rfl

theorem unpack_zero : (0.0 : Float).toModel.unpack = .zero .positive := rfl

theorem float_ext {a b : Float} (h : a.toModel = b.toModel) : a = b := by
  cases a
  cases b
  cases h
  rfl

theorem float_add_zero {a : Float} (h : a.toModel.unpack ≠ .zero .negative) : a + 0.0 = a := by
  apply float_ext
  rw [toModel_add, unpack_zero]
  have same : UnpackedFloat.add .binary64 a.toModel.unpack (.zero .positive) = a.toModel.unpack := by
    cases hu : a.toModel.unpack with
    | notANumber => rfl
    | infinity sign => rfl
    | zero sign =>
      cases sign with
      | positive => rfl
      | negative => exact absurd hu h
    | finite sign mantissa exponent positive => rfl
  rw [same, pack_unpack_model]

theorem not_tolerance_lt_zero (sign : Sign) : ¬ tolerance < Float.ofModel (Float.Model.pack (.zero sign)) := by
  cases sign <;> decide +kernel

instance : NeutralZero Float where
  gap_add_zero := by
    intro a b wide
    by_cases negative : a.toModel.unpack = .zero .negative
    · -- The sum is the positive zero, and both zeros are equally far from any number but a zero.
      have sum : (a + 0.0).toModel.unpack = .zero .positive := by
        rw [toModel_add, unpack_zero, negative]
        rfl
      cases hb : b.toModel.unpack with
      | zero sign =>
        have small (c : Float) (zero : ∃ sign, c.toModel.unpack = .zero sign) : ¬ tolerance < c - b := by
          obtain ⟨sign', hc⟩ := zero
          have difference : ∃ sign, c - b = Float.ofModel (Float.Model.pack (.zero sign)) := by
            cases sign <;> cases sign' <;> exact ⟨_, float_ext (by rw [toModel_sub, hc, hb]; rfl)⟩
          obtain ⟨sign, hd⟩ := difference
          rw [hd]
          exact not_tolerance_lt_zero sign
        rcases wide with wide | wide
        · exact absurd wide (small (a + 0.0) ⟨_, sum⟩)
        · exact absurd wide (small a ⟨_, negative⟩)
      | notANumber => exact float_ext (by rw [toModel_sub, toModel_sub, sum, negative, hb]; rfl)
      | infinity sign => exact float_ext (by rw [toModel_sub, toModel_sub, sum, negative, hb]; rfl)
      | finite sign mantissa exponent positive =>
        exact float_ext (by rw [toModel_sub, toModel_sub, sum, negative, hb]; rfl)
    · rw [float_add_zero negative]

theorem unpacked_sub_self (a : UnpackedFloat) :
    ∃ none, (none = .zero .positive ∨ none = .notANumber) ∧ UnpackedFloat.sub .binary64 a a = none := by
  cases a with
  | notANumber => exact ⟨_, .inr rfl, rfl⟩
  | infinity sign => cases sign <;> exact ⟨_, .inr rfl, rfl⟩
  | zero sign => cases sign <;> exact ⟨_, .inl rfl, rfl⟩
  | finite sign mantissa exponent positive =>
    refine ⟨_, .inl rfl, ?_⟩
    simp [UnpackedFloat.sub, UnpackedFloat.normalize]

instance : SelfNear Float where
  apart_self := by
    intro a
    obtain ⟨none, value, difference⟩ := unpacked_sub_self a.toModel.unpack
    have same : a - a = Float.ofModel (Float.Model.pack none) := float_ext (by rw [toModel_sub, difference])
    unfold apart
    rw [same, decide_eq_false_iff_not]
    rcases value with rfl | rfl
    · decide +kernel
    · decide +kernel

end PulseSequencer.Scalar
