import Mathlib.Analysis.SpecialFunctions.Log.Basic
import Mathlib.Analysis.SpecialFunctions.Trigonometric.Basic
import PulseSequencer.Proofs.Waveform.Concat
import PulseSequencer.Calibration

/-!
This module contains what a modulated pair plays, as exact numbers have it: the pair as one complex number, turned with the
carrier. A calibration without anything to correct does not show, and one that corrects an arm leaves the other one alone.
-/

namespace PulseSequencer

theorem Complex.ext {α : Type} {z w : Complex α} (re : z.re = w.re) (im : z.im = w.im) : z = w := by
  cases z
  cases w
  exact congrArg₂ mk re im

variable {K : Type} [Field K] [LinearOrder K] [FloorRing K] [Elementary K]

namespace Complex

def j : Complex K := ⟨0, 1⟩

def turn (angle : K) : Complex K := ⟨Scalar.cos angle, Scalar.sin angle⟩

variable (z w : Complex K)

@[simp]
theorem re_zero : (zero : Complex K).re = 0 := Scalar.zero_exact

@[simp]
theorem im_zero : (zero : Complex K).im = 0 := Scalar.zero_exact

protected theorem add_zero : z + zero = z := by
  apply Complex.ext <;> simp

protected theorem zero_add : zero + z = z := by
  apply Complex.ext <;> simp

protected theorem zero_mul : zero * z = zero := by
  apply Complex.ext <;> simp

protected theorem mul_zero : z * zero = zero := by
  apply Complex.ext <;> simp

protected theorem mul_comm : z * w = w * z := by
  apply Complex.ext
  · rw [re_mul, re_mul, mul_comm z.re, mul_comm z.im]
  · rw [im_mul, im_mul, mul_comm z.re, mul_comm z.im, add_comm]

theorem ofPolar_one (angle : K) : ofPolar 1 angle = turn angle := by
  apply Complex.ext <;> simp [ofPolar, turn]

end Complex

namespace Waveform

variable {lhs rhs inner : Waveform K} {arms : Arms K} {t : K}

theorem value_sum (lhs rhs : Waveform K) (t : K) : (sum lhs rhs).value t = lhs.value t + rhs.value t := by
  by_cases playing : plays (sum lhs rhs).width t = true
  · rw [value, if_pos playing]
  · have outside : t < 0 ∨ lhs.width ≤ t ∧ rhs.width ≤ t := by
      rw [plays_iff, width_sum, Scalar.maximum_exact] at playing
      by_contra inside
      grind
    rw [value_of_not_plays (Bool.eq_false_iff.mpr playing), value_of_outside (outside.imp_right And.left),
      value_of_outside (outside.imp_right And.right), Complex.add_zero]

theorem value_carry (lhs rhs : Waveform K) (t : K) : (carry lhs rhs).value t = lhs.value t * rhs.value t := by
  by_cases playing : plays (carry lhs rhs).width t = true
  · rw [value, if_pos playing]
  · have outside : t < 0 ∨ lhs.width ≤ t := by
      rw [plays_iff, width_carry, Scalar.maximum_exact] at playing
      by_contra inside
      grind
    rw [value_of_not_plays (Bool.eq_false_iff.mpr playing), value_of_outside outside, Complex.zero_mul]

theorem value_carry_of_playing {z : Complex K} (alongside : plays lhs.width t = true → rhs.value t = z) :
    (carry lhs rhs).value t = lhs.value t * z := by
  rw [value_carry]
  cases playing : plays lhs.width t with
  | true => rw [alongside playing]
  | false => rw [value_of_not_plays playing, Complex.zero_mul, Complex.zero_mul]

end Waveform

structure Arms.Plain (arms : Arms K) : Prop where
  shiftI : arms.shiftI = 0
  shiftQ : arms.shiftQ = 0
  scaleI : arms.scaleI = 1
  scaleQ : arms.scaleQ = 1

theorem Arms.Plain.value {arms : Arms K} (plain : arms.Plain) (inner : Waveform K) (t : K) :
    (Waveform.iq inner arms).value t = inner.value t := by
  cases playing : Waveform.plays inner.width t with
  | true =>
    rw [Waveform.value, Waveform.width_iq, if_pos playing, plain.shiftI, plain.shiftQ, plain.scaleI, plain.scaleQ,
      add_zero, mul_one, mul_one]
  | false =>
    rw [Waveform.value_of_not_plays playing, Waveform.value_of_not_plays]
    rw [Waveform.width_iq, playing]

namespace CalibratedIq

open Waveform

def armValue (w? : Option (Waveform K)) (t : K) : Complex K :=
  match w? with
  | some w => w.value t
  | none => .zero

def carrierAngle (carrierFreq : K) (conversion : Conversion) (t : K) : K :=
  match conversion with
  | .up => -(2.0 * Scalar.pi * carrierFreq * t)
  | .down => 2.0 * Scalar.pi * carrierFreq * t

def modulated (i q : Option (Waveform K)) (carrierFreq : K) (conversion : Conversion) (t : K) : Complex K :=
  (armValue i t + Complex.j * armValue q t) * Complex.turn (carrierAngle carrierFreq conversion t)

structure SameI (c c' : Calibration K) : Prop where
  factor : c.iAmpFactor = c'.iAmpFactor
  phase : c.iPhaseShift = c'.iPhaseShift
  time : c.iTimeOffset = c'.iTimeOffset

structure SameQ (c c' : Calibration K) : Prop where
  factor : c.qAmpFactor = c'.qAmpFactor
  phase : c.qPhaseShift = c'.qPhaseShift
  time : c.qTimeOffset = c'.qTimeOffset

section Baseband

variable {i q : Option (Waveform K)} {base : Waveform K} {carrierFreq : K} {conversion : Conversion}

theorem value_quadrature (quarter : Complex.turn (Scalar.pi / 2 : K) = Complex.j) (turning : (Scalar.pi : K) ≠ 0)
    (q : Waveform K) (t : K) : (quadrature q).value t = Complex.j * q.value t := by
  rw [Complex.mul_comm]
  apply value_carry_of_playing
  intro playing
  -- The phase must not be zero: a constant without one is played as it is, whatever the cosine of zero may be.
  have some : (Scalar.pi / 2.0 : K) ≠ 0.0 := by
    norm_num
    exact turning
  rw [value, width_dc, if_pos playing, if_neg (by simpa using some), ← quarter, ← Complex.ofPolar_one]
  norm_num

theorem value_baseband (quarter : Complex.turn (Scalar.pi / 2 : K) = Complex.j) (turning : (Scalar.pi : K) ≠ 0)
    (given : baseband? i q = some base) (t : K) : base.value t = armValue i t + Complex.j * armValue q t := by
  cases i with
  | none =>
    cases q with
    | none => cases given
    | some q =>
      cases given
      rw [value_quadrature quarter turning]
      exact (Complex.zero_add _).symm
  | some i =>
    cases q with
    | none =>
      cases given
      exact ((congrArg _ (Complex.mul_zero Complex.j)).trans (Complex.add_zero _)).symm
    | some q =>
      cases given
      rw [value_sum, value_quadrature quarter turning]
      rfl

theorem value_carried (base : Waveform K) (carrierFreq : K) (conversion : Conversion) (t : K) :
    (base.carry (carrier base.width carrierFreq conversion)).value t
      = base.value t * Complex.turn (carrierAngle carrierFreq conversion t) := by
  apply value_carry_of_playing
  intro playing
  unfold carrier
  rw [value, width_complexExp, if_pos playing, Scalar.one_exact, Complex.ofPolar_one]
  congr 1
  unfold Oscillation.angle carrierAngle angularFreq
  cases conversion with
  | up => norm_num
  | down => norm_num

end Baseband

section Calibrations

variable {i q : Option (Waveform K)} {calibration : Option (Calibration K)} {c c' : Calibration K} {carrierFreq : K}
  {conversion : Conversion} {pair pair' : CalibratedIq K} {inner : Waveform K} {arms arms' : Arms K}

theorem plain_calibrate (amplitude : K) (nothing : calibration = none ∨ calibration = some .ideal ∨ carrierFreq = 0) :
    (calibrate carrierFreq amplitude calibration).Plain := by
  unfold calibrate
  cases calibration with
  | none => constructor <;> simp
  | some record =>
    dsimp only
    by_cases still : carrierFreq = 0
    · rw [if_pos (by simp [still])]
      constructor <;> simp
    · rw [if_neg (by simp [still])]
      obtain rfl : record = .ideal := by simpa [still] using nothing
      constructor <;> simp [Calibration.ideal]

theorem re_value_of_arms (shift : arms.shiftI = arms'.shiftI) (scale : arms.scaleI = arms'.scaleI) (t : K) :
    ((iq inner arms).value t).re = ((iq inner arms').value t).re := by
  rw [value, value, width_iq, width_iq, shift, scale]
  split <;> rfl

theorem im_value_of_arms (shift : arms.shiftQ = arms'.shiftQ) (scale : arms.scaleQ = arms'.scaleQ) (t : K) :
    ((iq inner arms).value t).im = ((iq inner arms').value t).im := by
  rw [value, value, width_iq, width_iq, shift, scale]
  split <;> rfl

theorem SameI.sameArm (same : SameI c c') (carrierFreq amplitude : K) :
    (calibrate carrierFreq amplitude (some c)).shiftI = (calibrate carrierFreq amplitude (some c')).shiftI
      ∧ (calibrate carrierFreq amplitude (some c)).scaleI = (calibrate carrierFreq amplitude (some c')).scaleI := by
  unfold calibrate
  dsimp only
  rw [same.factor, same.phase, same.time]
  split <;> exact ⟨rfl, rfl⟩

theorem SameQ.sameArm (same : SameQ c c') (carrierFreq amplitude : K) :
    (calibrate carrierFreq amplitude (some c)).shiftQ = (calibrate carrierFreq amplitude (some c')).shiftQ
      ∧ (calibrate carrierFreq amplitude (some c)).scaleQ = (calibrate carrierFreq amplitude (some c')).scaleQ := by
  unfold calibrate
  dsimp only
  rw [same.factor, same.phase, same.time]
  split <;> exact ⟨rfl, rfl⟩

theorem exists_baseband (given : i.isSome ∨ q.isSome) : ∃ base, baseband? i q = some base := by
  cases i with
  | none =>
    cases q with
    | none => simp at given
    | some q => exact ⟨_, rfl⟩
  | some i =>
    cases q with
    | none => exact ⟨_, rfl⟩
    | some q => exact ⟨_, rfl⟩

/--
A pair that plays its baseband turned with the carrier, as far as there is nothing to correct.
-/
structure Modulates (i q : Option (Waveform K)) (carrierFreq : K) (conversion : Conversion)
    (calibration : Option (Calibration K)) (pair : CalibratedIq K) : Prop where
  carried : ∀ t, pair.carried.value t = modulated i q carrierFreq conversion t
  uncorrected : calibration = none ∨ calibration = some .ideal ∨ carrierFreq = 0 →
    ∀ t, pair.toWaveform.value t = modulated i q carrierFreq conversion t

/--
A pair of which at least one waveform is given is modulated onto the carrier, and what is corrected about one arm does not
show in the other one.
-/
theorem create_modulates (quarter : Complex.turn (Scalar.pi / 2 : K) = Complex.j) (turning : (Scalar.pi : K) ≠ 0)
    (given : i.isSome ∨ q.isSome) (carrierFreq : K) (conversion : Conversion) :
    (∀ calibration, ∃ pair, create carrierFreq i q calibration conversion = .ok pair
        ∧ Modulates i q carrierFreq conversion calibration pair)
      ∧ ∀ c c' pair pair', create carrierFreq i q (some c) conversion = .ok pair →
        create carrierFreq i q (some c') conversion = .ok pair' →
          (SameI c c' → ∀ t, (pair.toWaveform.value t).re = (pair'.toWaveform.value t).re)
            ∧ (SameQ c c' → ∀ t, (pair.toWaveform.value t).im = (pair'.toWaveform.value t).im) := by
  obtain ⟨base, composed⟩ := exists_baseband given
  have created (calibration : Option (Calibration K)) : create carrierFreq i q calibration conversion
      = .ok ⟨base.carry (carrier base.width carrierFreq conversion), calibrate carrierFreq base.amplitude calibration⟩ := by
    unfold create
    rw [composed]
  have carried (t : K) : (base.carry (carrier base.width carrierFreq conversion)).value t
      = modulated i q carrierFreq conversion t := by
    rw [value_carried, value_baseband quarter turning composed]
    rfl
  constructor
  · intro calibration
    refine ⟨_, created calibration, carried, ?_⟩
    intro nothing t
    exact ((plain_calibrate base.amplitude nothing).value _ t).trans (carried t)
  · intro c c' pair pair' first second
    rw [created] at first second
    cases first
    cases second
    constructor
    · intro same t
      obtain ⟨shift, scale⟩ := same.sameArm carrierFreq base.amplitude
      exact re_value_of_arms shift scale t
    · intro same t
      obtain ⟨shift, scale⟩ := same.sameArm carrierFreq base.amplitude
      exact im_value_of_arms shift scale t

end Calibrations

section Reals

noncomputable instance : Elementary ℝ where
  sqrt := Real.sqrt
  exp := Real.exp
  sin := Real.sin
  cos := Real.cos
  pi := Real.pi
  ln2 := Real.log 2.0

theorem turn_quarter : Complex.turn (Scalar.pi / 2 : ℝ) = Complex.j :=
  Complex.ext Real.cos_pi_div_two Real.sin_pi_div_two

noncomputable def skewed : Calibration ℝ := ⟨0, 0, 0.5, 1, 0.125, 0, 0, 0.25⟩

theorem create_pulse_and_bell_modulates :
    Complex.turn (Scalar.pi / 2 : ℝ) = Complex.j ∧ (Scalar.pi : ℝ) ≠ 0
      ∧ (∃ pair, create 25 (some (.dc 1 1 0)) (some (.gaussian 2 1)) (some .ideal) .down = .ok pair
        ∧ ∀ t : ℝ, pair.toWaveform.value t = modulated (some (.dc 1 1 0)) (some (.gaussian 2 1)) 25 .down t)
      ∧ ∃ pair pair', create 25 (some (.dc 1 1 0)) (some (.gaussian 2 1)) (some skewed) .down = .ok pair
        ∧ create 25 (some (.dc 1 1 0)) (some (.gaussian 2 1)) (some { skewed with qTimeOffset := 0 }) .down = .ok pair'
        ∧ ∀ t : ℝ, (pair.toWaveform.value t).re = (pair'.toWaveform.value t).re := by
  have turning : (Scalar.pi : ℝ) ≠ 0 := Real.pi_ne_zero
  obtain ⟨modulates, independent⟩ := create_modulates (i := some (.dc 1 1 0)) (q := some (.gaussian 2 1)) turn_quarter
    turning (.inl rfl) 25 .down
  refine ⟨turn_quarter, turning, ?_, ?_⟩
  · obtain ⟨pair, created, modulates⟩ := modulates (some .ideal)
    exact ⟨pair, created, modulates.uncorrected (.inr (.inl rfl))⟩
  · obtain ⟨pair, created, _⟩ := modulates (some skewed)
    obtain ⟨pair', created', _⟩ := modulates (some { skewed with qTimeOffset := 0 })
    exact ⟨pair, pair', created, created', (independent _ _ _ _ created created').1 ⟨rfl, rfl, rfl⟩⟩

end Reals

end CalibratedIq

end PulseSequencer
