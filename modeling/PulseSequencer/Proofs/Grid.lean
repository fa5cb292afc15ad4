import PulseSequencer.Proofs.Scalar.Exact
import PulseSequencer.Grid

/-!
This module contains how many points of a sampling grid lie within a width, as exact numbers have it: all that lie before
its end, apart from the ones that are so close to the end that they are taken for it. It also contains to what length a
buffer is rounded up: the least number of whole units, if that is a word at all.
-/

namespace PulseSequencer.Grid

section Units

variable {length unit : UInt64} {m : Nat}

theorem toNat_unit (unit : UInt64) : (if unit = 0 then 1 else unit).toNat = max unit.toNat 1 := by
  split
  · rename_i none
    rw [none]
    rfl
  · rename_i some
    have positive : unit.toNat ≠ 0 := fun none => some (UInt64.toNat_inj.mp none)
    omega

def groups (length unit : Nat) : Nat :=
  length / unit + if length % unit = 0 then 0 else 1

theorem le_groups_mul {length unit : Nat} (positive : 0 < unit) : length ≤ groups length unit * unit := by
  have whole := Nat.div_add_mod length unit
  have last := Nat.mod_lt length positive
  unfold groups
  rw [Nat.add_mul, Nat.mul_comm]
  split <;> omega

theorem groups_mul_le {length unit : Nat} (positive : 0 < unit) (multiple : unit ∣ m) (reaches : length ≤ m) :
    groups length unit * unit ≤ m := by
  obtain ⟨k, rfl⟩ := multiple
  have whole := Nat.div_add_mod length unit
  rw [Nat.mul_comm]
  apply Nat.mul_le_mul_left
  unfold groups
  split
  · rename_i even
    rw [Nat.add_zero]
    apply Nat.le_of_mul_le_mul_left _ positive
    omega
  · rename_i rest
    apply Nat.lt_of_mul_lt_mul_left (a := unit)
    omega

theorem groups_mul_lt {length unit : Nat} (positive : 0 < unit) : groups length unit * unit < length + unit := by
  have whole := Nat.div_add_mod length unit
  unfold groups
  rw [Nat.add_mul, Nat.mul_comm]
  split <;> omega

theorem groups_le {length unit : Nat} (positive : 0 < unit) : groups length unit ≤ length := by
  have near : groups length unit * unit < length + unit := groups_mul_lt positive
  by_contra more
  have beyond : (length + 1) * unit ≤ groups length unit * unit := Nat.mul_le_mul_right unit (not_le.mp more)
  have long : length ≤ length * unit := Nat.le_mul_of_pos_right length positive
  rw [Nat.add_mul] at beyond
  omega

theorem toNat_groups (length : UInt64) {unit : UInt64} (positive : 0 < unit.toNat) :
    (length / unit + if length % unit = 0 then 0 else 1).toNat = groups length.toNat unit.toNat := by
  have word := length.toNat_lt
  -- There are not more groups than words, so it takes a multiplication to leave the words.
  have few : groups length.toNat unit.toNat ≤ length.toNat := groups_le positive
  have rest : length % unit = 0 ↔ length.toNat % unit.toNat = 0 := by
    rw [← UInt64.toNat_inj, UInt64.toNat_mod]
    rfl
  have last : (if length % unit = 0 then 0 else 1 : UInt64).toNat = if length.toNat % unit.toNat = 0 then 0 else 1 := by
    rw [apply_ite UInt64.toNat]
    simp only [rest]
    rfl
  rw [UInt64.toNat_add, UInt64.toNat_div, last]
  exact Nat.mod_eq_of_lt (by unfold groups at few; omega)

/--
The least length in whole units that is not below a length. It need not be a word.
-/
def roundUp (length unit : UInt64) : Nat :=
  groups length.toNat (max unit.toNat 1) * max unit.toNat 1

theorem isLeast_roundUp (length unit : UInt64) :
    IsLeast {m | max unit.toNat 1 ∣ m ∧ length.toNat ≤ m} (roundUp length unit) := by
  have positive : 0 < max unit.toNat 1 := by omega
  constructor
  · exact ⟨Nat.dvd_mul_left _ _, le_groups_mul positive⟩
  · intro m ⟨multiple, reaches⟩
    exact groups_mul_le positive multiple reaches

theorem le_roundUp (length unit : UInt64) : length.toNat ≤ roundUp length unit :=
  (isLeast_roundUp length unit).1.2

theorem roundUp_lt (length unit : UInt64) : roundUp length unit < length.toNat + max unit.toNat 1 :=
  groups_mul_lt (by omega)

theorem alignUp_eq_some_iff {word : UInt64} : alignUp length unit = some word ↔ word.toNat = roundUp length unit := by
  have positive : 0 < max unit.toNat 1 := by omega
  have words : UInt64.size = 2 ^ 64 := rfl
  unfold alignUp roundUp
  rw [← toNat_unit unit] at positive ⊢
  generalize (if unit = 0 then 1 else unit) = u at positive ⊢
  dsimp only
  rw [toNat_groups length positive]
  split
  · rename_i fits
    rw [Option.some.injEq, ← UInt64.toNat_inj, UInt64.toNat_mul, toNat_groups length positive, Nat.mod_eq_of_lt fits]
    exact eq_comm
  · rename_i beyond
    have bound := word.toNat_lt
    constructor
    · intro found
      cases found
    · intro same
      omega

theorem isSome_alignUp_iff : (alignUp length unit).isSome = true ↔ roundUp length unit < 2 ^ 64 := by
  rw [Option.isSome_iff_exists]
  constructor
  · rintro ⟨word, found⟩
    exact alignUp_eq_some_iff.mp found ▸ word.toNat_lt
  · intro fits
    exact ⟨.ofNat (roundUp length unit), alignUp_eq_some_iff.mpr (UInt64.toNat_ofNat_of_lt fits)⟩

theorem roundUp_lt_of_dvd (multiple : max unit.toNat 1 ∣ m) (reaches : length.toNat ≤ m) (bound : m < 2 ^ 64) :
    roundUp length unit < 2 ^ 64 :=
  ((isLeast_roundUp length unit).2 ⟨multiple, reaches⟩).trans_lt bound

theorem roundUp_lt_of_le (bound : length.toNat ≤ 2 ^ 63) : roundUp length unit < 2 ^ 64 := by
  have word := unit.toNat_lt
  have near := roundUp_lt length unit
  by_cases single : length.toNat ≤ max unit.toNat 1
  · have least : roundUp length unit ≤ max unit.toNat 1 := (isLeast_roundUp length unit).2 ⟨dvd_refl _, single⟩
    omega
  · omega

theorem roundUp_of_le_one (single : unit.toNat ≤ 1) : roundUp length unit = length.toNat := by
  unfold roundUp groups
  rw [max_eq_right single, Nat.div_one, Nat.mod_one, if_pos rfl, Nat.add_zero, Nat.mul_one]

end Units

variable {K : Type} [Field K] [LinearOrder K] [FloorRing K] [Elementary K] [IsStrictOrderedRing K]

open Scalar

section Counts

variable {width rate : K} {i : Nat}

/--
The number of points of the grid in `[0, width)` that are not taken for its end, however many they are.
-/
def points (width rate : K) : Nat := (⌊width * rate - jitter⌋ + 1).toNat

theorem lt_points_iff (positive : 0 < rate) : i < points width rate ↔ (i : K) / rate ≤ width - jitter / rate := by
  have shifted : width - jitter / rate = (width * rate - jitter) / rate := by
    rw [sub_div, mul_div_cancel_right₀ _ positive.ne']
  rw [shifted, div_le_div_iff_of_pos_right positive, ← Int.cast_natCast, ← Int.le_floor]
  unfold points
  omega

omit [IsStrictOrderedRing K] in
theorem toNat_toCount (x : K) : (toCount x).toNat = min ⌊x⌋.toNat (2 ^ 64 - 1) := by
  have small : min ⌊x⌋.toNat (2 ^ 64 - 1) < UInt64.size := by
    have := Nat.min_le_right ⌊x⌋.toNat (2 ^ 64 - 1)
    have size : UInt64.size = 2 ^ 64 := rfl
    omega
  exact UInt64.toNat_ofNat_of_lt small

theorem jitter_pos : (0 : K) < jitter := by
  unfold jitter
  norm_num

theorem jitter_lt_half : (jitter : K) < 1 / 2 := by
  unfold jitter
  norm_num

theorem toNat_sampleCount (positive : 0 < rate) :
    (sampleCount width rate).toNat = min (points width rate) (2 ^ 64 - 1) := by
  have pos : (0 : K) < jitter := jitter_pos
  have small : (jitter : K) < 1 / 2 := jitter_lt_half
  unfold sampleCount points
  rw [zero_exact]
  by_cases none : width ≤ 0
  · have negative : ⌊width * rate - jitter⌋ < 0 := by
      rw [Int.floor_lt, Int.cast_zero]
      have := mul_nonpos_of_nonpos_of_nonneg none positive.le
      linarith
    rw [if_pos (.inl none)]
    change 0 = _
    omega
  · rw [if_neg (by simp [not_le.mp none, positive])]
    dsimp only
    generalize width * rate = x
    split
    case isTrue near =>
      obtain ⟨z, rounded⟩ := exists_round x
      rw [rounded, magnitude_exact, abs_lt] at near
      have floor : ⌊x - jitter⌋ = z - 1 := by
        rw [Int.floor_eq_iff, Int.cast_sub, Int.cast_one]
        constructor <;> linarith
      rw [rounded, toNat_toCount, Int.floor_intCast, floor, sub_add_cancel]
    case isFalse far =>
      -- The whole number below is the nearest one as well, if it is near.
      have above : jitter ≤ x - (⌈x⌉ - 1 : ℤ) := by
        by_contra below
        have less := Int.ceil_lt_add_one x
        have near : |x - (⌈x⌉ - 1 : ℤ)| < jitter := by
          rw [abs_of_pos (by push_cast; linarith)]
          exact not_le.mp below
        apply far
        rw [round_eq_of_near (near.trans small), magnitude_exact]
        exact near
      have floor : ⌊x - jitter⌋ = ⌈x⌉ - 1 := by
        have := Int.le_ceil x
        rw [Int.floor_eq_iff]
        constructor
        · linarith
        · push_cast
          linarith
      have ceil : Scalar.ceil x = (⌈x⌉ : K) := rfl
      rw [ceil, toNat_toCount, Int.floor_intCast, floor, sub_add_cancel]

theorem sampleCount_eq_points (positive : 0 < rate) (bound : points width rate < 2 ^ 64) :
    (sampleCount width rate).toNat = points width rate := by
  rw [toNat_sampleCount positive]
  omega

theorem points_near (nonneg : 0 ≤ width) (positive : 0 < rate) : |points width rate / rate - width| < 1 / rate := by
  have slack : 0 < (jitter : K) / rate := div_pos jitter_pos positive
  have period : (jitter : K) / rate < 1 / rate := by
    have half : (jitter : K) < 1 / 2 := jitter_lt_half
    rw [div_lt_div_iff_of_pos_right positive]
    linarith
  have beyond : ¬ (points width rate : K) / rate ≤ width - jitter / rate :=
    (lt_points_iff positive).not.mp (Nat.lt_irrefl _)
  rw [abs_lt]
  constructor
  · linarith
  · cases some : points width rate with
    | zero =>
      rw [Nat.cast_zero, zero_div]
      linarith
    | succ last =>
      have counted : last < points width rate := by omega
      have within := (lt_points_iff positive).mp counted
      rw [Nat.cast_succ, add_div]
      linarith

theorem near_end_of_sampleCount_le (positive : 0 < rate) (count : (sampleCount width rate).toNat ≤ i)
    (bound : i < 2 ^ 64 - 1) : width - jitter / rate < i / rate := by
  rw [toNat_sampleCount positive] at count
  rw [← not_le, ← lt_points_iff positive]
  omega

end Counts

end PulseSequencer.Grid
