import PulseSequencer.Proofs.Grid
import PulseSequencer.Waveform.Sample

/-!
This module contains what the buffers of a waveform hold: its values at the points of the grid that lie within its width,
as exact numbers have it. A buffer of complex values and the evaluation at given times, be it in place or not, agree with it.
-/

namespace PulseSequencer.Waveform

section Padding

variable {β : Type} {f : Nat → β} {z : β} {n size i : Nat} {count unit : UInt64}

def padded (f : Nat → β) (z : β) (n size : Nat) : Array β :=
  Array.ofFn fun i : Fin size => if i < n then f i else z

theorem size_padded (f : Nat → β) (z : β) (n size : Nat) : (padded f z n size).size = size :=
  Array.size_ofFn

theorem getElem?_padded : (padded f z n size)[i]? = if i < size then some (if i < n then f i else z) else none := by
  unfold padded
  rw [Array.getElem?_ofFn]
  split <;> rfl

theorem overwrite?_replicate (long : n ≤ size) :
    overwrite? (Array.ofFn fun i : Fin n => f i) (Array.replicate size z) = some (padded f z n size) := by
  unfold overwrite?
  rw [Array.size_ofFn, Array.size_replicate, if_pos long]
  congr 1
  apply Array.ext_getElem?
  intro i
  rw [Array.getElem?_append, Array.size_ofFn, Array.extract_replicate, Array.getElem?_replicate, getElem?_padded]
  by_cases early : i < n
  · rw [if_pos early, if_pos early, if_pos (by omega), Array.getElem?_ofFn, dif_pos early]
  · have shifted : i - n < size - n ↔ i < size := by omega
    simp only [if_neg early, Nat.min_self, shifted]

theorem overwrite?_alignUp (f : Nat → β) (z : β) (count unit : UInt64) :
    ((Grid.alignUp count unit).bind fun length =>
        overwrite? (Array.ofFn fun i : Fin count.toNat => f i) (Array.replicate length.toNat z))
      = if Grid.roundUp count unit < 2 ^ 64 then some (padded f z count.toNat (Grid.roundUp count unit)) else none := by
  -- The length would rather leave the words than fall short of the head.
  have long := Grid.le_roundUp count unit
  cases rounded : Grid.alignUp count unit with
  | none =>
    rw [if_neg (Grid.isSome_alignUp_iff.not.mp (by simp [rounded])), Option.bind_none]
  | some length =>
    rw [if_pos (Grid.isSome_alignUp_iff.mp (by simp [rounded])), Option.bind_some,
      Grid.alignUp_eq_some_iff.mp rounded, overwrite?_replicate long]

end Padding

section Buffers

variable {α : Type} [Scalar α] {w : Waveform α} {rate : α} {unit : UInt64} {samples : Array α}

theorem getElem?_evaluate_go (w : Waveform α) (i j : Nat) (buffer : Array α) :
    (evaluate.go w i buffer)[j]? = if j < i then buffer[j]? else buffer[j]?.map w.realValue := by
  -- The times in front of the position have been replaced already.
  fun_induction evaluate.go w i buffer with
  | case1 i buffer inside ih =>
    rw [ih, Array.getElem?_set]
    by_cases here : i = j
    · subst here
      rw [if_pos (Nat.lt_succ_self i), if_pos rfl, if_neg (Nat.lt_irrefl i), Array.getElem?_eq_getElem inside]
      rfl
    · have next : j < i + 1 ↔ j < i := by omega
      simp only [if_neg here, next]
  | case2 i buffer outside =>
    split
    · rfl
    · rw [Array.getElem?_eq_none (by omega)]
      rfl

theorem evaluate_eq_valuesAt (w : Waveform α) (times : Array α) : w.evaluate times = w.valuesAt times := by
  apply Array.ext_getElem?
  intro j
  unfold evaluate valuesAt
  rw [getElem?_evaluate_go, if_neg (Nat.not_lt_zero j), Array.getElem?_map]

theorem sample_eq (w : Waveform α) (rate : α) (unit : UInt64) :
    w.sample rate unit
      = if Grid.roundUp (w.sampleCount rate) unit < 2 ^ 64 then
          some (padded (fun i => w.realValue (Grid.time rate i)) 0.0 (w.sampleCount rate).toNat
            (Grid.roundUp (w.sampleCount rate) unit))
        else none := by
  unfold sample
  simp only [evaluate_eq_valuesAt, valuesAt, Grid.times, Array.map_ofFn]
  exact overwrite?_alignUp (fun i => w.realValue (Grid.time rate i)) 0.0 (w.sampleCount rate) unit

theorem sampleComplex_eq (w : Waveform α) (rate : α) (unit : UInt64) :
    w.sampleComplex rate unit
      = if Grid.roundUp (w.sampleCount rate) unit < 2 ^ 64 then
          some (padded (fun i => w.value (Grid.time rate i)) .zero (w.sampleCount rate).toNat
            (Grid.roundUp (w.sampleCount rate) unit))
        else none := by
  unfold sampleComplex
  simp only [Grid.times, Array.map_ofFn]
  exact overwrite?_alignUp (fun i => w.value (Grid.time rate i)) .zero (w.sampleCount rate) unit

theorem isSome_sample_iff :
    (w.sample rate unit).isSome = true ↔ Grid.roundUp (w.sampleCount rate) unit < 2 ^ 64 := by
  rw [sample_eq]
  split
  · exact iff_of_true rfl ‹_›
  · exact iff_of_false Bool.false_ne_true ‹_›

theorem normalizedSample_eq_none_iff :
    w.normalizedSample rate unit = none ↔ 2 ^ 64 ≤ Grid.roundUp (w.sampleCount rate) unit := by
  rw [normalizedSample, Option.map_eq_none_iff, ← Option.not_isSome_iff_eq_none, isSome_sample_iff, not_lt]

theorem eq_padded_of_sample (sampled : w.sample rate unit = some samples) :
    samples = padded (fun i => w.realValue (Grid.time rate i)) 0.0 (w.sampleCount rate).toNat
      (Grid.roundUp (w.sampleCount rate) unit) := by
  rw [sample_eq] at sampled
  split at sampled
  · exact (Option.some.inj sampled).symm
  · cases sampled

theorem map_re_sampleComplex (w : Waveform α) (rate : α) (unit : UInt64) :
    (w.sampleComplex rate unit).map (fun values => values.map (·.re)) = w.sample rate unit := by
  rw [sampleComplex_eq, sample_eq]
  split
  · unfold padded
    rw [Option.map_some, Array.map_ofFn]
    congr 2
    funext i
    rw [Function.comp_apply, apply_ite Complex.re]
    rfl
  · rfl

theorem take_sample {n : Nat} (sampled : w.sample rate unit = some samples) (count : (w.sampleCount rate).toNat = n)
    (long : n ≤ samples.size) : samples.take n = w.valuesAt (Grid.times rate n) := by
  apply Array.ext_getElem?
  intro i
  unfold valuesAt Grid.times
  rw [Array.getElem?_map, Array.getElem?_ofFn, Array.take_eq_extract, Array.getElem?_extract, Nat.min_eq_left long,
    Nat.sub_zero, Nat.zero_add]
  by_cases early : i < n
  · rw [eq_padded_of_sample sampled, size_padded] at long
    rw [if_pos early, dif_pos early, eq_padded_of_sample sampled, getElem?_padded, if_pos (by omega), count,
      if_pos early]
    rfl
  · rw [if_neg early, dif_neg early]
    rfl

end Buffers

section Cover

variable {K : Type} [Field K] [LinearOrder K] [FloorRing K] [Elementary K] [IsStrictOrderedRing K]
  {w : Waveform K} {rate : K} {unit : UInt64} {m : Nat}

/--
What it means that a buffer covers a waveform: it has the values at the first `n` points of the grid, which are those within
the width that are not taken for its end, and behind them zeros up to the least length in whole units.
-/
structure Covered (w : Waveform K) (rate : K) (unit : UInt64) (n : Nat) (samples : Array K) : Prop where
  sampled : w.sample rate unit = some samples
  size : IsLeast {m | max unit.toNat 1 ∣ m ∧ n ≤ m} samples.size
  played : ∀ i < n, samples[i]? = some (w.value (i / rate)).re
  padded : ∀ i, n ≤ i → i < samples.size → samples[i]? = some 0
  inside : ∀ i < n, (i : K) / rate < w.width
  outside : ∀ i, n ≤ i → w.width - Grid.jitter / rate < i / rate
  measured : |n / rate - w.width| < 1 / rate
  complex : (w.sampleComplex rate unit).map (fun values => values.map (·.re)) = some samples
  shown : samples.take n = w.valuesAt (Grid.times rate n)
  evaluated : samples.take n = w.evaluate (Grid.times rate n)

/--
A waveform has a buffer that covers it, if there is a word of whole units that all points fit into.
-/
theorem sample_covers (nonneg : 0 ≤ w.width) (positive : 0 < rate) (multiple : max unit.toNat 1 ∣ m)
    (reaches : Grid.points w.width rate ≤ m) (bound : m < 2 ^ 64) :
    ∃ samples, Covered w rate unit (w.sampleCount rate).toNat samples := by
  have count : (w.sampleCount rate).toNat = Grid.points w.width rate :=
    Grid.sampleCount_eq_points positive (reaches.trans_lt bound)
  have fits : Grid.roundUp (w.sampleCount rate) unit < 2 ^ 64 :=
    Grid.roundUp_lt_of_dvd multiple (count ▸ reaches) bound
  obtain ⟨samples, sampled⟩ : ∃ samples, w.sample rate unit = some samples :=
    Option.isSome_iff_exists.mp (isSome_sample_iff.mpr fits)
  have whole := eq_padded_of_sample sampled
  have least : IsLeast {m | max unit.toNat 1 ∣ m ∧ (w.sampleCount rate).toNat ≤ m} samples.size := by
    rw [whole, size_padded]
    exact Grid.isLeast_roundUp (w.sampleCount rate) unit
  have long : (w.sampleCount rate).toNat ≤ samples.size := least.1.2
  have points (i : Nat) : i < (w.sampleCount rate).toNat ↔ (i : K) / rate ≤ w.width - Grid.jitter / rate :=
    count ▸ Grid.lt_points_iff positive
  have slack : 0 < (Grid.jitter : K) / rate := div_pos Grid.jitter_pos positive
  have stored (i : Nat) (within : i < samples.size) :
      samples[i]? = some (if i < (w.sampleCount rate).toNat then w.realValue (Grid.time rate i) else 0.0) := by
    rw [whole, size_padded] at within
    rw [whole, getElem?_padded, if_pos within]
  refine ⟨samples, ?_⟩
  exact {
    sampled := sampled
    size := least
    played := by
      intro i early
      rw [stored i (by omega), if_pos early]
      rfl
    padded := by
      intro i late within
      rw [stored i within, if_neg (by omega), Scalar.zero_exact]
    inside := by
      intro i early
      have within := (points i).mp early
      linarith
    outside := by
      intro i late
      rw [← not_le, ← points]
      omega
    measured := count ▸ Grid.points_near nonneg positive
    complex := (map_re_sampleComplex w rate unit).trans sampled
    shown := take_sample sampled rfl long
    evaluated := by
      rw [evaluate_eq_valuesAt]
      exact take_sample sampled rfl long }

def snapped : Waveform ℚ := .sequence [.dc 1 2 0, .dc (1 / 4 + 1e-8) (-1) 0]

theorem sample_snapped_covers :
    0 ≤ snapped.width ∧ (0 : ℚ) < 4 ∧ max (8 : UInt64).toNat 1 ∣ 8 ∧ Grid.points snapped.width 4 ≤ 8
      ∧ ∃ samples, Covered snapped 4 8 (snapped.sampleCount 4).toNat samples := by
  have nonneg : 0 ≤ snapped.width := by decide +kernel
  have reaches : Grid.points snapped.width 4 ≤ 8 := by decide +kernel
  exact ⟨nonneg, by norm_num, by decide, reaches,
    sample_covers nonneg (by norm_num) (by decide) reaches (by norm_num)⟩

example : (snapped.sample 4 8, snapped.width) = (some #[2, 2, 2, 2, -1, 0, 0, 0], 5 / 4 + 1e-8) := by
  decide +kernel

end Cover

end PulseSequencer.Waveform
