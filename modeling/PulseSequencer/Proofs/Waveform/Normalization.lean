import PulseSequencer.Proofs.Waveform.Sampling
import PulseSequencer.Proofs.Device.Channel

/-!
This module contains that samples are not lost by dividing them by their peak, as exact numbers have it. The peak is the
largest magnitude among them, and a device that is given the quotients and the peak holds the samples.
-/

namespace PulseSequencer.Waveform

section Folds

variable {K : Type} [Field K] [LinearOrder K] {values : List K} {v top : K}

theorem le_foldl_max (h : v ∈ values ∨ |v| ≤ top) : |v| ≤ values.foldl (fun acc v => max acc |v|) top := by
  induction values generalizing top with
  | nil => exact h.resolve_left List.not_mem_nil
  | cons first rest ih =>
    apply ih
    rcases h with mem | less
    · rcases List.mem_cons.mp mem with rfl | mem
      · exact .inr (le_max_right ..)
      · exact .inl mem
    · exact .inr (less.trans (le_max_left ..))

theorem foldl_max_eq_or_mem (values : List K) (top : K) :
    values.foldl (fun acc v => max acc |v|) top = top
      ∨ ∃ v ∈ values, values.foldl (fun acc v => max acc |v|) top = |v| := by
  induction values generalizing top with
  | nil => exact .inl rfl
  | cons first rest ih =>
    rw [List.foldl_cons]
    rcases ih (max top |first|) with same | ⟨v, mem, same⟩
    · rcases max_choice top |first| with before | here
      · exact .inl (same.trans before)
      · exact .inr ⟨first, List.mem_cons_self, same.trans here⟩
    · exact .inr ⟨v, List.mem_cons_of_mem first mem, same⟩

end Folds

variable {K : Type} [Field K] [LinearOrder K] [FloorRing K] [Elementary K] [IsStrictOrderedRing K]
  {samples : Array K} {v : K}

open Scalar

section Peaks

theorem peak_eq (samples : Array K) : peak samples = samples.toList.foldl (fun acc v => max acc |v|) 0 := by
  unfold peak
  rw [← Array.foldl_toList, zero_exact]
  simp only [maximum_exact, magnitude_exact]

theorem abs_le_peak (mem : v ∈ samples) : |v| ≤ peak samples := by
  rw [peak_eq]
  exact le_foldl_max (.inl (Array.mem_toList_iff.mpr mem))

theorem peak_eq_zero_or_mem (samples : Array K) : peak samples = 0 ∨ ∃ v ∈ samples, |v| = peak samples := by
  rw [peak_eq]
  rcases foldl_max_eq_or_mem samples.toList 0 with silent | ⟨v, mem, same⟩
  · exact .inl silent
  · exact .inr ⟨v, Array.mem_toList_iff.mp mem, same.symm⟩

theorem peak_nonneg (samples : Array K) : 0 ≤ peak samples := by
  rcases peak_eq_zero_or_mem samples with silent | ⟨v, _, same⟩
  · exact silent.ge
  · exact same ▸ abs_nonneg v

theorem peak_eq_zero_iff : peak samples = 0 ↔ ∀ v ∈ samples, v = 0 := by
  constructor
  · intro silent v mem
    exact abs_nonpos_iff.mp (silent ▸ abs_le_peak mem)
  · intro zeros
    rcases peak_eq_zero_or_mem samples with silent | ⟨v, mem, same⟩
    · exact silent
    · rw [← same, zeros v mem, abs_zero]

theorem exists_peak (some : samples ≠ #[]) : ∃ v ∈ samples, |v| = peak samples := by
  rcases peak_eq_zero_or_mem samples with silent | attained
  · obtain ⟨v, mem⟩ := Array.exists_mem_of_ne_empty samples some
    refine ⟨v, mem, ?_⟩
    rw [silent, peak_eq_zero_iff.mp silent v mem, abs_zero]
  · exact attained

end Peaks

/--
A buffer with the peak one, together with the factor that brings it back to the samples that it was made of.
-/
structure Normalized (samples buffer : Array K) (top : K) : Prop where
  size : buffer.size = samples.size
  restored : ∀ i : Nat, buffer[i]?.map (· * top) = samples[i]?
  largest : ∀ v ∈ samples, |v| ≤ top
  attained : samples ≠ #[] → ∃ v ∈ samples, |v| = top
  empty : samples = #[] → top = 0
  bounded : ∀ v ∈ buffer, |v| ≤ 1
  full : top ≠ 0 → ∃ v ∈ buffer, |v| = 1
  silent : top = 0 ↔ ∀ v ∈ samples, v = 0
  untouched : top = 0 → buffer = samples

section Quotients

theorem normalized_self (silent : peak samples = 0) : Normalized samples samples (peak samples) := by
  have zeros := peak_eq_zero_iff.mp silent
  exact {
    size := rfl
    restored := by
      intro i
      cases here : samples[i]? with
      | none => rfl
      | some v => simp [zeros v (Array.mem_of_getElem? here)]
    largest := fun _ => abs_le_peak
    attained := exists_peak
    empty := fun _ => silent
    bounded := by
      intro v mem
      rw [zeros v mem, abs_zero]
      exact zero_le_one
    full := fun loud => absurd silent loud
    silent := peak_eq_zero_iff
    untouched := fun _ => rfl }

theorem normalized_quotients (loud : 0 < peak samples) :
    Normalized samples (samples.map (· / peak samples)) (peak samples) := by
  have quotient (v : K) : |v / peak samples| = |v| / peak samples := by
    rw [abs_div, abs_of_pos loud]
  exact {
    size := Array.size_map
    restored := by
      intro i
      rw [Array.getElem?_map]
      cases samples[i]? with
      | none => rfl
      | some v => simp [loud.ne']
    largest := fun _ => abs_le_peak
    attained := exists_peak
    empty := by
      rintro rfl
      exact peak_eq_zero_iff.mpr fun v mem => absurd mem (Array.not_mem_empty v)
    bounded := by
      intro v mem
      obtain ⟨sample, stored, rfl⟩ := Array.mem_map.mp mem
      rw [quotient]
      exact (div_le_one loud).mpr (abs_le_peak stored)
    full := by
      intro _
      obtain ⟨sample, stored, largest⟩ := (peak_eq_zero_or_mem samples).resolve_left loud.ne'
      refine ⟨_, Array.mem_map_of_mem stored, ?_⟩
      rw [quotient, largest, div_self loud.ne']
    silent := peak_eq_zero_iff
    untouched := fun silent => absurd silent loud.ne' }

theorem normalized_normalize (samples : Array K) :
    Normalized samples (normalize samples).1 (normalize samples).2 := by
  unfold normalize
  dsimp only
  rw [zero_exact]
  by_cases loud : 0 < peak samples
  · rw [if_pos loud]
    exact normalized_quotients loud
  · rw [if_neg loud]
    exact normalized_self (le_antisymm (not_lt.mp loud) (peak_nonneg samples))

theorem map_normalize (samples : Array K) : (normalize samples).1.map (· * (normalize samples).2) = samples := by
  apply Array.ext_getElem?
  intro i
  rw [Array.getElem?_map]
  exact (normalized_normalize samples).restored i

theorem waveform_of_normalizedSample {w : Waveform K} {rate : K} {unit : UInt64} {state : ChannelState K}
    (loaded : w.normalizedSample rate unit = some (state.samples, state.amplitude)) :
    w.sample rate unit = some state.waveform := by
  obtain ⟨samples, sampled, normalized⟩ := Option.map_eq_some_iff.mp loaded
  rw [sampled, ← map_normalize samples, normalized]
  rfl

end Quotients

/--
Nothing is lost by normalizing samples, whatever they are: a device that takes what is written to it holds them afterwards.
There is nothing to normalize only if the samples are so many that their number is not a word.
-/
theorem normalizedSample_lossless (w : Waveform K) (rate : K) (unit : UInt64) :
    (2 ^ 64 ≤ Grid.roundUp (w.sampleCount rate) unit ∧ w.sample rate unit = none ∧ w.normalizedSample rate unit = none)
      ∨ ∃ samples buffer top, w.sample rate unit = some samples ∧ w.normalizedSample rate unit = some (buffer, top)
        ∧ Normalized samples buffer top
        ∧ ∀ d : ChannelDevice K, d.Writable →
          (d.write buffer top).result = .ok () ∧ (d.write buffer top).device.state.waveform = samples := by
  cases sampled : w.sample rate unit with
  | none =>
    have beyond : ¬ Grid.roundUp (w.sampleCount rate) unit < 2 ^ 64 := isSome_sample_iff.not.mp (by simp [sampled])
    exact .inl ⟨not_lt.mp beyond, rfl, by rw [normalizedSample, sampled, Option.map_none]⟩
  | some samples =>
    refine .inr ⟨samples, (normalize samples).1, (normalize samples).2, rfl,
      by rw [normalizedSample, sampled, Option.map_some], normalized_normalize samples, ?_⟩
    intro d writable
    obtain ⟨ok, device⟩ := writable.write (normalize samples).1 (normalize samples).2
    refine ⟨ok, ?_⟩
    rw [device]
    exact map_normalize samples

def dipping : Waveform ℚ := .sequence [.dc (1 / 2) (1 / 2) 0, .dc (1 / 4) (-2) 0]

theorem normalizedSample_dipping_lossless :
    ∃ samples buffer top, dipping.sample 4 4 = some samples ∧ dipping.normalizedSample 4 4 = some (buffer, top)
      ∧ Normalized samples buffer top
      ∧ (ChannelDevice.memory (4 : ℚ) 4).Writable
      ∧ ((ChannelDevice.memory 4 4).write buffer top).result = .ok ()
      ∧ ((ChannelDevice.memory 4 4).write buffer top).device.state.waveform = samples := by
  have writable : (ChannelDevice.memory (4 : ℚ) 4).Writable := ⟨rfl, rfl⟩
  rcases normalizedSample_lossless dipping 4 4 with
    ⟨_, missing, _⟩ | ⟨samples, buffer, top, sampled, made, normalized, loaded⟩
  · have sampled : dipping.sample 4 4 ≠ none := by decide +kernel
    exact absurd missing sampled
  · exact ⟨samples, buffer, top, sampled, made, normalized, writable, loaded _ writable⟩

example : dipping.normalizedSample 4 4 = some (#[1 / 4, 1 / 4, -1, 0], 2) := by
  decide +kernel

end PulseSequencer.Waveform
