import PulseSequencer.Proofs.Waveform.Sampling

/-!
This module contains how the buffers of a waveform come about: zeros are allocated for the rounded length, and the head of
the buffer is written over with the values. The rounded length need not be a word, and then there is no buffer at all. There
is none that is shorter than its head.
-/

namespace PulseSequencer

namespace Grid

/--
What rounding up in words comes to: the least length in whole units, and nothing at all exactly if this is not a word. A
length up to the middle of all words is never so long that it is not.
-/
structure Rounded (length unit : UInt64) : Prop where
  least : IsLeast {m | max unit.toNat 1 ∣ m ∧ length.toNat ≤ m} (roundUp length unit)
  exact : ∀ word, alignUp length unit = some word ↔ word.toNat = roundUp length unit
  overflow : alignUp length unit = none ↔ 2 ^ 64 ≤ roundUp length unit
  small : length.toNat ≤ 2 ^ 63 → roundUp length unit < 2 ^ 64

theorem rounded_alignUp (length unit : UInt64) : Rounded length unit where
  least := isLeast_roundUp length unit
  exact := fun _ => alignUp_eq_some_iff
  overflow := by
    rw [← Option.not_isSome_iff_eq_none, isSome_alignUp_iff, not_lt]
  small := roundUp_lt_of_le

end Grid

namespace Waveform

section Heads

variable {β : Type}

/--
What it means that there is room for a head of values in a buffer. Such a buffer exists exactly if the rounded length is a
word, and there is nothing else in it but padding.
-/
structure Roomy (count unit : UInt64) (value : Nat → β) (zero : β) (buffer? : Option (Array β)) : Prop where
  allocated : buffer?.isSome = true ↔ Grid.roundUp count unit < 2 ^ 64
  size : ∀ buffer, buffer? = some buffer → buffer.size = Grid.roundUp count unit
  room : ∀ buffer, buffer? = some buffer → count.toNat ≤ buffer.size
  head : ∀ buffer, buffer? = some buffer → ∀ i < count.toNat, buffer[i]? = some (value i)
  rest : ∀ buffer, buffer? = some buffer → ∀ i, count.toNat ≤ i → i < buffer.size → buffer[i]? = some zero

theorem roomy_padded (value : Nat → β) (zero : β) (count unit : UInt64) :
    Roomy count unit value zero
      (if Grid.roundUp count unit < 2 ^ 64 then some (padded value zero count.toNat (Grid.roundUp count unit))
      else none) := by
  have long := Grid.le_roundUp count unit
  split
  case isTrue fits =>
    constructor
    · exact iff_of_true rfl fits
    · rintro _ ⟨⟩
      exact size_padded ..
    · rintro _ ⟨⟩
      rw [size_padded]
      exact long
    · rintro _ ⟨⟩ i early
      rw [getElem?_padded, if_pos (by omega), if_pos early]
    · rintro _ ⟨⟩ i late within
      rw [size_padded] at within
      rw [getElem?_padded, if_pos within, if_neg (by omega)]
  case isFalse beyond =>
    constructor
    · exact iff_of_false Bool.false_ne_true beyond
    all_goals rintro _ ⟨⟩

end Heads

/--
Rounding up in words is rounding up or fails, and a buffer is as long as its head.
-/
theorem buffers_hold_heads {α : Type} [Scalar α] (length unit : UInt64) (w : Waveform α) (rate : α) :
    Grid.Rounded length unit
      ∧ Roomy (w.sampleCount rate) unit (fun i => w.realValue (Grid.time rate i)) 0.0 (w.sample rate unit)
      ∧ Roomy (w.sampleCount rate) unit (fun i => w.value (Grid.time rate i)) .zero (w.sampleComplex rate unit) := by
  refine ⟨Grid.rounded_alignUp length unit, ?_, ?_⟩
  · rw [sample_eq]
    exact roomy_padded ..
  · rw [sampleComplex_eq]
    exact roomy_padded ..

def endless : Waveform ℚ := .dc (2 ^ 64) 1 0

/--
The last word is not rounded up, although its least multiple is just one further, and a pulse that has this many samples has
no buffer.
-/
theorem not_alignUp_isLeast :
    (¬ ∀ length unit : UInt64, ∃ word, Grid.alignUp length unit = some word
        ∧ IsLeast {m | max unit.toNat 1 ∣ m ∧ length.toNat ≤ m} word.toNat)
      ∧ ¬ ∀ (w : Waveform ℚ) (rate : ℚ) (unit : UInt64), (w.sample rate unit).isSome = true := by
  constructor
  · intro least
    obtain ⟨word, rounded, _⟩ := least 18446744073709551615 16
    have lost : Grid.alignUp 18446744073709551615 16 = none := by decide
    rw [lost] at rounded
    cases rounded
  · intro sampled
    have count : endless.sampleCount 1 = 18446744073709551615 := by decide +kernel
    have fits := isSome_sample_iff.mp (sampled endless 1 16)
    rw [count] at fits
    exact absurd fits (by decide +kernel)

end Waveform

end PulseSequencer
