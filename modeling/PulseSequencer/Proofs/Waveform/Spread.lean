import PulseSequencer.Proofs.Waveform.Concat

/-!
This module contains what it means that a waveform plays others at times of their own, with silence between them.
-/

namespace PulseSequencer.Waveform

variable {K : Type} [Field K] [LinearOrder K] [FloorRing K] [Elementary K]

/--
Pieces that a waveform plays one after the other, each from an offset on. It plays nothing else.
-/
structure Spread (pieces : List (K × Waveform K)) (w : Waveform K) : Prop where
  ordered : pieces.Pairwise fun p p' => p.1 + p.2.width ≤ p'.1
  within : ∀ p ∈ pieces, p.1 + p.2.width ≤ w.width
  inside : ∀ p ∈ pieces, ∀ t, p.1 ≤ t → t < p.1 + p.2.width → w.value t = p.2.value (t - p.1)
  outside : ∀ t, (∀ p ∈ pieces, ¬(p.1 ≤ t ∧ t < p.1 + p.2.width)) → w.value t = .zero

namespace Spread

variable {pieces : List (K × Waveform K)} {track w w' : Waveform K} {offset : K}

theorem blank (width : K) : Spread [] (blank width) where
  ordered := .nil
  within := nofun
  inside := nofun
  outside t _ := value_blank width t

theorem congr (spread : Spread pieces w) (value : ∀ t, w'.value t = w.value t) (longer : w.width ≤ w'.width) :
    Spread pieces w' where
  ordered := spread.ordered
  within p mem := (spread.within p mem).trans longer
  inside p mem t begun going := by rw [value, spread.inside p mem t begun going]
  outside t silent := by rw [value, spread.outside t silent]

variable [IsStrictOrderedRing K]

theorem snoc (spread : Spread pieces track) (behind : track.width ≤ offset) (width : w'.width = offset + w.width)
    (nonneg : 0 ≤ w.width) (value : ∀ t, w'.value t = if t < offset then track.value t else w.value (t - offset)) :
    Spread (pieces ++ [(offset, w)]) w' := by
  have before : ∀ p ∈ pieces, p.1 + p.2.width ≤ offset := fun p mem => (spread.within p mem).trans behind
  constructor
  case ordered =>
    rw [List.pairwise_append]
    refine ⟨spread.ordered, List.pairwise_singleton .., ?_⟩
    intro p mem p' last
    rw [List.mem_singleton.mp last]
    exact before p mem
  case within =>
    rw [List.forall_mem_append, width]
    constructor
    · intro p mem
      have := before p mem
      linarith
    · intro p last
      rw [List.mem_singleton.mp last]
  case inside =>
    rw [List.forall_mem_append]
    constructor
    · intro p mem t begun going
      have earlier := before p mem
      rw [value, if_pos (by linarith)]
      exact spread.inside p mem t begun going
    · intro p last t begun _
      rw [List.mem_singleton.mp last] at begun ⊢
      rw [value, if_neg (not_lt.mpr begun)]
  case outside =>
    intro t silent
    rw [List.forall_mem_append] at silent
    rw [value]
    split
    · exact spread.outside t silent.1
    · rename_i begun
      have ended := silent.2 _ (List.mem_singleton_self _)
      apply value_of_outside
      right
      by_contra going
      apply ended
      refine ⟨not_lt.mp begun, ?_⟩
      dsimp only
      linarith

end Spread

end PulseSequencer.Waveform
