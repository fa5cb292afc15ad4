import PulseSequencer.Proofs.Waveform.Spread
import PulseSequencer.Proofs.Slice.Level

/-!
This module contains where a flattened waveform plays the segments of sub slices, and where silence is added to it, as exact
numbers have it. The durations with which the segments were laid out may differ from the present ones.
-/

namespace PulseSequencer.Slice

variable {K : Type} [Field K] [LinearOrder K] [FloorRing K] [Elementary K]

open Scalar

/--
A segment of a sub slice: how many sub slices come before it, how long these last together, and what it plays.
-/
structure Cue (K : Type) [Scalar K] where
  before : Nat
  start : K
  segment : Waveform K

def cuesFrom (ch : ChannelId) (before : Nat) (start : K) : List (Slice K) → List (Cue K)
  | [] => []
  | s :: rest =>
    ((s.flattened.get? ch).map (Cue.mk before start)).toList ++ cuesFrom ch (before + 1) (start + s.duration) rest

/--
Whether a segment is played from an offset on that is early by the tolerance at most, and never late, if the duration of
each slice before it is uncertain by `slack`.
-/
structure OnCue (slack : K) (piece : K × Waveform K) (cue : Cue K) : Prop where
  segment : piece.2 = cue.segment
  early : cue.start - cue.before * slack - tolerance ≤ piece.1
  late : piece.1 ≤ cue.start + cue.before * slack

def lasting (subs : List (Slice K)) : K := (subs.map Slice.duration).sum

structure Inherits (slack : K) (ch : ChannelId) (subs : List (Slice K)) (w : Waveform K) : Prop where
  plays : ∃ pieces, List.Forall₂ (OnCue slack) pieces (cuesFrom ch 0 0 subs) ∧ w.Spread pieces
  short : lasting subs - subs.length * slack - tolerance ≤ w.width
  long : w.width ≤ lasting subs + subs.length * slack

structure Padded (content : Content K) (ch : ChannelId) (w padded : Waveform K) : Prop where
  none : (∀ duration, setDuration? content.kind = some duration → duration - w.width ≤ tolerance) → padded = w
  before : ∀ duration, setDuration? content.kind = some duration → tolerance < duration - w.width →
    (content.padding.get? ch).getD .before = .before → padded.width = duration
      ∧ ∀ t, padded.value t = if t < duration - w.width then .zero else w.value (t - (duration - w.width))
  behind : ∀ duration, setDuration? content.kind = some duration → tolerance < duration - w.width →
    (content.padding.get? ch).getD .before = .behind → padded.width = duration ∧ ∀ t, padded.value t = w.value t

/--
A slice that has a waveform for a channel if and only if it carries it, and that plays on it what it holds itself or the
segments of its sub slices, with silence added up to its duration.
-/
structure Arranged (slack : K) (ch : ChannelId) (s : Slice K) : Prop where
  carried : (s.flattened.get? ch).isSome ↔ ch ∈ s.channels
  plays : ∀ padded, s.flattened.get? ch = some padded → ∃ w, Padded s.content ch w padded
    ∧ (∀ own, s.direct? ch = some own → w = own) ∧ (s.direct? ch = .none → Inherits slack ch s.subs w)

variable [IsStrictOrderedRing K]

section Layout

variable {pointer start duration limit slack : K} {before : Nat} {ch : ChannelId} {pieces : List (K × Waveform K)}
  {track : Option (Waveform K)} {segment w : Waveform K} {subs : List (Slice K)}

def Trail (pieces : List (K × Waveform K)) (limit : K) : Option (Waveform K) → Prop
  | none => pieces = []
  | some track => track.Level ∧ track.Spread pieces ∧ track.width ≤ limit

def putOn (pointer : K) (segment : Waveform K) : Option (Waveform K) → Waveform K
  | none => if pointer ≤ tolerance then segment else (Waveform.blank pointer).concat segment
  | some track => (fillTo track pointer).concat segment

omit [IsStrictOrderedRing K] in
theorem layRow_some (row : List (Option (Waveform K) × K)) :
    layRow pointer track ((some segment, duration) :: row) = layRow (pointer + duration) (some (putOn pointer segment track)) row := by
  cases track with
  | none =>
    simp only [layRow, putOn]
    split <;> rfl
  | some track => rfl

omit [IsStrictOrderedRing K] in
theorem Trail.mono {limit' : K} (trail : Trail pieces limit track) (le : limit ≤ limit') : Trail pieces limit' track := by
  cases track with
  | none => exact trail
  | some track => exact ⟨trail.1, trail.2.1, trail.2.2.trans le⟩

theorem le_width_fillTo (track : Waveform K) (pointer : K) : track.width ≤ (fillTo track pointer).width := by
  rw [width_fillTo]
  split
  · have small : (0 : K) < tolerance := tolerance_pos
    linarith
  · exact le_refl _

theorem sub_le_width_fillTo (track : Waveform K) (pointer : K) : pointer - tolerance ≤ (fillTo track pointer).width := by
  have small : (0 : K) < tolerance := tolerance_pos
  rw [width_fillTo]
  split <;> linarith

omit [IsStrictOrderedRing K] in
theorem width_fillTo_le (short : w.width ≤ limit) : (fillTo w pointer).width ≤ max pointer limit := by
  rw [width_fillTo]
  split
  · exact le_max_left ..
  · exact short.trans (le_max_right ..)

theorem Trail.append (trail : Trail pieces limit track) (nonneg : 0 ≤ limit) (level : segment.Level) (pointer : K) :
    ∃ offset, pointer - tolerance ≤ offset ∧ offset ≤ max pointer limit
      ∧ Trail (pieces ++ [(offset, segment)]) (offset + segment.width) (some (putOn pointer segment track)) := by
  have small : (0 : K) < tolerance := tolerance_pos
  cases track with
  | none =>
    rw [(trail : pieces = [])]
    by_cases soon : pointer ≤ tolerance
    · rw [putOn, if_pos soon]
      refine ⟨0, by linarith, nonneg.trans (le_max_right ..), level, ?_, by rw [zero_add]⟩
      apply (Waveform.Spread.blank 0).snoc _ _ level.width_nonneg
      · intro t
        rw [sub_zero, Waveform.value_blank]
        split
        · rename_i early
          exact Waveform.value_of_outside (.inl early)
        · rfl
      · simp
      · simp
    · have silence := Waveform.level_blank (small.trans (not_le.mp soon)).le
      rw [putOn, if_neg soon]
      refine ⟨pointer, by linarith, le_max_left .., silence.concat level, ?_, ?_⟩
      · apply (Waveform.Spread.blank pointer).snoc _ _ level.width_nonneg
        · intro t
          rw [Waveform.value_concat silence level, Waveform.width_blank]
        · simp
        · rw [Waveform.width_concat, Waveform.width_blank]
      · rw [Waveform.width_concat, Waveform.width_blank]
  | some track =>
    obtain ⟨own, spread, short⟩ := trail
    have filled : (fillTo track pointer).Level := level_fillTo own
    refine ⟨(fillTo track pointer).width, sub_le_width_fillTo track pointer, width_fillTo_le short, filled.concat level,
      ?_, (Waveform.width_concat ..).le⟩
    apply spread.snoc (le_width_fillTo track pointer) (Waveform.width_concat ..) level.width_nonneg
    intro t
    rw [Waveform.value_concat filled level, value_fillTo own]

theorem Trail.layRow {durations : String → K} (loose : 0 ≤ slack)
    (near : ∀ t ∈ subs, |durations t.name - t.duration| ≤ slack) (nonneg : ∀ t ∈ subs, 0 ≤ t.duration)
    (fits : ∀ t ∈ subs, ∀ w, t.flattened.get? ch = some w → w.Level ∧ w.width ≤ t.duration)
    (trail : Trail pieces (start + before * slack) track) (begun : 0 ≤ start)
    (aligned : |pointer - start| ≤ before * slack) :
    ∃ more, List.Forall₂ (OnCue slack) more (cuesFrom ch before start subs)
      ∧ Trail (pieces ++ more) (start + lasting subs + (before + subs.length) * slack)
        (Slice.layRow pointer track (subs.map fun t => (t.flattened.get? ch, durations t.name)))
      ∧ ∀ w, Slice.layRow pointer track (subs.map fun t => (t.flattened.get? ch, durations t.name)) = some w →
        start + lasting subs - (before + subs.length) * slack - tolerance ≤ w.width := by
  induction subs generalizing pointer start before pieces track with
  | nil =>
    obtain ⟨early, late⟩ := abs_le.mp aligned
    have count : ((before : K) + ([] : List (Slice K)).length) * slack = before * slack := by simp
    have total : start + lasting ([] : List (Slice K)) = start := by simp [lasting]
    refine ⟨[], .nil, ?_⟩
    rw [List.append_nil, count, total]
    cases track with
    | none => exact ⟨trail, nofun⟩
    | some track =>
      obtain ⟨level, spread, short⟩ := trail
      refine ⟨⟨level_fillTo level, spread.congr (value_fillTo level pointer) (le_width_fillTo track pointer), ?_⟩, ?_⟩
      · exact (width_fillTo_le short).trans (max_le (by linarith) (le_refl _))
      · rintro w ⟨⟩
        have enough := sub_le_width_fillTo track pointer
        linarith
  | cons s rest ih =>
    rw [List.forall_mem_cons] at near nonneg fits
    obtain ⟨early, late⟩ := abs_le.mp aligned
    obtain ⟨shorter, longer⟩ := abs_le.mp near.1
    have room : (0 : K) ≤ before * slack := mul_nonneg (Nat.cast_nonneg before) loose
    have count : ((before : K) + (s :: rest).length) * slack = ((before + 1 : Nat) + (rest.length : K)) * slack := by
      push_cast [List.length_cons]
      ring
    have total : start + lasting (s :: rest) = start + s.duration + lasting rest := by
      simp [lasting, add_assoc]
    have next : |pointer + durations s.name - (start + s.duration)| ≤ (before + 1 : Nat) * slack := by
      rw [Nat.cast_add_one, abs_le]
      constructor <;> linarith
    have begun' : 0 ≤ start + s.duration := add_nonneg begun nonneg.1
    rw [count, total, List.map_cons, cuesFrom]
    cases segment : s.flattened.get? ch with
    | none =>
      have trail' : Trail pieces (start + s.duration + (before + 1 : Nat) * slack) track := by
        apply trail.mono
        rw [Nat.cast_add_one]
        linarith [nonneg.1]
      exact ih near.2 nonneg.2 fits.2 trail' begun' next
    | some w =>
      obtain ⟨level, short⟩ := fits.1 w segment
      obtain ⟨offset, soon, late, placed⟩ := trail.append (add_nonneg begun room) level pointer
      rw [max_eq_right (by linarith)] at late
      have trail' : Trail (pieces ++ [(offset, w)]) (start + s.duration + (before + 1 : Nat) * slack)
          (some (putOn pointer w track)) := by
        apply placed.mono
        rw [Nat.cast_add_one]
        linarith
      obtain ⟨more, cued, later⟩ := ih near.2 nonneg.2 fits.2 trail' begun' next
      rw [layRow_some]
      refine ⟨(offset, w) :: more, .cons ⟨rfl, by linarith, late⟩ cued, ?_⟩
      rw [List.append_cons]
      exact later

theorem inherits_of_layRow {durations : String → K} (loose : 0 ≤ slack)
    (near : ∀ t ∈ subs, |durations t.name - t.duration| ≤ slack) (nonneg : ∀ t ∈ subs, 0 ≤ t.duration)
    (fits : ∀ t ∈ subs, ∀ w, t.flattened.get? ch = some w → w.Level ∧ w.width ≤ t.duration)
    (laid : layRow 0.0 none (subs.map fun t => (t.flattened.get? ch, durations t.name)) = some w) :
    w.Level ∧ Inherits slack ch subs w := by
  have trail : Trail [] (0 + (0 : Nat) * slack) (none : Option (Waveform K)) := rfl
  have aligned : |(0 : K) - 0| ≤ (0 : Nat) * slack := by simp
  obtain ⟨pieces, cued, ending, enough⟩ := trail.layRow loose near nonneg fits (le_refl 0) aligned
  rw [zero_exact] at laid
  rw [laid] at ending enough
  obtain ⟨level, spread, short⟩ := ending
  have enough := enough w rfl
  rw [Nat.cast_zero, zero_add, zero_add] at short enough
  exact ⟨level, ⟨pieces, cued, spread⟩, enough, short⟩

theorem pad_of_wide (registry : Registry K) {content : Content K} (kind : setDuration? content.kind = some duration)
    (wide : tolerance < duration - w.width) :
    pad registry content ch w = .ok (match (content.padding.get? ch).getD .before with
      | .before => (Waveform.blank (duration - w.width)).concat w
      | .behind => w.concat (.blank (duration - w.width))) := by
  have small : (0 : K) < tolerance := tolerance_pos
  have fits : ¬ duration - w.width < -tolerance := by linarith
  unfold pad
  simp only [kind, if_neg fits, if_neg (not_le.mpr wide)]
  cases (content.padding.get? ch).getD .before <;> rfl

theorem padded_of_pad {registry : Registry K} {content : Content K} {padded : Waveform K} (level : w.Level)
    (h : pad registry content ch w = .ok padded) : Padded content ch w padded := by
  have small : (0 : K) < tolerance := tolerance_pos
  constructor
  case none =>
    intro narrow
    unfold pad at h
    split at h
    · exact (Except.ok.inj h).symm
    · rename_i duration kind
      dsimp only at h
      rw [if_pos (narrow duration kind)] at h
      split at h
      · cases h
      · exact (Except.ok.inj h).symm
  case before =>
    intro duration kind wide position
    have silence : (Waveform.blank (duration - w.width)).Level := Waveform.level_blank (small.trans wide).le
    rw [pad_of_wide registry kind wide, position] at h
    cases h
    constructor
    · rw [Waveform.width_concat, Waveform.width_blank, sub_add_cancel]
    · intro t
      rw [Waveform.value_concat silence level, Waveform.width_blank, Waveform.value_blank]
  case behind =>
    intro duration kind wide position
    rw [pad_of_wide registry kind wide, position] at h
    cases h
    constructor
    · rw [Waveform.width_concat, Waveform.width_blank, add_sub_cancel]
    · exact Waveform.value_concat_blank level (small.trans wide).le

end Layout

section Assembly

variable {s : Slice K} {ch : ChannelId} {slack : K}

theorem arranged_of_assemble {registry : Registry K} {durations : String → K}
    (carried : (s.flattened.get? ch).isSome ↔ ch ∈ s.channels)
    (assembled : assemble registry s.content ch (s.subs.map fun t => (t.flattened.get? ch, durations t.name))
      = .ok (s.flattened.get? ch))
    (loose : 0 ≤ slack) (near : ∀ t ∈ s.subs, |durations t.name - t.duration| ≤ slack)
    (nonneg : ∀ t ∈ s.subs, 0 ≤ t.duration) (level : s.Level)
    (fits : ∀ t ∈ s.subs, ∀ w, t.flattened.get? ch = some w → w.width ≤ t.duration) : Arranged slack ch s := by
  refine ⟨carried, fun padded here => ?_⟩
  rw [here] at assembled
  obtain ⟨w, done, origin⟩ := exists_of_assemble assembled
  rcases origin with direct | ⟨none, laid⟩
  · refine ⟨w, padded_of_pad (level.here.content ch w direct) done, ?_, ?_⟩
    · intro own same
      exact Option.some_inj.mp (direct.symm.trans same)
    · intro none
      cases direct.symm.trans none
  · have below : ∀ t ∈ s.subs, ∀ w, t.flattened.get? ch = some w → w.Level ∧ w.width ≤ t.duration :=
      fun t mem w here => ⟨(level.of_mem mem).here.flattened ch w here, fits t mem w here⟩
    obtain ⟨level, inherits⟩ := inherits_of_layRow loose near nonneg below laid
    refine ⟨w, padded_of_pad level done, ?_, fun _ => inherits⟩
    intro own same
    cases none.symm.trans same

end Assembly

end PulseSequencer.Slice
