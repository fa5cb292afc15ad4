import PulseSequencer.Proofs.Scalar.Laws
import PulseSequencer.Slice.Flatten

/-!
This module contains the layout of sub slices apart from the slices themselves: what a slice inherits on a channel is a
function of the segments that its sub slices play on it and of their durations, and what it plays is a function of
that and its own content.
-/

namespace PulseSequencer.Slice

variable {α : Type} [Scalar α]

open Scalar

def layRow (pointer : α) (track : Option (Waveform α)) : List (Option (Waveform α) × α) → Option (Waveform α)
  | [] => track.map (fillTo · pointer)
  | (segment, duration) :: rest =>
    let longer := match segment, track with
      | none, track => track
      | some segment, none =>
        if pointer ≤ tolerance then some segment else some ((Waveform.blank pointer).concat segment)
      | some segment, some track => some ((fillTo track pointer).concat segment)
    layRow (pointer + duration) longer rest

def rowOf (ch : ChannelId) (subs : List (Slice α)) : List (Option (Waveform α) × α) :=
  subs.map fun s => (s.memo.flattened.get? ch, s.duration)

def assemble (registry : Registry α) (content : Content α) (ch : ChannelId) (row : List (Option (Waveform α) × α)) :
    Except (Error α) (Option (Waveform α)) :=
  match content.waveforms.get? ch, layRow 0.0 none row with
  | some _, some _ => .error (.conflictingWaveform content.name (registry.channelName ch))
  | some w, none | none, some w => (pad registry content ch w).map some
  | none, none => .ok none

theorem layOut_eq_layRow (ch : ChannelId) (pointer : α) (track : Option (Waveform α)) (subs : List (Slice α)) :
    layOut ch pointer track subs = layRow pointer track (rowOf ch subs) := by
  induction subs generalizing pointer track with
  | nil => rfl
  | cons s rest ih =>
    simp only [layOut]
    rw [ih]
    rfl

theorem rebuild_eq_assemble (registry : Registry α) (content : Content α) (subs : List (Slice α)) (ch : ChannelId) :
    rebuild registry content subs ch = assemble registry content ch (rowOf ch subs) := by
  have same : inherited ch subs = layRow 0.0 none (rowOf ch subs) := layOut_eq_layRow ch 0.0 none subs
  unfold rebuild assemble
  generalize layRow 0.0 none (rowOf ch subs) = laid at same ⊢
  subst same
  rfl

theorem layRow_of_forall_none {row : List (Option (Waveform α) × α)} (h : ∀ entry ∈ row, entry.1 = none)
    (pointer : α) : layRow pointer none row = none := by
  induction row generalizing pointer with
  | nil => rfl
  | cons entry rest ih =>
    have first : entry.1 = none := h entry (by simp)
    have others : ∀ entry ∈ rest, entry.1 = none := fun entry mem => h entry (by simp [mem])
    obtain ⟨segment, duration⟩ := entry
    cases first
    simp only [layRow]
    exact ih others (pointer + duration)

theorem assemble_of_forall_none {content : Content α} {ch : ChannelId} {row : List (Option (Waveform α) × α)}
    (direct : content.waveforms.get? ch = none) (h : ∀ entry ∈ row, entry.1 = none) (registry : Registry α) :
    assemble registry content ch row = .ok none := by
  unfold assemble
  rw [direct, layRow_of_forall_none h]

theorem fillTo_add_zero [NeutralZero α] (track : Waveform α) (pointer : α) :
    fillTo track (pointer + 0.0) = fillTo track pointer := by
  unfold fillTo
  by_cases h : tolerance < pointer + 0.0 - track.width ∨ tolerance < pointer - track.width
  · simp only [NeutralZero.gap_add_zero _ _ h]
  · rw [not_or] at h
    simp only [h.1, h.2, if_false]

theorem layRow_append_silent [NeutralZero α] (row : List (Option (Waveform α) × α)) (pointer : α)
    (track : Option (Waveform α)) : layRow pointer track (row ++ [(none, 0.0)]) = layRow pointer track row := by
  induction row generalizing pointer track with
  | nil =>
    cases track with
    | none => rfl
    | some track => simp [layRow, fillTo_add_zero]
  | cons entry rest ih =>
    simp only [List.cons_append, layRow]
    rw [ih]

theorem assemble_append_silent [NeutralZero α] (registry : Registry α) (content : Content α) (ch : ChannelId)
    (row : List (Option (Waveform α) × α)) :
    assemble registry content ch (row ++ [(none, 0.0)]) = assemble registry content ch row := by
  unfold assemble
  rw [layRow_append_silent]

theorem pad_ok_of_ok {registry : Registry α} {content : Content α} {ch : ChannelId} {w padded : Waveform α}
    (h : pad registry content ch w = .ok padded) (other : Registry α) : pad other content ch w = .ok padded := by
  unfold pad at h ⊢
  split at h
  · exact h
  · dsimp only at h ⊢
    split at h
    · cases h
    · rename_i short
      rw [if_neg short]
      exact h

theorem assemble_ok_of_ok {registry : Registry α} {content : Content α} {ch : ChannelId}
    {row : List (Option (Waveform α) × α)} {played : Option (Waveform α)}
    (h : assemble registry content ch row = .ok played) (other : Registry α) :
    assemble other content ch row = .ok played := by
  have padded {w : Waveform α} (h : (pad registry content ch w).map some = .ok played) :
      (pad other content ch w).map some = .ok played := by
    cases hw : pad registry content ch w with
    | error cause => simp [hw, Except.map] at h
    | ok w' => rw [pad_ok_of_ok hw other]; rwa [hw] at h
  unfold assemble at h ⊢
  split at h
  · cases h
  · exact padded h
  · exact padded h
  · exact h

theorem exists_of_assemble {registry : Registry α} {content : Content α} {ch : ChannelId}
    {row : List (Option (Waveform α) × α)} {padded : Waveform α}
    (h : assemble registry content ch row = .ok (some padded)) :
    ∃ w, pad registry content ch w = .ok padded
      ∧ (content.waveforms.get? ch = some w ∨ content.waveforms.get? ch = none ∧ layRow 0.0 none row = some w) := by
  have made {w : Waveform α} (h : (pad registry content ch w).map some = .ok (some padded)) :
      pad registry content ch w = .ok padded := by
    cases done : pad registry content ch w with
    | error cause => simp [done, Except.map] at h
    | ok w' =>
      rw [done] at h
      cases h
      rfl
  unfold assemble at h
  split at h
  · cases h
  · rename_i direct _
    exact ⟨_, made h, .inl direct⟩
  · rename_i direct laid
    exact ⟨_, made h, .inr ⟨direct, laid⟩⟩
  · cases h

theorem assemble_congr {content content' : Content α} {ch : ChannelId} (name : content'.name = content.name)
    (kind : content'.kind = content.kind) (waveform : content'.waveforms.get? ch = content.waveforms.get? ch)
    (padding : content'.padding.get? ch = content.padding.get? ch) (registry : Registry α)
    (row : List (Option (Waveform α) × α)) : assemble registry content' ch row = assemble registry content ch row := by
  have same (w : Waveform α) : pad registry content' ch w = pad registry content ch w := by
    unfold pad
    rw [name, kind, padding]
  unfold assemble
  simp only [waveform, same, name]

end PulseSequencer.Slice
