import PulseSequencer.Proofs.Waveform.Concat
import PulseSequencer.Proofs.Slice.Run

/-!
This module contains slices none of whose waveforms ends before it starts. What is added to them is silence, and only
where there is a gap, so flattening them makes no other waveforms.
-/

namespace PulseSequencer.Slice

variable {K : Type} [Field K] [LinearOrder K] [FloorRing K] [Elementary K]

open Scalar

def LevelTable (t : Table ChannelId (Waveform K)) : Prop := ∀ ch w, t.get? ch = some w → w.Level

/--
None of the waveforms that a slice plays, directly or as it was flattened, ends before it starts.
-/
structure LevelHere (s : Slice K) : Prop where
  content : LevelTable s.content.waveforms
  flattened : LevelTable s.memo.flattened

def Level : Slice K → Prop := Everywhere LevelHere

theorem width_fillTo (track : Waveform K) (width : K) :
    (fillTo track width).width = if tolerance < width - track.width then width else track.width := by
  unfold fillTo
  dsimp only
  split
  · rw [Waveform.width_concat, Waveform.width_blank]
    ring
  · rfl

section Below

variable {s : Slice K}

theorem Level.acknowledge (level : s.Level) : s.acknowledge.Level :=
  .node ⟨level.here.content, level.here.flattened⟩ fun _ mem => level.of_mem mem

theorem level_flattenAll {registry : Registry K} {subs : List (Slice K)}
    (below : ∀ t ∈ subs, t.Level ∧ (flatten registry t).state.Level) :
    ∀ t ∈ (flattenAll registry subs).state, t.Level := by
  intro t' mem
  obtain ⟨t, found, rfl | rfl⟩ := exists_of_mem_right flattenAll_state mem
  · exact (below t' found).1
  · exact (below t found).2

theorem LevelTable.insertLast {t : Table ChannelId (Waveform K)} {w : Waveform K} (level : LevelTable t)
    (ch : ChannelId) (own : w.Level) : LevelTable (t.insertLast ch w) := by
  intro c w' h
  rw [Table.get?_insertLast] at h
  split at h
  · cases h
    exact own
  · exact level c w' h

theorem LevelTable.erase {t : Table ChannelId (Waveform K)} (level : LevelTable t) (ch : ChannelId) :
    LevelTable (t.erase ch) := by
  intro c w h
  rw [Table.get?_erase] at h
  split at h
  · cases h
  · exact level c w h

theorem Level.addWaveform (level : s.Level) (ch : ChannelId) {w : Waveform K} (own : w.Level) :
    (s.addWaveform ch w).Level := by
  refine .node ⟨?_, level.here.flattened⟩ fun _ mem => level.of_mem mem
  apply level.here.content.insertLast ch
  cases existing : s.content.waveforms.get? ch with
  | none => exact own
  | some before => exact (level.here.content ch before existing).concat own

theorem Level.clearWaveform (level : s.Level) (ch : ChannelId) : (s.clearWaveform ch).Level :=
  .node ⟨level.here.content.erase ch, level.here.flattened⟩ fun _ mem => level.of_mem mem

theorem Level.setPadding (level : s.Level) (ch : ChannelId) (position : Padding) : (s.setPadding ch position).Level :=
  .node ⟨level.here.content, level.here.flattened⟩ fun _ mem => level.of_mem mem

theorem Level.nest {child whole : Slice K} (level : s.Level) (below : child.Level) (h : s.addSub child = .ok whole) :
    whole.Level := by
  apply Everywhere.nest level below h
  obtain ⟨_, rfl⟩ := addSub_eq_ok_iff.mp h
  exact ⟨level.here.content, level.here.flattened⟩

theorem level_ofKind (name : String) (kind : SliceKind K) : (ofKind name kind).Level :=
  .node ⟨nofun, nofun⟩ nofun

theorem Level.workAt {ρ : Type} {work : Slice K → Outcome K (Slice K) ρ} {path : List String} (level : s.Level)
    (target : ∀ t, t.Level → (work t).state.Level) : (workAt work path s).state.Level := by
  refine Everywhere.workAt level ?_ target
  intro t sub here
  exact ⟨here.content, here.flattened⟩

end Below

variable [IsStrictOrderedRing K]

section Layout

variable {track w : Waveform K} {width : K}

theorem level_fillTo (level : track.Level) : (fillTo track width).Level := by
  unfold fillTo
  dsimp only
  split
  · rename_i wide
    exact level.concat (Waveform.level_blank (tolerance_pos.trans wide).le)
  · exact level

theorem value_fillTo (level : track.Level) (width t : K) : (fillTo track width).value t = track.value t := by
  unfold fillTo
  dsimp only
  split
  · rename_i wide
    exact Waveform.value_concat_blank level (tolerance_pos.trans wide).le t
  · rfl

theorem level_layRow {row : List (Option (Waveform K) × K)} {pointer : K} {track : Option (Waveform K)}
    (level : ∀ w, track = some w → w.Level) (segments : ∀ entry ∈ row, ∀ w, entry.1 = some w → w.Level) :
    ∀ w, layRow pointer track row = some w → w.Level := by
  induction row generalizing pointer track with
  | nil =>
    intro w h
    obtain ⟨w', here, rfl⟩ := Option.map_eq_some_iff.mp h
    exact level_fillTo (level w' here)
  | cons entry rest ih =>
    obtain ⟨segment, duration⟩ := entry
    rw [List.forall_mem_cons] at segments
    simp only [layRow]
    apply ih _ segments.2
    intro w h
    cases segment with
    | none => exact level w h
    | some segment =>
      have own : segment.Level := segments.1 segment rfl
      cases track with
      | none =>
        simp only at h
        split at h
        · cases h
          exact own
        · rename_i late
          cases h
          exact (Waveform.level_blank (tolerance_pos.trans (not_le.mp late)).le).concat own
      | some track =>
        cases h
        exact (level_fillTo (level track rfl)).concat own

theorem level_pad {registry : Registry K} {content : Content K} {ch : ChannelId} {padded : Waveform K}
    (level : w.Level) (h : pad registry content ch w = .ok padded) : padded.Level := by
  unfold pad at h
  split at h
  · cases h
    exact level
  · dsimp only at h
    split at h
    · cases h
    · split at h
      · cases h
        exact level
      · rename_i wide
        have silence : (Waveform.blank _).Level := Waveform.level_blank (tolerance_pos.trans (not_le.mp wide)).le
        split at h
        · cases h
          exact silence.concat level
        · cases h
          exact level.concat silence

theorem level_rebuild {registry : Registry K} {content : Content K} {subs : List (Slice K)} {ch : ChannelId}
    (direct : LevelTable content.waveforms) (below : ∀ t ∈ subs, LevelTable t.memo.flattened)
    (h : rebuild registry content subs ch = .ok (some w)) : w.Level := by
  have inherited : ∀ w, layRow 0.0 none (rowOf ch subs) = some w → w.Level := by
    apply level_layRow
    · intro w h
      cases h
    · intro entry mem w segment
      obtain ⟨t, found, rfl⟩ := List.mem_map.mp mem
      exact below t found ch w segment
  rw [rebuild_eq_assemble] at h
  obtain ⟨own, done, direct' | ⟨_, laid⟩⟩ := exists_of_assemble h
  · exact level_pad (direct ch own direct') done
  · exact level_pad (inherited own laid) done

end Layout

section Steps

variable {s : Slice K}

theorem Level.flatten (level : s.Level) (registry : Registry K) : (s.flatten registry).state.Level := by
  induction s using induct with
  | node content memo subs ih =>
    have below := level_flattenAll fun t mem => ⟨level.of_mem mem, ih t mem (level.of_mem mem)⟩
    cases stale : isStale ⟨content, memo, subs⟩ with
    | false =>
      rw [flatten_of_not_stale stale]
      exact level
    | true =>
      rcases flatten_of_stale registry stale with ⟨_, _, state, _⟩ | ⟨fresh, _, _, rebuilt, state⟩
      · rw [state]
        exact .node ⟨level.here.content, level.here.flattened⟩ below
      · rw [state]
        refine .node ⟨level.here.content, fun ch w h => ?_⟩ fun t mem => ?_
        · by_cases mem : ch ∈ updated ⟨content, memo, subs⟩
          · have made := get?_store_rebuilt memo.flattened rebuilt mem
            rw [show (store memo.flattened fresh).get? ch = some w from h] at made
            exact level_rebuild level.here.content (fun t found => (below t found).here.flattened) made
          · have kept := get?_store_kept memo.flattened rebuilt mem
            exact level.here.flattened ch w (kept.symm.trans h)
        · obtain ⟨t', found, rfl⟩ := List.mem_map.mp mem
          exact (below t' found).acknowledge

def Command.Level : Command K → Prop
  | .edit _ (.addWaveform w) => w.Level
  | .nest child => child.Level
  | _ => True

theorem Level.perform (level : s.Level) {command : Command K} (own : command.Level) :
    (command.perform s).state.Level := by
  cases command with
  | edit ch change =>
    cases change with
    | addWaveform w => exact level.addWaveform ch own
    | clearWaveform => exact level.clearWaveform ch
    | setPadding position => exact level.setPadding ch position
  | nest child =>
    simp only [Command.perform]
    cases h : s.addSub child with
    | error cause => exact level
    | ok whole => exact level.nest own h
  | flatten registry => exact level.flatten registry
  | getWaveform registry ch =>
    rw [state_perform_getWaveform]
    exact level.flatten registry

end Steps

end PulseSequencer.Slice
