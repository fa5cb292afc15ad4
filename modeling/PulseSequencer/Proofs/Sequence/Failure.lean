import PulseSequencer.Proofs.Sequence.Repetition

/-!
This module contains why a compilation fails: everything before some slice is placed, and that slice cannot be flattened,
does not fit into the cycle, or has a segment that cannot be placed on the track of its channel.
-/

namespace PulseSequencer

variable {α : Type} [Scalar α]

namespace Slice

variable {registry : Registry α} {content : Content α} {cause : Error α}

def IsFlattening : Error α → Prop
  | .conflictingWaveform .. | .sliceOverflow .. => True
  | _ => False

theorem isFlattening_of_pad {ch : ChannelId} {w : Waveform α} (failed : pad registry content ch w = .error cause) :
    IsFlattening cause := by
  unfold pad at failed
  cases kind : setDuration? content.kind with
  | none =>
    rw [kind] at failed
    cases failed
  | some duration =>
    rw [kind] at failed
    dsimp only at failed
    split at failed
    · cases failed
      trivial
    · split at failed
      · cases failed
      · split at failed
        · cases failed
        · cases failed

theorem isFlattening_of_rebuild {subs : List (Slice α)} {ch : ChannelId}
    (failed : rebuild registry content subs ch = .error cause) : IsFlattening cause := by
  unfold rebuild at failed
  split at failed
  · cases failed
    trivial
  · exact isFlattening_of_pad (map_eq_error_iff.mp failed)
  · exact isFlattening_of_pad (map_eq_error_iff.mp failed)
  · cases failed

theorem isFlattening_of_rebuildAll {subs : List (Slice α)} {ids : List ChannelId}
    (failed : rebuildAll registry content subs ids = .error cause) : IsFlattening cause := by
  induction ids with
  | nil => cases failed
  | cons ch rest ih =>
    unfold rebuildAll at failed
    split at failed
    · rename_i result
      cases failed
      exact isFlattening_of_rebuild result
    · exact ih (map_eq_error_iff.mp failed)

theorem isFlattening_of_flattenAll {subs : List (Slice α)}
    (below : ∀ s ∈ subs, ∀ cause, (flatten registry s).result = .error cause → IsFlattening cause)
    (failed : (flattenAll registry subs).result = .error cause) : IsFlattening cause := by
  induction subs with
  | nil => cases failed
  | cons s rest ih =>
    rw [List.forall_mem_cons] at below
    unfold flattenAll at failed
    rcases first : flatten registry s with ⟨cause' | _, s', events⟩
    · rw [first] at failed
      cases failed
      exact below.1 cause (by rw [first])
    · rw [first] at failed
      exact ih below.2 failed

theorem isFlattening_of_flatten {s : Slice α} (failed : (flatten registry s).result = .error cause) :
    IsFlattening cause := by
  induction s using induct generalizing cause with
  | node content memo subs ih =>
    cases stale : isStale ⟨content, memo, subs⟩ with
    | false =>
      rw [flatten_of_not_stale stale] at failed
      cases failed
    | true =>
      rw [result_flatten_of_stale registry stale] at failed
      rcases bind_eq_error_iff.mp failed with below | ⟨_, _, failed⟩
      · exact isFlattening_of_flattenAll (fun s mem cause => ih s mem) below
      · exact isFlattening_of_rebuildAll (map_eq_error_iff.mp failed)

end Slice

namespace Registry

omit [Scalar α] in
theorem triggerOf_ne_overlap (registry : Registry α) (ch : ChannelId) {slice channel : String} {width available : α} :
    registry.triggerOf ch ≠ .error (.overlap slice channel width available) := by
  intro failed
  rcases bind_eq_error_iff.mp failed with missing | ⟨c, _, failed⟩
  · unfold Registry.channel at missing
    split at missing
    · cases missing
    · cases missing
  · split at failed
    · unfold Registry.trigger at failed
      split at failed
      · cases failed
      · cases failed
    · cases failed

end Registry

namespace Sequence

open Registry

variable {registry : Registry α} {cycleEnd : α} {todo : ChannelSet} {timeline : Timeline α} {s : Slice α}
  {slices : List (Slice α)} {cause : Error α}

theorem advance_of_error {cursor : α} (failed : advance cycleEnd cursor s = .error cause) :
    s.start? = none ∧ cause = .cycleOverflow s.name (cursor + s.duration) cycleEnd := by
  unfold advance at failed
  cases start : s.start? with
  | some own =>
    rw [start] at failed
    cases failed
  | none =>
    rw [start] at failed
    dsimp only at failed
    split at failed
    · cases failed
      exact ⟨rfl, rfl⟩
    · cases failed

theorem placeSegments_of_error {slice : String} {start : α} {tracks : Table ChannelId (Waveform α)}
    {entries : List (ChannelId × Waveform α)} (distinct : (entries.map (·.1)).Nodup)
    (failed : (placeSegments registry todo slice start tracks entries).result = .error cause) :
    ∃ ch ∈ todo, ∃ segment, Table.find? ch entries = some segment
      ∧ ∃ tracks' : Table ChannelId (Waveform α), tracks'.get? ch = tracks.get? ch
        ∧ placeSegment registry slice start tracks' ch segment = .error cause := by
  induction entries generalizing tracks with
  | nil => cases failed
  | cons entry rest ih =>
    obtain ⟨c, w⟩ := entry
    rw [List.map_cons, List.nodup_cons] at distinct
    -- A failure behind the first entry is at another channel.
    have later {tracks' : Table ChannelId (Waveform α)} (others : ∀ ch, ch ≠ c → tracks'.get? ch = tracks.get? ch)
        (failed : (placeSegments registry todo slice start tracks' rest).result = .error cause) :
        ∃ ch ∈ todo, ∃ segment, Table.find? ch ((c, w) :: rest) = some segment
          ∧ ∃ tracks' : Table ChannelId (Waveform α), tracks'.get? ch = tracks.get? ch
            ∧ placeSegment registry slice start tracks' ch segment = .error cause := by
      obtain ⟨ch, mem, segment, found, tracks'', same, failed⟩ := ih distinct.2 failed
      have apart : ch ≠ c := by
        rintro rfl
        rw [find?_eq_none_of_not_mem distinct.1] at found
        cases found
      exact ⟨ch, mem, segment, (find?_cons_of_ne apart).trans found, tracks'', same.trans (others ch apart), failed⟩
    by_cases mem : c ∈ todo
    · cases placed : placeSegment registry slice start tracks c w with
      | error cause' =>
        simp only [placeSegments, mem, if_true, placed, Outcome.failed] at failed
        cases failed
        exact ⟨c, mem, w, if_pos rfl, tracks, rfl, placed⟩
      | ok tracks' =>
        rw [(placeSegments_of_mem rest mem placed).1] at failed
        obtain ⟨w', _, rfl⟩ := placeSegment_eq_ok_iff.mp placed
        refine later ?_ failed
        intro ch apart
        rw [Table.get?_insertLast, if_neg (Ne.symm apart)]
    · simp only [placeSegments, mem, if_false] at failed
      exact later (fun _ _ => rfl) failed

inductive Unplaced (registry : Registry α) (cycleEnd : α) (todo : ChannelSet) (timeline : Timeline α) (s : Slice α)
    (cause : Error α) : Prop
  | flatten (failed : (s.flatten registry).result = .error cause)
  | advance (flat : (s.flatten registry).result = .ok ())
    (failed : advance cycleEnd timeline.cursor s = .error cause)
  | segment (flat : (s.flatten registry).result = .ok ()) {start next : α}
    (advanced : Sequence.advance cycleEnd timeline.cursor s = .ok (start, next)) {ch : ChannelId} (mem : ch ∈ todo)
    {segment : Waveform α} (found : (s.flatten registry).state.flattened.get? ch = some segment)
    {tracks : Table ChannelId (Waveform α)} (track : tracks.get? ch = timeline.tracks.get? ch)
    (failed : placeSegment registry s.name start tracks ch segment = .error cause)

theorem unplaced_of_error (failed : (placeSlice registry cycleEnd todo timeline s).result = .error cause) :
    Unplaced registry cycleEnd todo timeline s cause := by
  unfold placeSlice at failed
  rw [Outcome.result_andThen] at failed
  rcases bind_eq_error_iff.mp failed with flat | ⟨_, flat, failed⟩
  · exact .flatten flat
  · rw [advance_flatten, Slice.name_flatten] at failed
    cases advanced : advance cycleEnd timeline.cursor s with
    | error cause' =>
      rw [advanced] at failed
      cases failed
      exact .advance flat advanced
    | ok place =>
      obtain ⟨start, next⟩ := place
      rw [advanced] at failed
      have placed := map_eq_error_iff.mp failed
      obtain ⟨ch, mem, segment, found, tracks, track, failed⟩ := placeSegments_of_error (Table.nodup_keys _) placed
      exact .segment flat advanced mem found track failed

theorem placeSlices_of_error (failed : (placeSlices registry cycleEnd todo timeline slices).result = .error cause) :
    ∃ before s after timeline', slices = before ++ s :: after
      ∧ (placeSlices registry cycleEnd todo timeline before).result = .ok timeline'
      ∧ Unplaced registry cycleEnd todo timeline' s cause := by
  induction slices generalizing timeline with
  | nil => cases failed
  | cons s rest ih =>
    rcases h : placeSlice registry cycleEnd todo timeline s with ⟨cause' | next, s', events⟩
    · simp only [placeSlices, h] at failed
      cases failed
      exact ⟨[], s, rest, timeline, rfl, rfl, unplaced_of_error (by rw [h])⟩
    · simp only [placeSlices, h] at failed
      obtain ⟨before, u, after, timeline', rfl, ok, unplaced⟩ := ih failed
      refine ⟨s :: before, u, after, timeline', rfl, ?_, unplaced⟩
      simp only [placeSlices, h]
      exact ok

theorem compile_of_error {q : Sequence α} (failed : q.compile.result = .error cause) :
    ∃ before s after timeline, q.slices = before ++ s :: after
      ∧ (placeSlices q.registry q.cycleLength q.recompilationSet ⟨0.0, ∅, []⟩ before).result = .ok timeline
      ∧ Unplaced q.registry q.cycleLength q.recompilationSet timeline s cause := by
  cases placed : q.placement.result with
  | ok timeline =>
    rw [(compile_of_placed placed).1] at failed
    cases failed
  | error cause' =>
    rw [(compile_of_not_placed placed).1] at failed
    cases failed
    exact placeSlices_of_error placed

theorem extend_of_error {name : String} {ch : ChannelId} {available : α} {segment : Waveform α}
    {track : Option (Waveform α)} (failed : extend registry name ch available segment track = .error cause) :
    ∃ w, track = some w ∧ cause = .overlap name (registry.channelName ch) w.width available
      ∧ available - w.width < -Scalar.tolerance := by
  unfold extend at failed
  cases track with
  | none =>
    dsimp only at failed
    split at failed
    · cases failed
    · cases failed
  | some w =>
    dsimp only at failed
    split at failed
    · rename_i short
      cases failed
      exact ⟨w, rfl, rfl, short⟩
    · cases failed

theorem exists_trigger_of_overlap {start width available : α} {tracks : Table ChannelId (Waveform α)} {ch : ChannelId}
    {segment : Waveform α} {name slice channel : String}
    (failed : placeSegment registry name start tracks ch segment = .error (.overlap slice channel width available)) :
    ∃ t track, registry.triggerOf ch = .ok t ∧ tracks.get? ch = some track ∧ slice = name
      ∧ channel = registry.channelName ch ∧ width = track.width ∧ available = start - t.raiseAt
      ∧ available - width < -Scalar.tolerance := by
  unfold placeSegment at failed
  rcases bind_eq_error_iff.mp failed with failed | ⟨t, trigger, failed⟩
  · exact absurd failed (triggerOf_ne_overlap registry ch)
  · split at failed
    · cases failed
    · rcases bind_eq_error_iff.mp failed with extended | ⟨w, _, failed⟩
      · obtain ⟨track, here, named, short⟩ := extend_of_error extended
        cases named
        exact ⟨t, track, trigger, here, rfl, rfl, rfl, rfl, short⟩
      · cases failed

def overlaps {β : Type} : Except (Error α) β → Bool
  | .error (.overlap ..) => true
  | _ => false

omit [Scalar α] in
theorem exists_of_overlaps {β : Type} {x : Except (Error α) β} (h : overlaps x = true) :
    ∃ slice channel width available, x = .error (.overlap slice channel width available) := by
  unfold overlaps at h
  split at h
  · exact ⟨_, _, _, _, rfl⟩
  · cases h

end Sequence

end PulseSequencer
