import PulseSequencer.Proofs.Sequence.Coherence
import PulseSequencer.Proofs.Sequence.Names
import PulseSequencer.Proofs.Slice.Repetition

/-!
This module contains that a compilation right after another one finds nothing to do if that one has succeeded, and comes
to the same end if it has failed.
-/

namespace PulseSequencer.Sequence

variable {α : Type} [Scalar α]

open Scalar Slice Outcome

section Touched

variable [SelfNear α] {registry : Registry α} {durations : Table String α} {shifted : Bool} {slices slices' : List (Slice α)}

theorem touched_of_flatten (distinct : ∀ s ∈ slices, s.Distinct)
    (states : List.Forall₂ (fun s s' => s' = s ∨ s' = (s.flatten registry).state) slices slices') :
    touched durations shifted slices' = touched durations shifted slices := by
  induction states generalizing shifted with
  | nil => rfl
  | @cons s s' _ _ step _ ih =>
    rw [List.forall_mem_cons] at distinct
    rcases step with rfl | rfl
    · simp only [touched, ih distinct.2]
    · have changed := changed_flatten registry distinct.1
      have channels := channels_eq_of_renew_eq (renew_flatten registry s)
      simp only [touched, start?_flatten, duration_flatten, name_flatten, changed, channels, ih distinct.2]

omit [SelfNear α] in
theorem mem_touched_of_measured {ch : ChannelId} (measured : ∀ s ∈ slices, remeasured durations s = false) :
    ch ∈ touched durations false slices ↔ ∃ s ∈ slices, ch ∈ s.changed := by
  induction slices with
  | nil => exact iff_of_false (ChannelSet.not_mem_empty ch) (by simp)
  | cons s rest ih =>
    rw [List.forall_mem_cons] at measured
    rw [mem_touched_cons, measured.1, Bool.and_false, Bool.or_false, ih measured.2]
    simp

theorem not_remeasured_of_recorded {s : Slice α} (recorded : durations.get? s.name = some s.duration) :
    remeasured durations s = false := by
  unfold remeasured
  rw [recorded]
  exact SelfNear.apart_self s.duration

theorem touched_of_recorded (recorded : ∀ s ∈ slices, durations.get? s.name = some s.duration)
    (unchanged : ∀ s ∈ slices, ∀ ch, ch ∉ s.changed) : touched durations false slices = ∅ := by
  ext ch
  rw [mem_touched_of_measured fun s mem => not_remeasured_of_recorded (recorded s mem)]
  refine iff_of_false ?_ (ChannelSet.not_mem_empty ch)
  rintro ⟨s, mem, changed⟩
  exact unchanged s mem ch changed

end Touched

section Moved

variable [SelfNear α]

theorem moved_takeSnapshot (q : Sequence α) (spans : List (SliceSpan α)) (distinct : q.registry.channelNames.Nodup) :
    moved q.registry (q.takeSnapshot spans) = ∅ := by
  ext ch
  unfold moved takeSnapshot
  rw [ChannelSet.mem_ofList, iff_false_right (ChannelSet.not_mem_empty ch), List.mem_filterMap]
  rintro ⟨trace, mem, reported⟩
  obtain ⟨⟨c, index⟩, registered, traced⟩ := List.mem_filterMap.mp mem
  rw [List.mk_mem_zipIdx_iff_getElem?] at registered
  dsimp only at traced
  split at traced
  · rename_i w t _ trigger
    cases traced
    have name := Registry.findChannel?_of_getElem? distinct registered
    simp only [name, trigger, SelfNear.apart_self] at reported
    cases reported
  · cases traced

end Moved

section Failure

variable [SelfNear α] {registry : Registry α} {cycleEnd : α} {todo : ChannelSet} {slices : List (Slice α)}

theorem repeats_placeSlice {s : Slice α} (timeline : Timeline α) (distinct : s.Distinct) :
    Repeats (placeSlice registry cycleEnd todo timeline) s := by
  apply (repeats_flatten registry distinct).andThen
  intro _ t
  dsimp only
  cases advance cycleEnd timeline.cursor t with
  | error cause => rfl
  | ok place => rfl

omit [SelfNear α] in
theorem placeSlices_eq_onEach (registry : Registry α) (cycleEnd : α) (todo : ChannelSet) (timeline : Timeline α)
    (slices : List (Slice α)) :
    placeSlices registry cycleEnd todo timeline slices = onEach (placeSlice registry cycleEnd todo) timeline slices := by
  induction slices generalizing timeline with
  | nil => rfl
  | cons s rest ih =>
    simp only [placeSlices, onEach, ih]
    rcases placeSlice registry cycleEnd todo timeline s with ⟨cause | next, s', events⟩
    · rfl
    · rfl

theorem repeats_placeSlices (timeline : Timeline α) (distinct : ∀ s ∈ slices, s.Distinct) :
    Repeats (placeSlices registry cycleEnd todo timeline) slices := by
  rw [funext (placeSlices_eq_onEach registry cycleEnd todo timeline)]
  exact .onEach (fun s mem earlier => repeats_placeSlice earlier (distinct s mem)) timeline

end Failure

section Success

variable {registry : Registry α} {cycleEnd : α} {todo : ChannelSet} {slices : List (Slice α)}

theorem placeSegments_nothing (slice : String) (start : α) (tracks : Table ChannelId (Waveform α))
    (entries : List (ChannelId × Waveform α)) :
    placeSegments registry ∅ slice start tracks entries = .done () tracks := by
  induction entries with
  | nil => rfl
  | cons entry rest ih =>
    rw [placeSegments, if_neg (ChannelSet.not_mem_empty entry.1)]
    exact ih

theorem advance_acknowledge (cursor : α) (s : Slice α) :
    advance cycleEnd cursor s.acknowledge = advance cycleEnd cursor s := by
  unfold advance
  rw [duration_acknowledge]
  rfl

def settle (registry : Registry α) (s : Slice α) : Slice α :=
  (s.flatten registry).state.acknowledge

variable [SelfNear α]

theorem flatten_settle {s : Slice α} (distinct : s.Distinct) (ok : (s.flatten registry).result = .ok ()) :
    (settle registry s).flatten registry = .done () (settle registry s) :=
  flatten_of_not_stale (isStale_acknowledge_eq_false_iff.mpr (not_stale_of_flatten_ok distinct ok))

theorem not_mem_changed_settle {s : Slice α} (distinct : s.Distinct) (ok : (s.flatten registry).result = .ok ())
    (ch : ChannelId) : ch ∉ (settle registry s).changed := by
  rw [mem_changed, not_or]
  constructor
  · exact not_mem_updated_of_not_stale (isStale_acknowledge_eq_false_iff.mpr (not_stale_of_flatten_ok distinct ok))
  · exact ChannelSet.not_mem_empty ch

theorem placeSlices_settle {timeline timeline' : Timeline α} (tracks : Table ChannelId (Waveform α))
    (distinct : ∀ s ∈ slices, s.Distinct)
    (ok : (placeSlices registry cycleEnd todo timeline slices).result = .ok timeline') :
    (placeSlices registry cycleEnd ∅ ⟨timeline.cursor, tracks, timeline.spans⟩ (slices.map (settle registry))).result
        = .ok ⟨timeline'.cursor, tracks, timeline'.spans⟩
      ∧ (placeSlices registry cycleEnd ∅ ⟨timeline.cursor, tracks, timeline.spans⟩ (slices.map (settle registry))).state
        = slices.map (settle registry) := by
  induction slices generalizing timeline with
  | nil =>
    cases ok
    exact ⟨rfl, rfl⟩
  | cons s rest ih =>
    rw [List.forall_mem_cons] at distinct
    rcases h : placeSlice registry cycleEnd todo timeline s with ⟨_ | next, s', events⟩
    · simp [placeSlices, h] at ok
    · have placed : (placeSlice registry cycleEnd todo timeline s).result = .ok next := by rw [h]
      simp only [placeSlices, h] at ok
      obtain ⟨flat, start, cursor, advanced, _, rfl⟩ := placeSlice_eq_ok_iff.mp placed
      have still := flatten_settle distinct.1 flat
      have again : (placeSlice registry cycleEnd ∅ ⟨timeline.cursor, tracks, timeline.spans⟩ (settle registry s)).result
          = .ok ⟨cursor, tracks, ⟨s.name, start, s.duration⟩ :: timeline.spans⟩ := by
        rw [placeSlice_eq_ok_iff, still]
        refine ⟨rfl, start, cursor, ?_, ?_, ?_⟩
        · rw [settle, advance_acknowledge, advance_flatten]
          exact advanced
        · rw [placeSegments_nothing]
          rfl
        · rw [placeSegments_nothing, settle, duration_acknowledge, duration_flatten]
          have name : (s.flatten registry).state.acknowledge.name = s.name := name_flatten registry s
          rw [name]
          rfl
      have kept : (placeSlice registry cycleEnd ∅ ⟨timeline.cursor, tracks, timeline.spans⟩ (settle registry s)).state
          = settle registry s := by
        rw [state_placeSlice, still]
        rfl
      obtain ⟨result, state⟩ := ih distinct.2 ok
      rcases h' : placeSlice registry cycleEnd ∅ ⟨timeline.cursor, tracks, timeline.spans⟩ (settle registry s) with
        ⟨result', s'', events'⟩
      rw [h'] at again kept
      cases again
      cases kept
      rw [List.map_cons]
      simp only [placeSlices, h']
      exact ⟨result, congrArg _ state⟩

end Success

section Compile

variable {q : Sequence α}

def placement (q : Sequence α) : Outcome α (List (Slice α)) (Timeline α) :=
  placeSlices q.registry q.cycleLength q.recompilationSet ⟨0.0, ∅, []⟩ q.slices

theorem compile_of_placed {timeline : Timeline α} (ok : q.placement.result = .ok timeline) :
    q.compile.result = .ok q.recompilationSet
      ∧ q.compile.state = q.commit q.recompilationSet q.placement.state timeline := by
  unfold placement at ok ⊢
  rcases h : placeSlices q.registry q.cycleLength q.recompilationSet ⟨0.0, ∅, []⟩ q.slices with ⟨result, slices, events⟩
  rw [h] at ok
  cases ok
  simp only [compile, h, and_self]

theorem compile_of_not_placed {cause : Error α} (failed : q.placement.result = .error cause) :
    q.compile.result = .error cause
      ∧ q.compile.state = { q with slices := q.placement.state, pendingCompile := q.recompilationSet } := by
  unfold placement at failed ⊢
  rcases h : placeSlices q.registry q.cycleLength q.recompilationSet ⟨0.0, ∅, []⟩ q.slices with ⟨result, slices, events⟩
  rw [h] at failed
  cases failed
  simp only [compile, h, and_self]

theorem slices_of_success {timeline : Timeline α} (placed : q.placement.result = .ok timeline) :
    (∀ s ∈ q.slices, (s.flatten q.registry).result = .ok ())
      ∧ q.compile.state.durations = durationsOf q.slices
      ∧ q.compile.state.slices = q.slices.map (settle q.registry) := by
  obtain ⟨flat, _, state, _⟩ := placeSlices_of_ok placed
  refine ⟨flat, ?_, ?_⟩
  · rw [(compile_of_placed placed).2, placement, state]
    exact durationsOf_map_flatten q.registry q.slices
  · rw [(compile_of_placed placed).2, placement, state]
    simp only [commit, List.map_map]
    rfl

theorem durationsOf_of_success {timeline : Timeline α} (placed : q.placement.result = .ok timeline) :
    durationsOf q.compile.state.slices = q.compile.state.durations := by
  obtain ⟨_, durations, slices⟩ := slices_of_success placed
  calc durationsOf q.compile.state.slices
    _ = durationsOf ((q.slices.map fun s => (s.flatten q.registry).state).map acknowledge) := by
      rw [slices, List.map_map]
      rfl
    _ = durationsOf q.slices := by rw [durationsOf_map_acknowledge, durationsOf_map_flatten]
    _ = q.compile.state.durations := durations.symm

theorem pendingCompile_of_success {timeline : Timeline α} (placed : q.placement.result = .ok timeline) :
    q.compile.state.pendingCompile = ∅ := by
  rw [(compile_of_placed placed).2]
  rfl

theorem commit_nothing {r : Sequence α} {timeline : Timeline α} (slices : r.slices.map acknowledge = r.slices)
    (durations : durationsOf r.slices = r.durations) :
    r.commit ∅ r.slices timeline
      = { r with pendingCompile := ∅, snapshot := r.takeSnapshot timeline.spans.reverse } := by
  have program : r.pendingProgram ∪ ∅ = r.pendingProgram := by
    ext ch
    rw [ChannelSet.mem_union, or_iff_left (ChannelSet.not_mem_empty ch)]
  unfold commit
  rw [slices, durations, program]
  rfl

variable [SelfNear α]

theorem recompilationSet_of_failure (distinct : q.Distinct) {cause : Error α}
    (failed : q.compile.result = .error cause) : q.compile.state.recompilationSet = q.recompilationSet := by
  rcases compile_cases q with ⟨_, slices, _, state, states⟩ | ⟨_, ok, _⟩
  · have same : touched q.durations false slices = touched q.durations false q.slices :=
      touched_of_flatten distinct.slices states
    rw [state]
    ext ch
    unfold recompilationSet
    rw [same]
    simp only [ChannelSet.mem_union]
    grind
  · rw [ok] at failed
    cases failed

theorem compile_again_of_failure (distinct : q.Distinct) {cause : Error α} (failed : q.compile.result = .error cause) :
    q.compile.state.compile.result = .error cause ∧ q.compile.state.compile.state = q.compile.state := by
  have todo := recompilationSet_of_failure distinct failed
  cases placed : q.placement.result with
  | ok timeline =>
    rw [(compile_of_placed placed).1] at failed
    cases failed
  | error cause' =>
    obtain ⟨result, state⟩ := compile_of_not_placed placed
    obtain rfl : cause' = cause := Except.error.inj (result.symm.trans failed)
    have again : Repeats (placeSlices q.registry q.cycleLength q.recompilationSet ⟨0.0, ∅, []⟩) q.slices :=
      repeats_placeSlices ⟨0.0, ∅, []⟩ distinct.slices
    -- The second walk has the same channels to place, and starts from slices of which some are flat by now.
    have placement_eq : q.compile.state.placement
        = placeSlices q.registry q.cycleLength q.recompilationSet ⟨0.0, ∅, []⟩ q.placement.state := by
      rw [placement, todo, state]
      rfl
    have still : q.compile.state.placement.result = .error cause' := by
      rw [placement_eq, ← placed]
      exact again.result
    obtain ⟨result', state'⟩ := compile_of_not_placed still
    refine ⟨result', ?_⟩
    have slices : q.compile.state.placement.state = q.placement.state := by
      rw [placement_eq]
      exact again.state
    rw [state', todo, slices, state]

theorem unmoved_of_success (distinct : q.Distinct) {timeline : Timeline α} (placed : q.placement.result = .ok timeline) :
    moved q.compile.state.registry q.compile.state.snapshot = ∅ := by
  rw [(compile_of_placed placed).2]
  exact moved_takeSnapshot _ timeline.spans.reverse distinct.channelNames

theorem settled_of_success (distinct : q.Distinct) {timeline : Timeline α} (placed : q.placement.result = .ok timeline) :
    ∀ s ∈ q.compile.state.slices,
      q.compile.state.durations.get? s.name = some s.duration ∧ ∀ ch, ch ∉ s.changed := by
  obtain ⟨flat, durations, slices⟩ := slices_of_success placed
  rw [durations, slices]
  intro s' mem
  obtain ⟨s, found, rfl⟩ := List.mem_map.mp mem
  have name : (settle q.registry s).name = s.name := name_flatten q.registry s
  constructor
  · rw [name, settle, duration_acknowledge, duration_flatten]
    exact get?_durationsOf distinct.sliceNames found
  · exact not_mem_changed_settle (distinct.slices s found) (flat s found)

theorem recompilationSet_of_success (distinct : q.Distinct) {timeline : Timeline α}
    (placed : q.placement.result = .ok timeline) : q.compile.state.recompilationSet = ∅ := by
  have settled := settled_of_success distinct placed
  have untouched : touched q.compile.state.durations false q.compile.state.slices = ∅ :=
    touched_of_recorded (fun s mem => (settled s mem).1) (fun s mem => (settled s mem).2)
  unfold recompilationSet
  rw [pendingCompile_of_success placed, unmoved_of_success distinct placed, untouched]
  rfl

theorem compile_again_of_success (distinct : q.Distinct) {todo : ChannelSet} (ok : q.compile.result = .ok todo) :
    q.compile.state.compile.result = .ok ∅
      ∧ q.compile.state.compile.state = { q.compile.state with
        snapshot := { q.compile.state.snapshot with generation := q.compile.state.snapshot.generation + 1 } } := by
  cases placed : q.placement.result with
  | error cause =>
    rw [(compile_of_not_placed placed).1] at ok
    cases ok
  | ok timeline =>
    have nothing := recompilationSet_of_success distinct placed
    obtain ⟨_, _, slices⟩ := slices_of_success placed
    have placement_eq : q.compile.state.placement
        = placeSlices q.registry q.cycleLength ∅ ⟨0.0, ∅, []⟩ (q.slices.map (settle q.registry)) := by
      rw [placement, nothing, slices, (compile_of_placed placed).2]
      rfl
    obtain ⟨result, state⟩ := placeSlices_settle ∅ distinct.slices placed
    rw [← placement_eq] at result state
    obtain ⟨done, again⟩ := compile_of_placed result
    rw [nothing] at done again
    refine ⟨done, ?_⟩
    have acknowledged : q.compile.state.slices.map acknowledge = q.compile.state.slices := by
      rw [slices, List.map_map]
      rfl
    have snapshot : q.compile.state.takeSnapshot timeline.spans.reverse
        = { q.compile.state.snapshot with generation := q.compile.state.snapshot.generation + 1 } := by
      rw [(compile_of_placed placed).2]
      rfl
    rw [again, state, ← slices, commit_nothing acknowledged (durationsOf_of_success placed), snapshot,
      ← pendingCompile_of_success placed]

/--
A compilation right after one that has succeeded does nothing but count itself in the picture. Right after one that has
failed, it fails for the same reason and changes nothing at all.
-/
theorem compile_again (made : q.Made) :
    (∀ todo, q.compile.result = .ok todo →
        q.compile.state.compile.result = .ok ∅
          ∧ q.compile.state.compile.state = { q.compile.state with
            snapshot := { q.compile.state.snapshot with generation := q.compile.state.snapshot.generation + 1 } })
      ∧ ∀ cause, q.compile.result = .error cause →
        q.compile.state.compile.result = .error cause
          ∧ q.compile.state.compile.state = q.compile.state
          ∧ q.compile.state.recompilationSet = q.recompilationSet := by
  have distinct := distinct_of_made made
  constructor
  · intro todo ok
    exact compile_again_of_success distinct ok
  · intro cause failed
    obtain ⟨result, state⟩ := compile_again_of_failure distinct failed
    exact ⟨result, state, recompilationSet_of_failure distinct failed⟩

theorem compile_pulses_again :
    (onePulse.compile.state.compile.result = .ok ∅
        ∧ onePulse.compile.state.compile.state = { onePulse.compile.state with
          snapshot := { onePulse.compile.state.snapshot with
            generation := onePulse.compile.state.snapshot.generation + 1 } })
      ∧ ∃ cause, earlyPulse.compile.result = .error cause
        ∧ earlyPulse.compile.state.compile.result = .error cause
        ∧ earlyPulse.compile.state.compile.state = earlyPulse.compile.state
        ∧ earlyPulse.compile.state.recompilationSet = earlyPulse.recompilationSet := by
  obtain ⟨todo, ok⟩ := exists_ok_of_isOk (x := onePulse.compile.result) (by decide +kernel)
  obtain ⟨cause, failed⟩ := exists_error_of_not_isOk (x := earlyPulse.compile.result) (by decide +kernel)
  constructor
  · exact (compile_again made_onePulse).1 todo ok
  · exact ⟨cause, failed, (compile_again made_earlyPulse).2 cause failed⟩

end Compile

end PulseSequencer.Sequence
