import PulseSequencer.Proofs.Sequence.Placement

/-!
This module contains what a compilation does to a sequence, said once for each of its outcomes, and when it succeeds.
-/

namespace PulseSequencer.Sequence

variable {α : Type} [Scalar α]

def played (q : Sequence α) (ch : ChannelId) : Option (Option (Waveform α)) :=
  placeTrack (rise? q.registry ch) 0.0 none (q.slices.map fun s => slotOf ch (s.flatten q.registry).state)

theorem state_placeSlices (registry : Registry α) (cycleEnd : α) (todo : ChannelSet) (timeline : Timeline α)
    (slices : List (Slice α)) :
    List.Forall₂ (fun s s' => s' = s ∨ s' = (s.flatten registry).state) slices
      (placeSlices registry cycleEnd todo timeline slices).state := by
  induction slices generalizing timeline with
  | nil => exact .nil
  | cons s rest ih =>
    have state : (placeSlice registry cycleEnd todo timeline s).state = (s.flatten registry).state := state_placeSlice
    rcases h : placeSlice registry cycleEnd todo timeline s with ⟨_ | next, s', events⟩
    · rw [h] at state
      simp only [placeSlices, h]
      exact .cons (.inr state) (List.forall₂_same.mpr fun _ _ => .inl rfl)
    · rw [h] at state
      simp only [placeSlices, h]
      exact .cons (.inr state) (ih next)

variable {q : Sequence α}

theorem compile_cases (q : Sequence α) :
    (∃ cause slices, q.compile.result = .error cause
      ∧ q.compile.state = { q with slices := slices, pendingCompile := q.recompilationSet }
      ∧ List.Forall₂ (fun s s' => s' = s ∨ s' = (s.flatten q.registry).state) q.slices slices)
    ∨ (∃ timeline, q.compile.result = .ok q.recompilationSet
      ∧ q.compile.state
        = q.commit q.recompilationSet (q.slices.map fun s => (s.flatten q.registry).state) timeline
      ∧ (∀ s ∈ q.slices, (s.flatten q.registry).result = .ok ())
      ∧ Fits q.cycleLength 0.0 q.slices
      ∧ ∀ ch ∈ q.recompilationSet, q.played ch = some (timeline.tracks.get? ch)) := by
  have states := state_placeSlices q.registry q.cycleLength q.recompilationSet ⟨0.0, ∅, []⟩ q.slices
  rcases h : placeSlices q.registry q.cycleLength q.recompilationSet ⟨0.0, ∅, []⟩ q.slices with
    ⟨cause | timeline, slices, events⟩
  · rw [h] at states
    simp only [compile, h]
    exact .inl ⟨cause, slices, rfl, rfl, states⟩
  · have ok : (placeSlices q.registry q.cycleLength q.recompilationSet ⟨0.0, ∅, []⟩ q.slices).result = .ok timeline := by
      rw [h]
    obtain ⟨flat, fits, state, tracks⟩ := placeSlices_of_ok ok
    rw [h] at state
    simp only [compile, h]
    refine .inr ⟨timeline, trivial, ?_, flat, fits, tracks⟩
    rw [← state]

theorem compile_of_ok {todo : ChannelSet} (ok : q.compile.result = .ok todo) :
    todo = q.recompilationSet ∧ ∃ timeline,
      q.compile.state = q.commit q.recompilationSet (q.slices.map fun s => (s.flatten q.registry).state) timeline
        ∧ (∀ s ∈ q.slices, (s.flatten q.registry).result = .ok ())
        ∧ Fits q.cycleLength 0.0 q.slices
        ∧ ∀ ch ∈ q.recompilationSet, q.played ch = some (timeline.tracks.get? ch) := by
  rcases compile_cases q with ⟨_, _, failed, _⟩ | ⟨timeline, done, stored⟩
  · rw [failed] at ok
    cases ok
  · rw [done] at ok
    exact ⟨(Except.ok.inj ok).symm, timeline, stored⟩

theorem registry_compile (q : Sequence α) : q.compile.state.registry = q.registry := by
  rcases compile_cases q with ⟨_, _, _, state, _⟩ | ⟨_, _, state, _⟩
  · rw [state]
  · rw [state]
    rfl

theorem devices_compile (q : Sequence α) : q.compile.state.devices = q.devices := by
  rcases compile_cases q with ⟨_, _, _, state, _⟩ | ⟨_, _, state, _⟩
  · rw [state]
  · rw [state]
    rfl

theorem cycleFrequency_compile (q : Sequence α) : q.compile.state.cycleFrequency = q.cycleFrequency := by
  rcases compile_cases q with ⟨_, _, _, state, _⟩ | ⟨_, _, state, _⟩
  · rw [state]
  · rw [state]
    rfl

theorem map_renew_compile (q : Sequence α) : q.compile.state.slices.map Slice.renew = q.slices.map Slice.renew := by
  rcases compile_cases q with ⟨_, slices, _, state, states⟩ | ⟨timeline, _, state, _, _, _⟩
  · rw [state]
    symm
    apply Slice.map_eq_map_of_forall₂
    apply states.imp
    rintro s s' (rfl | rfl)
    · rfl
    · exact (Slice.renew_flatten q.registry s).symm
  · rw [state]
    unfold commit
    rw [List.map_map, List.map_map]
    apply List.map_congr_left
    intro s _
    simp only [Function.comp_apply, Slice.renew_acknowledge, Slice.renew_flatten]

theorem compile_ok_iff :
    (∃ todo, q.compile.result = .ok todo)
      ↔ (∀ s ∈ q.slices, (s.flatten q.registry).result = .ok ()) ∧ Fits q.cycleLength 0.0 q.slices
        ∧ ∀ ch ∈ q.recompilationSet, (q.played ch).isSome := by
  constructor
  · rintro ⟨todo, ok⟩
    obtain ⟨_, timeline, _, flat, fits, tracks⟩ := compile_of_ok ok
    refine ⟨flat, fits, fun ch mem => ?_⟩
    rw [tracks ch mem]
    rfl
  · rintro ⟨flat, fits, tracks⟩
    obtain ⟨timeline, ok⟩ : ∃ timeline,
        (placeSlices q.registry q.cycleLength q.recompilationSet ⟨0.0, ∅, []⟩ q.slices).result = .ok timeline :=
      placeSlices_ok flat fits tracks
    refine ⟨q.recompilationSet, ?_⟩
    rcases h : placeSlices q.registry q.cycleLength q.recompilationSet ⟨0.0, ∅, []⟩ q.slices with ⟨result, _, _⟩
    rw [h] at ok
    cases ok
    simp only [compile, h]

theorem get?_store_map (t : Table ChannelId (Waveform α)) (todo : ChannelSet)
    (track : ChannelId → Option (Waveform α)) (ch : ChannelId) :
    (Slice.store t (todo.ids.map fun c => (c, track c))).get? ch = if ch ∈ todo then track ch else t.get? ch := by
  have keys : (todo.ids.map fun c => (c, track c)).map (·.1) = todo.ids := by
    rw [List.map_map]
    exact List.map_id _
  split
  · rename_i mem
    apply Slice.get?_store_of_mem
    · rw [keys]
      exact todo.nodup_ids
    · exact List.mem_map.mpr ⟨ch, mem, rfl⟩
  · rename_i mem
    apply Slice.get?_store_of_not_mem
    rw [keys]
    exact mem

theorem compiled_compile {todo : ChannelSet} (ok : q.compile.result = .ok todo) (ch : ChannelId) :
    if ch ∈ q.recompilationSet then q.played ch = some (q.compile.state.compiled.get? ch)
    else q.compile.state.compiled.get? ch = q.compiled.get? ch := by
  obtain ⟨_, timeline, state, _, _, tracks⟩ := compile_of_ok ok
  have compiled : q.compile.state.compiled.get? ch
      = if ch ∈ q.recompilationSet then timeline.tracks.get? ch else q.compiled.get? ch := by
    rw [state]
    exact get?_store_map q.compiled q.recompilationSet _ ch
  split
  · rename_i mem
    rw [compiled, if_pos mem]
    exact tracks ch mem
  · rename_i mem
    rw [compiled, if_neg mem]

end PulseSequencer.Sequence
