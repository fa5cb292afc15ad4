import PulseSequencer.Proofs.Sequence.Incremental
import PulseSequencer.Proofs.Sequence.Repetition
import PulseSequencer.Proofs.Sequence.Retry

/-!
This module contains what the next compilation makes of a slice that was removed: nothing. The channels of that slice keep
what they were compiled to, and so do those of the slices that have moved up into its place.
-/

namespace PulseSequencer.Sequence

variable {α : Type} [Scalar α]

open Scalar Slice

section Tracks

variable {rise : Option α} {cursor cursor' : α} {track : Option (Waveform α)} {slot : Slot α}
  {before after slots : List (Slot α)}

theorem placeTrack_of_stacked_silent (silent : ∀ slot ∈ slots, slot.start? = none → slot.segment = none) :
    placeTrack rise cursor track slots = placeTrack rise cursor' track slots := by
  induction slots generalizing cursor cursor' track with
  | nil => rfl
  | cons first rest ih =>
    rw [List.forall_mem_cons] at silent
    have later (track' : Option (Waveform α)) :
        placeTrack rise (first.next cursor) track' rest = placeTrack rise (first.next cursor') track' rest := ih silent.2
    simp only [placeTrack, later]
    cases start : first.start? with
    | some own => rfl
    | none => rw [silent.1 start, placeSlot_none, placeSlot_none]

theorem placeTrack_remove (silent : slot.segment = none)
    (still : slot.start?.isSome = true ∨ ∀ u ∈ after, u.start? = none → u.segment = none) :
    placeTrack rise cursor track (before ++ slot :: after) = placeTrack rise cursor track (before ++ after) := by
  induction before generalizing cursor track with
  | nil =>
    rw [List.nil_append, List.nil_append, placeTrack, silent, placeSlot_none, Option.bind_some]
    rcases still with own | still
    · obtain ⟨start, own⟩ := Option.isSome_iff_exists.mp own
      unfold Slot.next
      rw [own]
    · exact placeTrack_of_stacked_silent still
  | cons first rest ih => simp only [List.cons_append, placeTrack, ih]

end Tracks

section Removal

variable {q : Sequence α} {name : String} {ch : ChannelId}

def cut (q : Sequence α) (name : String) : Sequence α :=
  (q.compile.state.dropSlice name).1

theorem filter_of_split {slices before after : List (Slice α)} {s : Slice α}
    (distinct : (slices.map Slice.name).Nodup) (split : slices = before ++ s :: after) (named : s.name = name) :
    slices.filter (·.name != name) = before ++ after := by
  rw [split, List.map_append, List.map_cons, List.nodup_append, List.nodup_cons] at distinct
  obtain ⟨_, ⟨behind, _⟩, apart⟩ := distinct
  have front : before.filter (·.name != name) = before := by
    rw [List.filter_eq_self]
    intro u mem
    have other := apart u.name (List.mem_map_of_mem mem) s.name List.mem_cons_self
    simpa [← named] using other
  have back : after.filter (·.name != name) = after := by
    rw [List.filter_eq_self]
    intro u mem
    have other : u.name ≠ s.name := fun same => behind (same ▸ List.mem_map_of_mem mem)
    simpa [← named] using other
  rw [split, List.filter_append, List.filter_cons_of_neg (by simp [named]), front, back]

theorem slices_renew_cut (q : Sequence α) (name : String) :
    (q.cut name).renew.slices = (q.slices.filter (·.name != name)).map Slice.renew := by
  have kept (slices : List (Slice α)) : (slices.filter (·.name != name)).map Slice.renew
      = (slices.map Slice.renew).filter (·.name != name) := by
    rw [List.filter_map]
    congr 1
    apply List.filter_congr
    intro s _
    rw [Function.comp_apply, name_renew]
  have slices : (q.cut name).renew.slices = (q.compile.state.slices.filter (·.name != name)).map Slice.renew := rfl
  rw [slices, kept, kept, map_renew_compile]

theorem compiled_renew_of_silent (silent : ∀ s ∈ q.renew.slices, ch ∉ s.channels) :
    q.renew.compile.state.compiled.get? ch = none := by
  cases result : q.renew.compile.result with
  | error cause =>
    rw [compile_state_of_error result]
    rfl
  | ok todo =>
    have untouched : ch ∉ q.renew.recompilationSet := by
      rw [mem_recompilationSet_renew]
      rintro ⟨s, mem, carried⟩
      exact silent s.renew (List.mem_map_of_mem mem) (channels_renew s ▸ carried)
    have stored := compiled_compile result ch
    rw [if_neg untouched] at stored
    exact stored

theorem played_renew_cut {before after : List (Slice α)} {s : Slice α} (distinct : (q.slices.map Slice.name).Nodup)
    (split : q.slices = before ++ s :: after) (named : s.name = name) (silent : ch ∉ s.channels)
    (still : s.start?.isSome = true ∨ ∀ u ∈ after, u.start? = none → ch ∉ u.channels) :
    (q.cut name).renew.played ch = q.renew.played ch := by
  have registry : (q.cut name).renew.registry = q.registry := registry_compile q
  have start (u : Slice α) : (slotOf ch (u.renew.flatten q.registry).state).start? = u.start? := by
    unfold slotOf
    rw [start?_flatten]
    unfold Slice.start?
    rw [kind_renew]
  unfold played
  rw [registry, slices_renew_cut, filter_of_split distinct split named]
  have slices : q.renew.slices = (before ++ s :: after).map Slice.renew := congrArg (List.map Slice.renew) split
  rw [slices, List.map_map, List.map_map, List.map_append, List.map_append, List.map_cons]
  symm
  apply placeTrack_remove (segment_renew_of_silent q.registry silent)
  rcases still with own | still
  · exact .inl ((congrArg Option.isSome (start s)).trans own)
  · refine .inr ?_
    intro slot mem stacked
    obtain ⟨u, behind, rfl⟩ := List.mem_map.mp mem
    exact segment_renew_of_silent q.registry (still u behind ((start u).symm.trans stacked))

theorem compile_of_nothing (nothing : q.recompilationSet = ∅) {todo : ChannelSet} (ok : q.compile.result = .ok todo) :
    todo = ∅ ∧ q.compile.state.compiled = q.compiled := by
  obtain ⟨rfl, _, state, _⟩ := compile_of_ok ok
  rw [state, nothing]
  exact ⟨rfl, rfl⟩

variable [SelfNear α]

theorem recompilationSet_cut (distinct : q.Distinct) {todo : ChannelSet} (ok : q.compile.result = .ok todo) :
    (q.cut name).recompilationSet = ∅ := by
  cases placed : q.placement.result with
  | error cause =>
    rw [(compile_of_not_placed placed).1] at ok
    cases ok
  | ok timeline =>
    have settled : ∀ s ∈ (q.cut name).slices, _ := fun s mem =>
      settled_of_success distinct placed s (List.mem_of_mem_filter mem)
    have untouched : touched q.compile.state.durations false (q.cut name).slices = ∅ :=
      touched_of_recorded (fun s mem => (settled s mem).1) (fun s mem => (settled s mem).2)
    have unmoved : moved q.compile.state.registry q.compile.state.snapshot = ∅ := unmoved_of_success distinct placed
    have todo_eq : (q.cut name).recompilationSet
        = q.compile.state.pendingCompile ∪ moved q.compile.state.registry q.compile.state.snapshot
          ∪ touched q.compile.state.durations false (q.cut name).slices := rfl
    rw [todo_eq, pendingCompile_of_success placed, unmoved, untouched]
    rfl

/--
The compilation after the removal of a slice. No channel is compiled anew, and so all of them keep what they had: the
ones that only the removed slice carried, for which a compilation from nothing yields nothing, and those of slices which
would now start earlier. A channel has what a compilation from nothing yields if the removed slice did not carry it and
does not move any slice that does.
-/
theorem compile_after_removal [NeutralZero α] (made : q.Made) {todo todo' : ChannelSet}
    (ok : q.compile.result = .ok todo) (again : (q.cut name).compile.result = .ok todo') :
    todo' = ∅
      ∧ (q.cut name).compile.state.compiled = q.compile.state.compiled
      ∧ (∀ ch, (∀ s ∈ q.slices, ch ∈ s.channels → s.name = name) →
        (q.cut name).renew.compile.state.compiled.get? ch = none)
      ∧ (Reached Calm q → q.Settled → (∃ anew, (q.cut name).renew.compile.result = .ok anew) →
        ∀ before s after, q.slices = before ++ s :: after → s.name = name → ∀ ch, ch ∉ s.channels →
          (s.start?.isSome = true ∨ ∀ u ∈ after, u.start? = none → ch ∉ u.channels) →
            (q.cut name).compile.state.compiled.get? ch = (q.cut name).renew.compile.state.compiled.get? ch) := by
  have distinct := distinct_of_made made
  obtain ⟨nothing, compiled⟩ := compile_of_nothing (recompilationSet_cut distinct ok) again
  have kept : (q.cut name).compile.state.compiled = q.compile.state.compiled := compiled
  refine ⟨nothing, kept, ?_, ?_⟩
  · intro ch only
    apply compiled_renew_of_silent
    rw [slices_renew_cut]
    intro s' mem carried
    obtain ⟨s, found, rfl⟩ := List.mem_map.mp mem
    obtain ⟨here, other⟩ := List.mem_filter.mp found
    rw [channels_renew] at carried
    simp [only s here carried] at other
  · rintro reached settled ⟨anew, scratch⟩ before s after split named ch silent still
    have here := played_eq_compiled (coherent_of_reached reached) settled ok ch
    have flat := (compile_ok_iff.mp ⟨todo, ok⟩).1
    rw [← played_renew (coherent_of_reached reached) settled flat,
      ← played_renew_cut distinct.sliceNames split named silent still, played_renew_eq_compiled scratch] at here
    rw [kept]
    exact (congrArg (Option.getD · none) here).symm

end Removal

section Example

def driveAndProbe : Sequence Float :=
  ((onePulse.perform (.linkChannel ⟨0⟩ "back" (.memory 4.0 1))).perform (.addSlice (.fixed "probe" 0.5 0.25))).perform
    (.atSlice "probe" [] (.edit ⟨1⟩ (.addWaveform (.dc 0.25 1.0 0.0))))

theorem made_driveAndProbe : driveAndProbe.Made := by
  refine .perform (.atSlice "probe" [] (.edit ⟨1⟩ (.addWaveform (.dc 0.25 1.0 0.0)))) ?_ trivial
  refine .perform (.addSlice (.fixed "probe" 0.5 0.25)) ?_ (.ofKind "probe" (.fixed 0.5 0.25))
  exact .perform (.linkChannel ⟨0⟩ "back" (.memory 4.0 1)) made_onePulse trivial

theorem reached_driveAndProbe : Reached Calm driveAndProbe := by
  refine .perform (.atSlice "probe" [] (.edit ⟨1⟩ (.addWaveform (.dc 0.25 1.0 0.0)))) ?_ trivial
  refine .perform (.addSlice (.fixed "probe" 0.5 0.25)) ?_ (.ofKind "probe" (.fixed 0.5 0.25))
  exact .perform (.linkChannel ⟨0⟩ "back" (.memory 4.0 1)) reached_onePulse trivial

theorem settled_driveAndProbe : driveAndProbe.Settled :=
  settled_of_shallow (by decide +kernel) (by decide +kernel) (by decide +kernel)

theorem compiles_driveAndProbe : ∃ todo, driveAndProbe.compile.result = .ok todo :=
  exists_ok_of_isOk (by decide +kernel)

theorem compiles_cut_driveAndProbe :
    (∃ todo, (driveAndProbe.cut "drive").compile.result = .ok todo)
      ∧ ∃ anew, (driveAndProbe.cut "drive").renew.compile.result = .ok anew :=
  ⟨exists_ok_of_isOk (by decide +kernel), exists_ok_of_isOk (by decide +kernel)⟩

theorem compile_driveAndProbe_after_removal :
    (driveAndProbe.cut "drive").compile.result = .ok ∅
      ∧ (driveAndProbe.cut "drive").compile.state.compiled = driveAndProbe.compile.state.compiled
      ∧ (driveAndProbe.cut "drive").renew.compile.state.compiled.get? ⟨0⟩ = none
      ∧ (driveAndProbe.cut "drive").compile.state.compiled.get? ⟨1⟩
        = (driveAndProbe.cut "drive").renew.compile.state.compiled.get? ⟨1⟩ := by
  obtain ⟨todo, ok⟩ := compiles_driveAndProbe
  obtain ⟨⟨todo', again⟩, anew⟩ := compiles_cut_driveAndProbe
  obtain ⟨rfl, compiled, gone, kept⟩ := compile_after_removal made_driveAndProbe ok again
  refine ⟨again, compiled, gone ⟨0⟩ (by decide +kernel), ?_⟩
  exact kept reached_driveAndProbe settled_driveAndProbe anew [] _ _ rfl rfl ⟨1⟩ (by decide +kernel)
    (.inr (by decide +kernel))

/--
It is not true that the next compilation after a removal always yields what a compilation from nothing does.
-/
theorem not_compile_after_removal_eq_compile_renew :
    ¬ ∀ q : Sequence Float, Reached Calm q → q.Settled → ∀ todo, q.compile.result = .ok todo →
      ∀ name todo', (q.cut name).compile.result = .ok todo' → (∃ anew, (q.cut name).renew.compile.result = .ok anew) →
        ∀ ch, (q.cut name).compile.state.compiled.get? ch = (q.cut name).renew.compile.state.compiled.get? ch := by
  intro same
  obtain ⟨todo, ok⟩ := compiles_driveAndProbe
  obtain ⟨⟨todo', again⟩, anew⟩ := compiles_cut_driveAndProbe
  have left := congrArg Option.isSome
    (same driveAndProbe reached_driveAndProbe settled_driveAndProbe todo ok "drive" todo' again anew ⟨0⟩)
  revert left
  decide +kernel

end Example

end PulseSequencer.Sequence
