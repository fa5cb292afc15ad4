import PulseSequencer.Proofs.Sequence.Coherence

/-!
This module contains the proof that compiling what has changed is as good as compiling everything: whatever was done to
a sequence, and in whatever order, the next compilation ends as one that knows of no compilation before it.
-/

namespace PulseSequencer.Sequence

variable {α : Type} [Scalar α]

open Scalar Slice

/--
A sequence with the same content that was just built: no slice was ever flattened, and nothing was ever compiled.
-/
def renew (q : Sequence α) : Sequence α :=
  { q with
    slices := q.slices.map Slice.renew
    compiled := ∅
    durations := ∅
    pendingCompile := ∅
    pendingProgram := ∅
    programmed := false
    snapshot := .initial }

/--
The commands that leave all slices in place, and that never compare two times which lie within the tolerance of each
other but are not the same. A slice may have had a life of its own before it is added.
-/
def Calm : Command α → Sequence α → Prop
  | .addSlice s, _ => Slice.Reached Slice.Settled s
  | .dropSlice _, _ => False
  | .atSlice _ _ (.nest child), _ => Slice.Reached Slice.Settled child
  | .atSlice top rest (.flatten _), q | .atSlice top rest (.getWaveform ..), q =>
    ∀ s, find? q.slices top = some s → ∀ t, follow rest s = .ok t → t.Settled
  | .compile, q => q.Settled
  | _, _ => True

section Steps

variable {q : Sequence α}

theorem coherent_create (driver : Driver) (cycleFrequency : α) : (create driver cycleFrequency).Coherent where
  slices := nofun
  sliceNames := .nil
  channelNames := .nil
  measured := by
    intro name known
    cases known
  played := fun _ _ => ⟨fun _ => none, none, nofun, nofun, rfl, nofun⟩

theorem Coherent.perform [NeutralZero α] {command : Command α} (coherent : q.Coherent) (calm : Calm command q) :
    (q.perform command).Coherent := by
  rcases perform_cases q command with
    kept | ⟨s, rfl, added⟩ | ⟨name, rfl⟩ | ⟨top, rest, command, rfl⟩ | rfl
  · exact coherent.of_keeps kept
  · exact coherent.addSlice (coherent_of_reached calm) added
  · exact absurd calm id
  · apply coherent.workIn
    intro s found t leads below
    apply below.perform
    · rintro child rfl
      exact coherent_of_reached calm
    · intro flattens
      cases command with
      | edit ch change => cases flattens
      | nest child => cases flattens
      | flatten registry => exact calm s found t leads
      | getWaveform registry ch => exact calm s found t leads
  · exact coherent.compile calm

theorem coherent_of_reached [NeutralZero α] (reached : Reached Calm q) : q.Coherent :=
  reached.invariant coherent_create fun _ _ coherent calm => coherent.perform calm

end Steps

section Renewal

variable {q : Sequence α} {ch : ChannelId}

theorem mem_touched_unmeasured {shifted : Bool} {slices : List (Slice α)} :
    ch ∈ touched ∅ shifted slices ↔ ∃ s ∈ slices, ch ∈ s.changed ∨ ch ∈ s.channels := by
  induction slices generalizing shifted with
  | nil => simp [touched]
  | cons s rest ih => simp [mem_touched_cons, remeasured, ih, or_assoc]

theorem mem_recompilationSet_renew : ch ∈ q.renew.recompilationSet ↔ ∃ s ∈ q.slices, ch ∈ s.channels := by
  have unmoved : moved q.registry (.initial : Snapshot α) = ∅ := rfl
  simp [recompilationSet, renew, mem_touched_unmeasured, mem_changed_renew, unmoved]

theorem fits_renew {cycleEnd cursor : α} {slices : List (Slice α)} :
    Fits cycleEnd cursor (slices.map Slice.renew) ↔ Fits cycleEnd cursor slices := by
  induction slices generalizing cursor with
  | nil => rfl
  | cons s rest ih =>
    have advanced : advance cycleEnd cursor s.renew = advance cycleEnd cursor s := by
      unfold advance Slice.start?
      rw [kind_renew, duration_renew, name_renew]
    simp only [List.map_cons, Fits, advanced, ih]

theorem played_renew (coherent : q.Coherent) (settled : q.Settled)
    (flat : ∀ s ∈ q.slices, (s.flatten q.registry).result = .ok ()) : q.renew.played ch = q.played ch := by
  have slots : q.renew.slices.map (fun s => slotOf ch (s.flatten q.registry).state)
      = q.slices.map fun s => slotOf ch (s.flatten q.registry).state := by
    unfold renew
    rw [List.map_map]
    apply List.map_congr_left
    intro s mem
    have sound := sound_of_coherent (coherent.slices s mem) (settled.slices s mem)
    have agree := (flatten_agree q.registry sound (sound_renew s) (renew_renew s).symm (flat s mem)).2 ch
    unfold slotOf
    simp only [Function.comp_apply, start?_flatten, duration_flatten, duration_renew, ← agree]
    unfold Slice.start?
    rw [kind_renew]
  exact congrArg (placeTrack (rise? q.registry ch) 0.0 none) slots

theorem segment_renew_of_silent {s : Slice α} (registry : Registry α) (silent : ch ∉ s.channels) :
    (slotOf ch (s.renew.flatten registry).state).segment = none := by
  have unchanged : ch ∉ s.renew.updated := by
    rw [mem_updated_renew]
    exact silent
  exact (flattened_flatten registry unchanged).trans (flattened_renew ch s)

theorem played_renew_of_not_mem (h : ch ∉ q.renew.recompilationSet) : q.renew.played ch = some none := by
  rw [mem_recompilationSet_renew] at h
  apply placeTrack_of_silent
  intro slot mem
  obtain ⟨u, renewed, rfl⟩ := List.mem_map.mp mem
  obtain ⟨s, found, rfl⟩ := List.mem_map.mp renewed
  exact segment_renew_of_silent q.registry fun carried => h ⟨s, found, carried⟩

theorem played_renew_eq_compiled {todo : ChannelSet} (ok : q.renew.compile.result = .ok todo) (ch : ChannelId) :
    q.renew.played ch = some (q.renew.compile.state.compiled.get? ch) := by
  have stored := compiled_compile ok ch
  split at stored
  · exact stored
  · rename_i untouched
    rw [stored]
    exact played_renew_of_not_mem untouched

theorem flat_renew_iff (coherent : q.Coherent) (settled : q.Settled) :
    (∀ s ∈ q.renew.slices, (s.flatten q.registry).result = .ok ())
      ↔ ∀ s ∈ q.slices, (s.flatten q.registry).result = .ok () := by
  unfold renew
  rw [List.forall_mem_map]
  apply forall₂_congr
  intro s mem
  have sound := sound_of_coherent (coherent.slices s mem) (settled.slices s mem)
  constructor
  · exact fun ok => (flatten_agree q.registry (sound_renew s) sound (renew_renew s) ok).1
  · exact fun ok => (flatten_agree q.registry sound (sound_renew s) (renew_renew s).symm ok).1

/--
A compilation succeeds if and only if it does for the same content from nothing, and yields the same waveforms then.
-/
theorem compile_eq_compile_renew [NeutralZero α] (reached : Reached Calm q) (settled : q.Settled) :
    ((∃ todo, q.compile.result = .ok todo) ↔ ∃ todo, q.renew.compile.result = .ok todo)
      ∧ ((∃ todo, q.compile.result = .ok todo) → ∀ ch,
        q.compile.state.compiled.get? ch = q.renew.compile.state.compiled.get? ch) := by
  have coherent := coherent_of_reached reached
  have flat_iff := flat_renew_iff coherent settled
  have fits_iff : Fits q.renew.cycleLength 0.0 q.renew.slices ↔ Fits q.cycleLength 0.0 q.slices := fits_renew
  have ok_iff : (∃ todo, q.compile.result = .ok todo) ↔ ∃ todo, q.renew.compile.result = .ok todo := by
    rw [compile_ok_iff, compile_ok_iff, fits_iff]
    constructor
    · rintro ⟨flat, fits, tracks⟩
      refine ⟨flat_iff.mpr flat, fits, fun ch _ => ?_⟩
      rw [played_renew coherent settled flat]
      by_cases mem : ch ∈ q.recompilationSet
      · exact tracks ch mem
      · rw [played_of_not_mem coherent settled mem]
        rfl
    · rintro ⟨flat, fits, tracks⟩
      have flat := flat_iff.mp flat
      refine ⟨flat, fits, fun ch _ => ?_⟩
      rw [← played_renew coherent settled flat]
      by_cases mem : ch ∈ q.renew.recompilationSet
      · exact tracks ch mem
      · rw [played_renew_of_not_mem mem]
        rfl
  refine ⟨ok_iff, fun ok ch => ?_⟩
  have flat := (compile_ok_iff.mp ok).1
  obtain ⟨todo, done⟩ := ok
  obtain ⟨todo', done'⟩ := ok_iff.mp ⟨todo, done⟩
  have here := played_eq_compiled coherent settled done ch
  have anew := played_renew_eq_compiled done' ch
  rw [played_renew coherent settled flat, here] at anew
  exact Option.some.inj anew

end Renewal

section Example

def twoPulses : Sequence Float :=
  (onePulse.perform .compile).perform (.atSlice "drive" [] (.edit ⟨0⟩ (.addWaveform (.dc 0.25 0.5 0.0))))

theorem settled_of_shallow {q : Sequence Float} (shallow : q.slices.all (·.subs.isEmpty) = true)
    (durations : ∀ s ∈ q.slices, remeasured q.durations s = true ∨ q.durations.get? s.name = some s.duration)
    (rises : ∀ trace ∈ q.snapshot.channels, (q.registry.findChannel? trace.name).all
      (fun ch => rise? q.registry ch = some trace.raiseAt) = true) : q.Settled where
  slices := by
    intro s mem
    have leaf : s.subs = [] := by simpa using List.all_eq_true.mp shallow s mem
    exact .node (.inr (by simp [leaf])) (by simp [leaf])
  durations := by
    intro s mem duration known
    rcases durations s mem with moved | kept
    · unfold remeasured at moved
      rw [known] at moved
      exact .inl moved
    · rw [known] at kept
      exact .inr (Option.some.inj kept).symm
  rises := by
    intro trace mem ch name t trigger
    have kept := rises trace mem
    rw [name] at kept
    simp only [Option.all_some, rise?_of_triggerOf trigger, decide_eq_true_eq] at kept
    exact .inr (Option.some.inj kept)

theorem reached_onePulse : Reached Calm onePulse := by
  have described : @Reached Float _ Calm _ := .perform (.linkChannel ⟨0⟩ "out" (.memory 4.0 1))
    (.perform (.addTrigger "strobe" 0 0.0 1e-6) (.create .memory 1.0) trivial) trivial
  exact .perform (.atSlice "drive" [] (.edit ⟨0⟩ (.addWaveform (.dc 0.25 1.0 0.0))))
    (.perform (.addSlice (.flex "drive")) described (.ofKind "drive" .flex)) trivial

theorem compile_twoPulses_eq_compile_renew :
    ((∃ todo, twoPulses.compile.result = .ok todo) ↔ ∃ todo, twoPulses.renew.compile.result = .ok todo)
      ∧ ((∃ todo, twoPulses.compile.result = .ok todo) → ∀ ch,
        twoPulses.compile.state.compiled.get? ch = twoPulses.renew.compile.state.compiled.get? ch) := by
  have compiled := Reached.perform .compile reached_onePulse
    (settled_of_shallow (by decide +kernel) (by decide +kernel) (by decide +kernel))
  have reached : Reached Calm twoPulses :=
    .perform (.atSlice "drive" [] (.edit ⟨0⟩ (.addWaveform (.dc 0.25 0.5 0.0)))) compiled trivial
  exact compile_eq_compile_renew reached
    (settled_of_shallow (by decide +kernel) (by decide +kernel) (by decide +kernel))

end Example

end PulseSequencer.Sequence
