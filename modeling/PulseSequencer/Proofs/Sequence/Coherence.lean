import PulseSequencer.Proofs.Registry
import PulseSequencer.Proofs.Sequence.Compilation
import PulseSequencer.Proofs.Sequence.Run

/-!
This module contains the invariant that ties the compiled waveforms of a sequence to its slices, and that every command
keeps it. With it a channel that is not compiled again plays what it would play if it was.
-/

namespace PulseSequencer.Sequence

variable {α : Type} [Scalar α]

open Scalar Slice

/--
Whether the durations of slices and the rise times of triggers are all as they were recorded at the last success, or
have moved by more than the tolerance.
-/
structure Settled (q : Sequence α) : Prop where
  slices : ∀ s ∈ q.slices, s.Settled
  durations : ∀ s ∈ q.slices, ∀ duration, q.durations.get? s.name = some duration →
    apart duration s.duration = true ∨ s.duration = duration
  rises : ∀ trace ∈ q.snapshot.channels, ∀ ch, q.registry.findChannel? trace.name = some ch →
    ∀ t, q.registry.triggerOf ch = .ok t → apart t.raiseAt trace.raiseAt = true ∨ t.raiseAt = trace.raiseAt

def recordedSlots (durations : Table String α) (segments : String → Option (Waveform α)) (slices : List (Slice α)) :
    List (Slot α) :=
  slices.map fun s => ⟨s.start?, recorded durations s.name, segments s.name⟩

/--
What is known of a channel that is not waiting to be compiled: the segments that were placed on it, which slices still
have unless they report a change, and when its trigger rose, if it plays anything. Slices that came later have none.
-/
structure Played (q : Sequence α) (ch : ChannelId) (segments : String → Option (Waveform α)) (rise : Option α) :
    Prop where
  same : ∀ s ∈ q.slices, (q.durations.get? s.name).isSome → ch ∉ s.memo.unconsumed →
    segments s.name = s.memo.flattened.get? ch
  later : ∀ s ∈ q.slices, q.durations.get? s.name = none → segments s.name = none
  placed : placeTrack rise 0.0 none (recordedSlots q.durations segments q.slices) = some (q.compiled.get? ch)
  traced : (q.compiled.get? ch).isSome → ∃ trace ∈ q.snapshot.channels,
    q.registry.findChannel? trace.name = some ch ∧ rise = some trace.raiseAt

structure Recalled (q : Sequence α) (ch : ChannelId) (segments : String → Option (Waveform α)) : Prop where
  same : ∀ s ∈ q.slices, (q.durations.get? s.name).isSome → ch ∉ s.memo.unconsumed →
    segments s.name = s.memo.flattened.get? ch
  later : ∀ s ∈ q.slices, q.durations.get? s.name = none → segments s.name = none

structure Coherent (q : Sequence α) : Prop where
  slices : ∀ s ∈ q.slices, s.Coherent
  sliceNames : (q.slices.map Slice.name).Nodup
  channelNames : q.registry.channelNames.Nodup
  measured : ∀ name, (q.durations.get? name).isSome → name ∈ q.slices.map Slice.name
  played : ∀ ch, ch ∉ q.pendingCompile → ∃ segments rise, Played q ch segments rise

section Trust

variable {ch : ChannelId} {s : Slice α} {durations : Table String α}

def remeasured (durations : Table String α) (s : Slice α) : Bool :=
  match durations.get? s.name with
  | some duration => apart duration s.duration
  | none => true

theorem duration_of_not_remeasured (settled : ∀ duration, durations.get? s.name = some duration →
    apart duration s.duration = true ∨ s.duration = duration) (measured : remeasured durations s = false) :
    s.duration = recorded durations s.name := by
  unfold remeasured at measured
  unfold recorded
  cases known : durations.get? s.name with
  | none => simp [known] at measured
  | some duration =>
    simp only [known] at measured
    rcases settled duration known with far | equal
    · rw [far] at measured
      cases measured
    · exact equal

theorem mem_touched_cons {shifted : Bool} {rest : List (Slice α)} :
    ch ∈ touched durations shifted (s :: rest)
      ↔ ch ∈ s.changed
        ∨ (remeasured durations s || ((shifted || (s.start?.isNone && remeasured durations s)) && s.start?.isNone)) = true
          ∧ ch ∈ s.channels
        ∨ ch ∈ touched durations (shifted || (s.start?.isNone && remeasured durations s)) rest := by
  have unfolded : touched durations shifted (s :: rest)
      = s.changed ∪ (if remeasured durations s || ((shifted || (s.start?.isNone && remeasured durations s))
          && s.start?.isNone) then s.channels else ∅)
        ∪ touched durations (shifted || (s.start?.isNone && remeasured durations s)) rest := by
    simp only [touched, remeasured]
    rfl
  rw [unfolded, ChannelSet.mem_union, ChannelSet.mem_union, or_assoc]
  split
  · rename_i all
    simp [all]
  · rename_i none
    simp [none]

variable {segments : String → Option (Waveform α)} {registry : Registry α}

theorem segment_of_unchanged (registry : Registry α) (unchanged : ch ∉ s.changed)
    (silent : ch ∉ s.channels → s.memo.flattened.get? ch = none)
    (carried : durations.get? s.name = none → ch ∉ s.channels)
    (same : (durations.get? s.name).isSome → ch ∉ s.memo.unconsumed → segments s.name = s.memo.flattened.get? ch)
    (later : durations.get? s.name = none → segments s.name = none) :
    (s.flatten registry).state.memo.flattened.get? ch = segments s.name := by
  rw [mem_changed, not_or] at unchanged
  rw [flattened_flatten registry unchanged.1]
  cases known : durations.get? s.name with
  | none => rw [later known, silent (carried known)]
  | some duration => rw [same (by rw [known]; rfl) unchanged.2]

theorem placeTrack_of_untouched {slices : List (Slice α)} {rise : Option α} {track : Option (Waveform α)}
    (coherent : ∀ s ∈ slices, s.Coherent)
    (settled : ∀ s ∈ slices, ∀ duration, durations.get? s.name = some duration →
      apart duration s.duration = true ∨ s.duration = duration)
    (same : ∀ s ∈ slices, (durations.get? s.name).isSome → ch ∉ s.memo.unconsumed →
      segments s.name = s.memo.flattened.get? ch)
    (later : ∀ s ∈ slices, durations.get? s.name = none → segments s.name = none)
    {shifted : Bool} (untouched : ch ∉ touched durations shifted slices) {cursor cursor' : α}
    (cursors : shifted = false → cursor = cursor') :
    placeTrack rise cursor track (slices.map fun s => slotOf ch (s.flatten registry).state)
      = placeTrack rise cursor' track (recordedSlots durations segments slices) := by
  -- The cursors differ once a slice was resized that others follow, but then none of the others has a segment.
  induction slices generalizing shifted cursor cursor' track with
  | nil => rfl
  | cons s rest ih =>
    rw [List.forall_mem_cons] at coherent settled same later
    rw [mem_touched_cons, not_or, not_or] at untouched
    obtain ⟨unchanged, all, untouched⟩ := untouched
    have unmeasured : durations.get? s.name = none → ch ∉ s.channels := by
      intro unknown carried
      apply all
      simp [remeasured, unknown, carried]
    have quiet : ch ∉ s.channels → s.memo.flattened.get? ch = none :=
      fun carried => flattened_eq_none coherent.1 carried (not_or.mp (mem_changed.not.mp unchanged)).1
    have segment := segment_of_unchanged registry unchanged quiet unmeasured same.1 later.1
    have step (track' : Option (Waveform α)) {next next' : α}
        (nexts : (shifted || (s.start?.isNone && remeasured durations s)) = false → next = next') :
        placeTrack rise next track' (rest.map fun s => slotOf ch (s.flatten registry).state)
          = placeTrack rise next' track' (recordedSlots durations segments rest) :=
      ih coherent.2 settled.2 same.2 later.2 untouched nexts
    have first : slotOf ch (s.flatten registry).state = ⟨s.start?, s.duration, segments s.name⟩ := by
      simp only [slotOf, start?_flatten, duration_flatten, segment]
    have recorded_cons : recordedSlots durations segments (s :: rest)
        = ⟨s.start?, recorded durations s.name, segments s.name⟩ :: recordedSlots durations segments rest := rfl
    rw [List.map_cons, first, recorded_cons]
    simp only [placeTrack, Slot.next]
    cases start : s.start? with
    | some own =>
      -- A slice with a start of its own stays where it is and moves no other slice.
      simp only [start, Option.isNone_some, Bool.false_and, Bool.or_false] at step
      dsimp only [Option.getD_some]
      cases placeSlot rise own (segments s.name) track with
      | none => rfl
      | some track' => exact step track' cursors
    | none =>
      simp only [start, Option.isNone_none, Bool.true_and, Bool.and_true] at step all
      dsimp only [Option.getD_none]
      cases moved : shifted || remeasured durations s with
      | true =>
        have silent : segments s.name = none := by
          rw [mem_changed, not_or] at unchanged
          have carried : ch ∉ s.channels := fun carried => all ⟨by simp [moved], carried⟩
          rw [← segment, flattened_flatten registry unchanged.1, quiet carried]
        rw [silent, placeSlot_none, placeSlot_none]
        exact step track (by simp [moved])
      | false =>
        rw [Bool.or_eq_false_iff] at moved
        have cursor_eq := cursors moved.1
        rw [cursor_eq, duration_of_not_remeasured settled.1 moved.2]
        cases placeSlot rise cursor' (segments s.name) track with
        | none => rfl
        | some track' => exact step track' fun _ => rfl

theorem rise_of_not_moved {snapshot : Snapshot α} {trace : ChannelTrace α} (mem : trace ∈ snapshot.channels)
    (name : registry.findChannel? trace.name = some ch) (h : ch ∉ moved registry snapshot) :
    ∃ t, registry.triggerOf ch = .ok t ∧ apart t.raiseAt trace.raiseAt = false := by
  unfold moved at h
  rw [ChannelSet.mem_ofList, List.mem_filterMap] at h
  cases trigger : registry.triggerOf ch with
  | error cause => exact absurd ⟨trace, mem, by simp only [name, trigger]⟩ h
  | ok t =>
    cases far : apart t.raiseAt trace.raiseAt with
    | true => exact absurd ⟨trace, mem, by simp only [name, trigger, far, if_true]⟩ h
    | false => exact ⟨t, rfl, far⟩

variable {q : Sequence α}

theorem played_of_not_mem (coherent : q.Coherent) (settled : q.Settled) (h : ch ∉ q.recompilationSet) :
    q.played ch = some (q.compiled.get? ch) := by
  unfold recompilationSet at h
  rw [ChannelSet.mem_union, ChannelSet.mem_union, not_or, not_or] at h
  obtain ⟨⟨clean, unmoved⟩, untouched⟩ := h
  obtain ⟨segments, rise, known⟩ := coherent.played ch clean
  have tracks (rise' : Option α) :
      placeTrack rise' 0.0 none (q.slices.map fun s => slotOf ch (s.flatten q.registry).state)
        = placeTrack rise' 0.0 none (recordedSlots q.durations segments q.slices) :=
    placeTrack_of_untouched coherent.slices settled.durations known.same known.later untouched fun _ => rfl
  unfold played
  rw [tracks]
  cases compiled : q.compiled.get? ch with
  | none =>
    have placed := known.placed
    rw [compiled] at placed
    exact placeTrack_of_silent (silent_of_placeTrack placed).2
  | some w =>
    obtain ⟨trace, mem, name, rfl⟩ := known.traced (by rw [compiled]; rfl)
    obtain ⟨t, trigger, near⟩ := rise_of_not_moved mem name unmoved
    have rise : t.raiseAt = trace.raiseAt := by
      rcases settled.rises trace mem ch name t trigger with far | equal
      · rw [far] at near
        cases near
      · exact equal
    rw [rise?_of_triggerOf trigger, rise, known.placed, compiled]

theorem played_eq_compiled (coherent : q.Coherent) (settled : q.Settled) {todo : ChannelSet}
    (ok : q.compile.result = .ok todo) (ch : ChannelId) : q.played ch = some (q.compile.state.compiled.get? ch) := by
  have stored := compiled_compile ok ch
  split at stored
  · exact stored
  · rename_i untouched
    rw [stored]
    exact played_of_not_mem coherent settled untouched

end Trust

section Steps

variable {q q' : Sequence α} {ch : ChannelId} {segments : String → Option (Waveform α)} {rise : Option α}

theorem recordedSlots_of_reports {durations : Table String α} {slices slices' : List (Slice α)}
    (h : List.Forall₂ Reports slices slices') :
    recordedSlots durations segments slices' = recordedSlots durations segments slices := by
  symm
  apply map_eq_map_of_forall₂
  apply h.imp
  intro s s' reports
  have start : s'.start? = s.start? := by
    unfold Slice.start?
    rw [reports.kind]
  rw [start, reports.name]

theorem Recalled.step (recalled : Recalled q ch segments) (durations : q'.durations = q.durations)
    (slices : List.Forall₂ Reports q.slices q'.slices) : Recalled q' ch segments := by
  constructor
  · intro s' mem' measured unreported
    obtain ⟨s, mem, reports⟩ := exists_of_mem_right slices mem'
    obtain ⟨unconsumed, waveform⟩ := reports.kept ch unreported
    rw [durations, reports.name] at measured
    rw [reports.name, waveform]
    exact recalled.same s mem measured unconsumed
  · intro s' mem' unmeasured
    obtain ⟨s, mem, reports⟩ := exists_of_mem_right slices mem'
    rw [durations, reports.name] at unmeasured
    rw [reports.name]
    exact recalled.later s mem unmeasured

theorem Recalled.append {s : Slice α} (recalled : Recalled q ch segments) (others : ∀ t ∈ q.slices, t.name ≠ s.name)
    (unmeasured : q.durations.get? s.name = none) :
    Recalled { q with slices := q.slices ++ [s] } ch (fun name => if name = s.name then none else segments name) := by
  constructor
  · intro t mem measured unreported
    rcases List.mem_append.mp mem with mem | mem
    · rw [if_neg (others t mem)]
      exact recalled.same t mem measured unreported
    · rw [List.mem_singleton.mp mem, unmeasured] at measured
      cases measured
  · intro t mem unknown
    rcases List.mem_append.mp mem with mem | mem
    · rw [if_neg (others t mem)]
      exact recalled.later t mem unknown
    · rw [List.mem_singleton.mp mem, if_pos rfl]

theorem recordedSlots_append {s : Slice α} {slices : List (Slice α)} (durations : Table String α)
    (others : ∀ t ∈ slices, t.name ≠ s.name) :
    recordedSlots durations (fun name => if name = s.name then none else segments name) (slices ++ [s])
      = recordedSlots durations segments slices ++ [⟨s.start?, recorded durations s.name, none⟩] := by
  unfold recordedSlots
  rw [List.map_append, List.map_singleton]
  dsimp only
  rw [if_pos rfl]
  congr 1
  apply List.map_congr_left
  intro t mem
  simp only [if_neg (others t mem)]

theorem Recalled.of_success {slices : List (Slice α)} (distinct : (slices.map Slice.name).Nodup)
    (durations : q'.durations = durationsOf slices) (acknowledged : q'.slices = slices.map acknowledge) :
    Recalled q' ch (segmentOf ch slices) := by
  constructor
  · intro s mem _ _
    rw [acknowledged] at mem
    obtain ⟨t, found, rfl⟩ := List.mem_map.mp mem
    exact segmentOf_name distinct found ch
  · intro s mem unmeasured
    rw [acknowledged] at mem
    obtain ⟨t, found, rfl⟩ := List.mem_map.mp mem
    have measured := get?_durationsOf distinct found
    rw [durations] at unmeasured
    cases unmeasured.symm.trans measured

theorem recordedSlots_of_success {slices : List (Slice α)} (distinct : (slices.map Slice.name).Nodup) :
    recordedSlots (durationsOf slices) (segmentOf ch slices) (slices.map acknowledge) = slices.map (slotOf ch) := by
  unfold recordedSlots
  rw [List.map_map]
  apply List.map_congr_left
  intro s mem
  have duration := recorded_durationsOf distinct mem
  have kept := segmentOf_name distinct mem ch
  unfold slotOf
  rw [← duration, ← kept]
  rfl

theorem Played.step (known : Played q ch segments rise) (durations : q'.durations = q.durations)
    (compiled : q'.compiled = q.compiled) (snapshot : q'.snapshot = q.snapshot)
    (registry : Registry.Extends q.registry q'.registry) (slices : List.Forall₂ Reports q.slices q'.slices) :
    Played q' ch segments rise := by
  have recalled : Recalled q ch segments := ⟨known.same, known.later⟩
  obtain ⟨same, later⟩ := recalled.step durations slices
  refine ⟨same, later, ?_, ?_⟩
  · rw [durations, compiled, recordedSlots_of_reports slices]
    exact known.placed
  · intro carried
    rw [compiled] at carried
    rw [snapshot]
    obtain ⟨trace, mem, name, rise⟩ := known.traced carried
    exact ⟨trace, mem, Registry.findChannel?_of_prefix registry.names name, rise⟩

theorem Coherent.step (coherent : q.Coherent) (durations : q'.durations = q.durations)
    (compiled : q'.compiled = q.compiled) (snapshot : q'.snapshot = q.snapshot)
    (pending : ∀ ch, ch ∉ q'.pendingCompile → ch ∉ q.pendingCompile)
    (registry : Registry.Extends q.registry q'.registry) (slices : List.Forall₂ Reports q.slices q'.slices)
    (below : ∀ s ∈ q'.slices, s.Coherent) : q'.Coherent where
  slices := below
  sliceNames := names_of_reports slices ▸ coherent.sliceNames
  channelNames := registry.distinct coherent.channelNames
  measured := by
    intro name known
    rw [names_of_reports slices]
    rw [durations] at known
    exact coherent.measured name known
  played := by
    intro ch clean
    obtain ⟨segments, rise, known⟩ := coherent.played ch (pending ch clean)
    exact ⟨segments, rise, known.step durations compiled snapshot registry slices⟩

theorem Coherent.of_keeps (coherent : q.Coherent) (kept : Keeps q q') : q'.Coherent := by
  apply coherent.step kept.durations kept.compiled kept.snapshot
  · rw [kept.pendingCompile]
    exact fun _ h => h
  · exact kept.registry
  · rw [kept.slices]
    exact List.forall₂_same.mpr fun s _ => .refl s
  · rw [kept.slices]
    exact coherent.slices

theorem Coherent.addSlice {s : Slice α} (coherent : q.Coherent) (below : s.Coherent) (h : q.addSlice s = .ok q') :
    q'.Coherent := by
  obtain ⟨free, rfl⟩ := addSlice_eq_ok h
  have unmeasured : q.durations.get? s.name = none := by
    cases known : q.durations.get? s.name with
    | none => rfl
    | some duration => exact absurd (coherent.measured s.name (by rw [known]; rfl)) free
  have others : ∀ t ∈ q.slices, t.name ≠ s.name := by
    intro t mem same
    exact free (List.mem_map.mpr ⟨t, mem, same⟩)
  refine ⟨?_, ?_, coherent.channelNames, ?_, ?_⟩
  · intro t mem
    rcases List.mem_append.mp mem with mem | mem
    · exact coherent.slices t mem
    · rw [List.mem_singleton.mp mem]
      exact below
  · rw [List.map_append, List.nodup_append]
    refine ⟨coherent.sliceNames, by simp, ?_⟩
    simpa using others
  · intro name known
    rw [List.map_append, List.mem_append]
    exact .inl (coherent.measured name known)
  · intro ch clean
    obtain ⟨segments, rise, known⟩ := coherent.played ch clean
    -- The new slice has not been measured, so it is empty to a channel that is not compiled anew.
    have recalled : Recalled q ch segments := ⟨known.same, known.later⟩
    obtain ⟨same, later⟩ := recalled.append others unmeasured
    refine ⟨fun name => if name = s.name then none else segments name, rise, same, later, ?_, known.traced⟩
    rw [recordedSlots_append q.durations others, placeTrack_append_silent rfl]
    exact known.placed

theorem exists_trace {spans : List (SliceSpan α)} (distinct : q.registry.channelNames.Nodup) {w : Waveform α}
    (compiled : q.compiled.get? ch = some w) {t : Trigger α} (trigger : q.registry.triggerOf ch = .ok t) :
    ∃ trace ∈ (q.takeSnapshot spans).channels,
      q.registry.findChannel? trace.name = some ch ∧ trace.raiseAt = t.raiseAt := by
  obtain ⟨c, here⟩ := Registry.getElem?_of_triggerOf trigger
  refine ⟨⟨c.name, t.name, t.raiseAt, w⟩, ?_, Registry.findChannel?_of_getElem? distinct here, rfl⟩
  unfold takeSnapshot
  rw [List.mem_filterMap]
  refine ⟨(c, ch.index), ?_, ?_⟩
  · rw [List.mk_mem_zipIdx_iff_getElem?]
    exact here
  · simp only [compiled, trigger]

theorem Played.of_played {slices : List (Slice α)} (distinct : (slices.map Slice.name).Nodup)
    (channelNames : q'.registry.channelNames.Nodup) (durations : q'.durations = durationsOf slices)
    (acknowledged : q'.slices = slices.map acknowledge) {spans : List (SliceSpan α)} {base : Sequence α}
    (snapshot : q'.snapshot = base.takeSnapshot spans) (compiled : base.compiled = q'.compiled)
    (registry : base.registry = q'.registry)
    (placed : placeTrack (rise? q'.registry ch) 0.0 none (slices.map (slotOf ch)) = some (q'.compiled.get? ch)) :
    Played q' ch (segmentOf ch slices) (rise? q'.registry ch) := by
  obtain ⟨same, later⟩ : Recalled q' ch (segmentOf ch slices) := .of_success distinct durations acknowledged
  refine ⟨same, later, ?_, ?_⟩
  · rw [durations, acknowledged, recordedSlots_of_success distinct]
    exact placed
  · intro carried
    obtain ⟨w, compiled'⟩ := Option.isSome_iff_exists.mp carried
    cases rise : rise? q'.registry ch with
    | none =>
      rw [rise, compiled'] at placed
      cases placeTrack_none placed
    | some start =>
      obtain ⟨t, trigger, rfl⟩ := exists_of_rise? rise
      rw [← registry] at trigger channelNames ⊢
      rw [← compiled] at compiled'
      rw [snapshot]
      obtain ⟨trace, mem, name, same⟩ := exists_trace channelNames compiled' trigger
      exact ⟨trace, mem, name, by rw [same]⟩

theorem Coherent.flattenAll (coherent : q.Coherent) (settled : q.Settled) {slices : List (Slice α)}
    (states : List.Forall₂ (fun s s' => s' = s ∨ s' = (s.flatten q.registry).state) q.slices slices) :
    List.Forall₂ Reports q.slices slices ∧ ∀ s ∈ slices, s.Coherent := by
  constructor
  · apply states.imp
    rintro s s' (rfl | rfl)
    · exact .refl s'
    · exact .flatten q.registry s
  · intro s' mem
    obtain ⟨s, found, rfl | rfl⟩ := exists_of_mem_right states mem
    · exact coherent.slices s' found
    · exact (coherent.slices s found).flatten (settled.slices s found)

theorem Coherent.compile (coherent : q.Coherent) (settled : q.Settled) : q.compile.state.Coherent := by
  rcases compile_cases q with ⟨_, slices, _, state, states⟩ | ⟨timeline, ok, state, _, _, _⟩
  · obtain ⟨reports, below⟩ := coherent.flattenAll settled states
    rw [state]
    refine coherent.step rfl rfl rfl ?_ (.refl q.registry) reports below
    intro ch clean waiting
    exact clean (ChannelSet.mem_union.mpr (.inl (ChannelSet.mem_union.mpr (.inl waiting))))
  · have names : (q.slices.map fun s => (s.flatten q.registry).state).map Slice.name = q.slices.map Slice.name :=
      map_name_flatten q.registry q.slices
    have acknowledged : ((q.slices.map fun s => (s.flatten q.registry).state).map acknowledge).map Slice.name
        = q.slices.map Slice.name := (map_name_acknowledge _).trans names
    have distinct := names ▸ coherent.sliceNames
    have placed := played_eq_compiled coherent settled ok
    rw [state] at placed ⊢
    refine ⟨?_, ?_, coherent.channelNames, ?_, ?_⟩
    · intro s' mem
      obtain ⟨t, found, rfl⟩ := List.mem_map.mp mem
      obtain ⟨s, below, rfl⟩ := List.mem_map.mp found
      exact ((coherent.slices s below).flatten (settled.slices s below)).acknowledge
    · exact acknowledged ▸ coherent.sliceNames
    · intro name known
      by_contra missing
      have unknown : name ∉ (q.slices.map fun s => (s.flatten q.registry).state).map Slice.name := by
        rw [names, ← acknowledged]
        exact missing
      have nothing := get?_durationsOf_eq_none unknown
      simp only [commit, nothing] at known
      cases known
    · intro ch _
      refine ⟨_, _, Played.of_played distinct coherent.channelNames rfl rfl rfl rfl rfl ?_⟩
      have track := placed ch
      rw [List.map_map]
      exact track

theorem Coherent.workIn {ρ : Type} {work : Slice α → Outcome α (Slice α) ρ} {top : String} {rest : List String}
    (coherent : q.Coherent)
    (target : ∀ s, find? q.slices top = some s → ∀ t, follow rest s = .ok t → t.Coherent →
      (work t).state.Coherent ∧ Reports t (work t).state) : (q.workIn top rest work).state.Coherent := by
  unfold Sequence.workIn slice
  cases found : find? q.slices top with
  | none => exact coherent
  | some s =>
    have mem := mem_of_find? found
    obtain ⟨below, reports⟩ := (coherent.slices s mem).workAt (target s found)
    refine coherent.step rfl rfl rfl (fun _ h => h) (.refl q.registry)
      (reports_replace coherent.sliceNames mem reports) ?_
    intro t member
    rcases mem_replace member with rfl | member
    · exact below
    · exact coherent.slices t member

end Steps

end PulseSequencer.Sequence
