import PulseSequencer.Proofs.Sequence.Timeline
import PulseSequencer.Proofs.Sequence.Publication
import PulseSequencer.Proofs.Slice.Stock

/-!
This module contains how far the segments of a compiled waveform can be from where they belong by now, as exact numbers have
it. A change within the tolerance does not compile a channel anew, but it is recorded with every success, so such changes
add up for as long as the channel is left alone.
-/

namespace PulseSequencer.Sequence

variable {K : Type} [Field K] [LinearOrder K] [FloorRing K] [Elementary K]

open Scalar Slice

def Near (bound rise : K) (pieces : List (Piece K)) (segments : List (K × Waveform K)) : Prop :=
  List.Forall₂ (fun p segment => p.waveform = segment.2 ∧ |p.offset - (segment.1 - rise)| ≤ bound) pieces segments

structure OnTime (q : Sequence K) (ch : ChannelId) (bound : K) : Prop where
  carried : ∀ s ∈ q.slices, (s.flattened.get? ch).isSome ↔ ch ∈ s.channels
  placed : (∃ s ∈ q.slices, ch ∈ s.channels) → ∃ t w built pieces, q.registry.triggerOf ch = .ok t
    ∧ q.compiled? ch = some w ∧ Laid built pieces w ∧ Near bound t.raiseAt pieces (segmentsOn ch q.slices)

def age (ch : ChannelId) (log : List (Sequence K)) : Nat :=
  (log.reverse.takeWhile fun p => ch ∉ p.recompilationSet).length

/--
How far a segment can be from where it belongs, given how many slices there are and how many successes have left it alone.
-/
def drift (slices successes : Nat) : K := (1 + (slices : K) * successes) * tolerance

/--
The actions that leave all slices in place, and that bring along no waveform that ends before it starts. A slice that is
brought along was built by commands, and no one but its owner takes notice of its changes.
-/
def Additive : Action K → Prop
  | .exchange _ | .command (.dropSlice _) => False
  | .command (.addSlice s) => Slice.Reached (fun _ => True) s ∧ s.Level
  | .command (.atSlice _ _ command) =>
    command.Level ∧ ∀ child, command = .nest child → Slice.Reached (fun _ => True) child
  | _ => True

theorem age_concat (ch : ChannelId) (log : List (Sequence K)) (q : Sequence K) :
    age ch (log ++ [q]) = if ch ∈ q.recompilationSet then 0 else age ch log + 1 := by
  unfold age
  rw [List.reverse_concat, List.takeWhile_cons]
  by_cases mem : ch ∈ q.recompilationSet
  · simp [mem]
  · simp [mem]

theorem drift_zero (slices : Nat) : drift slices 0 = (tolerance : K) := by
  unfold drift
  rw [Nat.cast_zero, mul_zero, add_zero, one_mul]

theorem drift_succ (slices successes : Nat) :
    drift slices successes + ((slices : K) - 1) * tolerance + tolerance = drift slices (successes + 1) := by
  unfold drift
  rw [Nat.cast_add_one]
  ring

theorem drift_mono [IsStrictOrderedRing K] {slices slices' : Nat} (le : slices ≤ slices') (successes : Nat) :
    (drift slices successes : K) ≤ drift slices' successes := by
  have small : (0 : K) < tolerance := tolerance_pos
  have more : (slices : K) * successes ≤ slices' * successes :=
    mul_le_mul_of_nonneg_right (by exact_mod_cast le) (by positivity)
  exact mul_le_mul_of_nonneg_right (by linarith) small.le

section Near

variable {bound rise : K} {pieces : List (Piece K)} {segments : List (K × Waveform K)}

def Shifted (bound : K) (segments segments' : List (K × Waveform K)) : Prop :=
  List.Forall₂ (fun segment segment' => segment'.2 = segment.2 ∧ |segment'.1 - segment.1| ≤ bound) segments segments'

structure Plotted (track : Option (Waveform K)) (bound rise : K) (pieces : List (Piece K))
    (segments : List (K × Waveform K)) : Prop where
  near : Near bound rise pieces segments
  laid : ∀ w, track = some w → ∃ built, Laid built pieces w
  blank : track = none → pieces = []

theorem segmentsFrom_append_silent {cursor : K} {slots : List (Slot K)} {slot : Slot K} (silent : slot.segment = none) :
    segmentsFrom cursor (slots ++ [slot]) = segmentsFrom cursor slots := by
  induction slots generalizing cursor with
  | nil => simp [segmentsFrom, silent]
  | cons first rest ih => rw [List.cons_append, segmentsFrom, ih, segmentsFrom]

theorem near_of_laid {w : Waveform K} (laid : Laid rise pieces w)
    (segments_eq : pieces.map (fun p => (p.start, p.waveform)) = segments) : Near tolerance rise pieces segments := by
  unfold Near
  rw [← segments_eq, List.forall₂_map_right_iff, List.forall₂_same]
  intro p mem
  exact ⟨rfl, laid.near p mem⟩

theorem Near.mono {bound' : K} (near : Near bound rise pieces segments) (le : bound ≤ bound') :
    Near bound' rise pieces segments :=
  near.imp fun _ _ placed => ⟨placed.1, placed.2.trans le⟩

variable [IsStrictOrderedRing K]

theorem Near.shift {bound' shift move rise' : K} {segments' : List (K × Waveform K)} (near : Near bound rise pieces segments)
    (shifted : Shifted shift segments segments') (moved : |rise' - rise| ≤ move) (room : bound + shift + move ≤ bound') :
    Near bound' rise' pieces segments' := by
  induction near generalizing segments' with
  | nil =>
    cases shifted
    exact .nil
  | @cons p segment pieces segments placed _ ih =>
    obtain _ | @⟨_, segment', _, rest, step, shifted⟩ := shifted
    refine .cons ⟨placed.1.trans step.1.symm, ?_⟩ (ih shifted)
    calc |p.offset - (segment'.1 - rise')|
      _ = |(p.offset - (segment.1 - rise)) + -(segment'.1 - segment.1) + (rise' - rise)| := by
        congr 1
        ring
      _ ≤ |p.offset - (segment.1 - rise)| + |-(segment'.1 - segment.1)| + |rise' - rise| := abs_add_three _ _ _
      _ ≤ bound + shift + move := by
        rw [abs_neg]
        exact add_le_add (add_le_add placed.2 step.2) moved
      _ ≤ bound' := room

theorem plotted_of_placeTrack {rise? : Option K} {slots : List (Slot K)} {track : Option (Waveform K)}
    (level : ∀ slot ∈ slots, ∀ w, slot.segment = some w → w.Level)
    (h : placeTrack rise? 0 none slots = some track) :
    ∃ rise pieces, Plotted track tolerance rise pieces (segmentsFrom 0 slots) ∧ (track.isSome → rise? = some rise) := by
  obtain ⟨some_iff, places⟩ := laid_of_placeTrack level h
  cases track with
  | none =>
    have nothing : segmentsFrom 0 slots = [] := by
      by_contra some
      cases some_iff.mpr some
    rw [nothing]
    refine ⟨0, [], ⟨.nil, ?_, fun _ => rfl⟩, ?_⟩
    · intro w here
      cases here
    · intro here
      cases here
  | some w =>
    obtain ⟨rise, pieces, rises, segments, laid⟩ := places w rfl
    refine ⟨rise, pieces, ⟨near_of_laid laid segments, ?_, ?_⟩, fun _ => rises⟩
    · intro w' here
      cases here
      exact ⟨rise, laid⟩
    · intro here
      cases here

end Near

section Untouched

variable [IsStrictOrderedRing K] {registry : Registry K} {durations : Table String K}
  {segments : String → Option (Waveform K)} {slices : List (Slice K)} {ch : ChannelId}

theorem duration_near_of_not_remeasured {s : Slice K} (measured : remeasured durations s = false) :
    |s.duration - recorded durations s.name| ≤ tolerance := by
  unfold remeasured at measured
  unfold recorded
  cases known : durations.get? s.name with
  | none => simp [known] at measured
  | some duration =>
    simp only [known] at measured
    rw [abs_sub_comm]
    exact apart_eq_false_iff.mp measured

theorem start_near {own : Option K} {cursor cursor' bound : K} (nonneg : 0 ≤ bound)
    (near : own = none → |cursor' - cursor| ≤ bound) : |own.getD cursor' - own.getD cursor| ≤ bound := by
  cases own with
  | none => exact near rfl
  | some start =>
    rw [Option.getD_some, Option.getD_some, sub_self, abs_zero]
    exact nonneg

theorem next_near {s : Slice K} {segment : Option (Waveform K)} {cursor cursor' bound : K}
    (before : |cursor' - cursor| ≤ bound) (still : s.start? = none → remeasured durations s = false) :
    |Slot.next cursor' ⟨s.start?, s.duration, segment⟩ - Slot.next cursor ⟨s.start?, recorded durations s.name, segment⟩|
      ≤ bound + tolerance := by
  have small : (0 : K) < tolerance := tolerance_pos
  unfold Slot.next
  cases start : s.start? with
  | some own => exact before.trans (by linarith)
  | none =>
    have resized := duration_near_of_not_remeasured (still start)
    dsimp only
    calc |cursor' + s.duration - (cursor + recorded durations s.name)|
      _ = |(cursor' - cursor) + (s.duration - recorded durations s.name)| := by
        congr 1
        ring
      _ ≤ |cursor' - cursor| + |s.duration - recorded durations s.name| := abs_add_le _ _
      _ ≤ bound + tolerance := add_le_add before resized

theorem shifted_of_untouched (stocked : ∀ s ∈ slices, s.Stocked)
    (same : ∀ s ∈ slices, (durations.get? s.name).isSome → ch ∉ s.memo.unconsumed →
      segments s.name = s.memo.flattened.get? ch)
    (later : ∀ s ∈ slices, durations.get? s.name = none → segments s.name = none)
    {shifted : Bool} (untouched : ch ∉ touched durations shifted slices) {cursor cursor' : K} {count n : Nat}
    (cursors : shifted = false → |cursor' - cursor| ≤ count * tolerance) (room : count + slices.length ≤ n) :
    Shifted (((n : K) - 1) * tolerance) (segmentsFrom cursor (recordedSlots durations segments slices))
      (segmentsFrom cursor' (slices.map fun s => slotOf ch (s.flatten registry).state)) := by
  have small : (0 : K) < tolerance := tolerance_pos
  induction slices generalizing shifted cursor cursor' count with
  | nil => exact .nil
  | cons s rest ih =>
    rw [List.forall_mem_cons] at stocked same later
    rw [mem_touched_cons, not_or, not_or] at untouched
    obtain ⟨unchanged, all, untouched⟩ := untouched
    rw [List.length_cons] at room
    have current : ch ∉ s.updated := fun updated => unchanged (mem_changed.mpr (.inl updated))
    have unmeasured : durations.get? s.name = none → ch ∉ s.channels := by
      intro unknown carried
      apply all
      simp [remeasured, unknown, carried]
    have segment := segment_of_unchanged registry unchanged (stocked.1.get?_eq_none current) unmeasured same.1 later.1
    have first : slotOf ch (s.flatten registry).state = ⟨s.start?, s.duration, segments s.name⟩ := by
      simp only [slotOf, start?_flatten, duration_flatten, segment]
    have recorded_cons : recordedSlots durations segments (s :: rest)
        = ⟨s.start?, recorded durations s.name, segments s.name⟩ :: recordedSlots durations segments rest := rfl
    rw [List.map_cons, first, recorded_cons, segmentsFrom, segmentsFrom]
    apply List.rel_append
    · -- A segment is there only if its slice is carried, and then nothing before it can have been resized.
      cases here : segments s.name with
      | none => exact .nil
      | some w =>
        have carried : ch ∈ s.channels := by
          apply (stocked.1.isSome_iff current).mp
          rw [← flattened_flatten registry current, segment, here]
          rfl
        have steps : (count : K) * tolerance ≤ ((n : K) - 1) * tolerance := by
          have fits : (count : K) + 1 ≤ n := by exact_mod_cast (by omega : count + 1 ≤ n)
          exact mul_le_mul_of_nonneg_right (by linarith) small.le
        refine .cons ⟨rfl, ?_⟩ .nil
        refine (start_near (by positivity) fun (start : s.start? = none) => cursors ?_).trans steps
        by_contra moved
        rw [Bool.not_eq_false] at moved
        exact all ⟨by simp [moved, start], carried⟩
    · have nexts (still : (shifted || (s.start?.isNone && remeasured durations s)) = false) :
          |Slot.next cursor' ⟨s.start?, s.duration, segments s.name⟩
            - Slot.next cursor ⟨s.start?, recorded durations s.name, segments s.name⟩| ≤ (count + 1 : Nat) * tolerance := by
        rw [Bool.or_eq_false_iff] at still
        rw [Nat.cast_add_one, add_mul, one_mul]
        apply next_near (cursors still.1)
        intro start
        simpa [start] using still.2
      exact ih stocked.2 same.2 later.2 untouched nexts (by omega)

end Untouched

/--
What is known of a channel that is not waiting to be compiled: the segments that were placed on it, which slices still have
unless they report a change, where they begin on its track, and when its trigger rose at the last success.
-/
structure Followed (q : Sequence K) (ch : ChannelId) (bound : K) (segments : String → Option (Waveform K)) (rise : K)
    (pieces : List (Piece K)) : Prop where
  recalled : Recalled q ch segments
  plotted : Plotted (q.compiled.get? ch) bound rise pieces (segmentsFrom 0 (recordedSlots q.durations segments q.slices))
  traced : (q.compiled.get? ch).isSome → ∃ trace ∈ q.snapshot.channels,
    q.registry.findChannel? trace.name = some ch ∧ trace.raiseAt = rise

structure Tracked (q : Sequence K) (log : List (Sequence K)) : Prop where
  distinct : q.Distinct
  stocked : ∀ s ∈ q.slices, s.Stocked
  level : q.Level
  measured : ∀ name, (q.durations.get? name).isSome → name ∈ q.slices.map Slice.name
  followed : ∀ ch, ch ∉ q.pendingCompile → ∃ segments rise pieces,
    Followed q ch (drift q.slices.length (age ch log)) segments rise pieces

section Steps

variable {q q' : Sequence K} {ch : ChannelId} {log : List (Sequence K)}

theorem Followed.step {bound rise : K} {segments : String → Option (Waveform K)} {pieces : List (Piece K)}
    (followed : Followed q ch bound segments rise pieces)
    (durations : q'.durations = q.durations) (compiled : q'.compiled = q.compiled) (snapshot : q'.snapshot = q.snapshot)
    (registry : Registry.Extends q.registry q'.registry) (slices : List.Forall₂ Reports q.slices q'.slices) :
    Followed q' ch bound segments rise pieces where
  recalled := followed.recalled.step durations slices
  plotted := by
    rw [compiled, durations, recordedSlots_of_reports slices]
    exact followed.plotted
  traced := by
    intro carried
    rw [compiled] at carried
    rw [snapshot]
    obtain ⟨trace, mem, name, rise⟩ := followed.traced carried
    exact ⟨trace, mem, Registry.findChannel?_of_prefix registry.names name, rise⟩

theorem Tracked.step (tracked : Tracked q log) (distinct : q'.Distinct) (stocked : ∀ s ∈ q'.slices, s.Stocked)
    (level : q'.Level) (durations : q'.durations = q.durations) (compiled : q'.compiled = q.compiled)
    (snapshot : q'.snapshot = q.snapshot) (pending : ∀ ch, ch ∉ q'.pendingCompile → ch ∉ q.pendingCompile)
    (registry : Registry.Extends q.registry q'.registry) (slices : List.Forall₂ Reports q.slices q'.slices) :
    Tracked q' log where
  distinct := distinct
  stocked := stocked
  level := level
  measured := by
    intro name known
    rw [names_of_reports slices]
    rw [durations] at known
    exact tracked.measured name known
  followed := by
    intro ch clean
    obtain ⟨segments, rise, pieces, followed⟩ := tracked.followed ch (pending ch clean)
    rw [← slices.length_eq]
    exact ⟨segments, rise, pieces, followed.step durations compiled snapshot registry slices⟩

theorem Tracked.of_keeps (tracked : Tracked q log) (kept : Keeps q q') : Tracked q' log := by
  apply tracked.step _ _ _ kept.durations kept.compiled kept.snapshot _ kept.registry
  · rw [kept.slices]
    exact List.forall₂_same.mpr fun s _ => .refl s
  · apply tracked.distinct.congr _ kept.registry
    rw [kept.slices]
  · rw [kept.slices]
    exact tracked.stocked
  · unfold Level
    rw [kept.slices]
    exact tracked.level
  · rw [kept.pendingCompile]
    exact fun _ clean => clean

theorem exists_of_mem_slices_compile {todo : ChannelSet} (ok : q.compile.result = .ok todo) {s' : Slice K}
    (mem : s' ∈ q.compile.state.slices) : ∃ s ∈ q.slices, s' = (s.flatten q.registry).state.acknowledge := by
  obtain ⟨_, timeline, state, _⟩ := compile_of_ok ok
  rw [state] at mem
  obtain ⟨t, found, rfl⟩ := List.mem_map.mp mem
  obtain ⟨s, below, rfl⟩ := List.mem_map.mp found
  exact ⟨s, below, rfl⟩

theorem segmentsOn_compile (ok : q.compile.result.isOk = true) (ch : ChannelId) :
    segmentsOn ch q.compile.state.slices
      = segmentsFrom 0 (q.slices.map fun s => slotOf ch (s.flatten q.registry).state) := by
  obtain ⟨todo, ok⟩ := exists_ok_of_isOk ok
  obtain ⟨_, timeline, state, _⟩ := compile_of_ok ok
  rw [segmentsOn_eq, state]
  congr 1
  simp only [commit, List.map_map]
  apply List.map_congr_left
  intro s _
  exact slotOf_acknowledge ch _

theorem tracked_create (driver : Driver) (cycleFrequency : K) : Tracked (create driver cycleFrequency) [] where
  distinct := distinct_create driver cycleFrequency
  stocked := nofun
  level := nofun
  measured := by
    intro name known
    cases known
  followed := fun _ _ => ⟨fun _ => none, 0, [], ⟨nofun, nofun⟩, ⟨.nil, nofun, fun _ => rfl⟩, nofun⟩

theorem exists_trace_commit {todo : ChannelSet} {slices : List (Slice K)} {timeline : Timeline K} {w : Waveform K}
    {t : Trigger K} (distinct : q.registry.channelNames.Nodup)
    (compiled : (q.commit todo slices timeline).compiled.get? ch = some w) (trigger : q.registry.triggerOf ch = .ok t) :
    ∃ trace ∈ (q.commit todo slices timeline).snapshot.channels,
      q.registry.findChannel? trace.name = some ch ∧ trace.raiseAt = t.raiseAt :=
  exists_trace (q := { q with compiled := (q.commit todo slices timeline).compiled }) distinct compiled trigger

variable [IsStrictOrderedRing K]

theorem Tracked.workIn {top : String} {rest : List String} {command : Slice.Command K} (tracked : Tracked q log)
    (level : command.Level) (below : ∀ child, command = .nest child → Slice.Reached (fun _ => True) child) :
    Tracked (q.perform (.atSlice top rest command)) log := by
  have distinct : (q.perform (.atSlice top rest command)).Distinct := tracked.distinct.workIn fun t distinct =>
    distinct.perform fun child nested => (stocked_of_reached (below child nested)).1
  have leveled : (q.perform (.atSlice top rest command)).Level := tracked.level.perform level
  revert distinct leveled
  simp only [perform, Sequence.workIn, slice]
  cases found : find? q.slices top with
  | none => exact fun _ _ => tracked
  | some s =>
    intro distinct leveled
    have mem := mem_of_find? found
    have stocked : (Slice.workAt (command.perform ·) rest s).state.Stocked :=
      ((tracked.stocked s mem).workAt (tracked.distinct.slices s mem) fun t stocked =>
        stocked.perform fun child nested => (stocked_of_reached (below child nested)).2).1
    refine tracked.step distinct ?_ leveled rfl rfl rfl (fun _ clean => clean) (.refl q.registry)
      (reports_replace tracked.distinct.sliceNames mem (reports_workAt rest s command))
    intro t member
    rcases mem_replace member with rfl | member
    · exact stocked
    · exact tracked.stocked t member

theorem Tracked.addSlice {s : Slice K} (tracked : Tracked q log) (reached : Slice.Reached (fun _ => True) s)
    (level : s.Level) (h : q.addSlice s = .ok q') : Tracked q' log := by
  obtain ⟨distinctBelow, stocked⟩ := stocked_of_reached reached
  have distinct := tracked.distinct.addSlice distinctBelow h
  obtain ⟨free, rfl⟩ := addSlice_eq_ok h
  have others : ∀ t ∈ q.slices, t.name ≠ s.name := by
    intro t mem same
    exact free (List.mem_map.mpr ⟨t, mem, same⟩)
  have unmeasured : q.durations.get? s.name = none := by
    cases known : q.durations.get? s.name with
    | none => rfl
    | some duration => exact absurd (tracked.measured s.name (by rw [known]; rfl)) free
  refine ⟨distinct, ?_, ?_, ?_, ?_⟩
  · exact List.forall_mem_append.mpr ⟨tracked.stocked, by simpa using stocked⟩
  · exact List.forall_mem_append.mpr ⟨tracked.level, by simpa using level⟩
  · intro name known
    rw [List.map_append, List.mem_append]
    exact .inl (tracked.measured name known)
  · intro ch clean
    obtain ⟨segments, rise, pieces, followed⟩ := tracked.followed ch clean
    refine ⟨fun name => if name = s.name then none else segments name, rise, pieces,
      followed.recalled.append others unmeasured, ⟨?_, followed.plotted.laid, followed.plotted.blank⟩, followed.traced⟩
    rw [recordedSlots_append q.durations others, segmentsFrom_append_silent rfl]
    apply followed.plotted.near.mono
    apply drift_mono
    rw [List.length_append]
    exact Nat.le_add_right ..

theorem Followed.plotted_of_not_mem {bound rise : K} {segments : String → Option (Waveform K)} {pieces : List (Piece K)}
    (followed : Followed q ch bound segments rise pieces) (stocked : ∀ s ∈ q.slices, s.Stocked)
    (untouched : ch ∉ q.recompilationSet) :
    ∃ rise', Plotted (q.compiled.get? ch) (bound + ((q.slices.length : K) - 1) * tolerance + tolerance) rise' pieces
        (segmentsFrom 0 (q.slices.map fun s => slotOf ch (s.flatten q.registry).state))
      ∧ ((q.compiled.get? ch).isSome → rise? q.registry ch = some rise') := by
  have small : (0 : K) < tolerance := tolerance_pos
  unfold recompilationSet at untouched
  rw [ChannelSet.mem_union, ChannelSet.mem_union, not_or, not_or] at untouched
  obtain ⟨⟨_, unmoved⟩, untouched⟩ := untouched
  have start (_ : false = false) : |(0 : K) - 0| ≤ (0 : Nat) * tolerance := by simp
  have shifted : Shifted (((q.slices.length : K) - 1) * tolerance)
      (segmentsFrom 0 (recordedSlots q.durations segments q.slices))
      (segmentsFrom 0 (q.slices.map fun s => slotOf ch (s.flatten q.registry).state)) :=
    shifted_of_untouched stocked followed.recalled.same followed.recalled.later untouched start (by omega)
  obtain ⟨near, laid, blank⟩ := followed.plotted
  obtain ⟨rise', moved, rises⟩ : ∃ rise', |rise' - rise| ≤ tolerance
      ∧ ((q.compiled.get? ch).isSome → rise? q.registry ch = some rise') := by
    cases carried : (q.compiled.get? ch).isSome with
    | false => exact ⟨rise, by simpa using small.le, by simp⟩
    | true =>
      obtain ⟨trace, mem, name, rfl⟩ := followed.traced carried
      obtain ⟨t, trigger, close⟩ := rise_of_not_moved mem name unmoved
      exact ⟨t.raiseAt, apart_eq_false_iff.mp close, fun _ => rise?_of_triggerOf trigger⟩
  exact ⟨rise', ⟨near.shift shifted moved (le_refl _), laid, blank⟩, rises⟩

theorem Tracked.delivers (tracked : Tracked q log) {todo : ChannelSet} (ok : q.compile.result = .ok todo)
    (ch : ChannelId) :
    ∃ rise pieces, Plotted (q.compile.state.compiled.get? ch) (drift q.slices.length (age ch (log ++ [q]))) rise pieces
        (segmentsFrom 0 (q.slices.map fun s => slotOf ch (s.flatten q.registry).state))
      ∧ ((q.compile.state.compiled.get? ch).isSome → rise? q.registry ch = some rise) := by
  have compiled := compiled_compile ok ch
  rw [age_concat]
  split at compiled
  · rename_i mem
    rw [if_pos mem, drift_zero]
    unfold played at compiled
    rw [zero_exact] at compiled
    apply plotted_of_placeTrack _ compiled
    intro slot found w segment
    obtain ⟨s, here, rfl⟩ := List.mem_map.mp found
    exact ((tracked.level s here).flatten q.registry).here.flattened ch w segment
  · rename_i untouched
    have clean : ch ∉ q.pendingCompile := by
      intro waiting
      apply untouched
      exact ChannelSet.mem_union.mpr (.inl (ChannelSet.mem_union.mpr (.inl waiting)))
    obtain ⟨segments, rise, pieces, followed⟩ := tracked.followed ch clean
    obtain ⟨rise', plotted, rises⟩ := followed.plotted_of_not_mem tracked.stocked untouched
    rw [drift_succ] at plotted
    rw [if_neg untouched, compiled]
    exact ⟨rise', pieces, plotted, rises⟩

theorem Tracked.intact_compile (tracked : Tracked q log) : q.compile.state.Level ∧ q.compile.state.Distinct := by
  have brought : BringsLevel .compile q := trivial
  have supplied : (Command.compile : Command K).Supplied := trivial
  exact ⟨tracked.level.perform brought, tracked.distinct.perform supplied⟩

theorem Tracked.compile_ok (tracked : Tracked q log) {todo : ChannelSet} (ok : q.compile.result = .ok todo) :
    Tracked q.compile.state (log ++ [q]) := by
  obtain ⟨level, distinct⟩ := tracked.intact_compile
  have delivered := tracked.delivers ok
  have stocked : ∀ s' ∈ q.compile.state.slices, s'.Stocked := by
    intro s' mem
    obtain ⟨s, below, rfl⟩ := exists_of_mem_slices_compile ok mem
    exact ((tracked.stocked s below).flatten q.registry).acknowledge
  have distinctFlat := map_name_flatten q.registry q.slices ▸ tracked.distinct.sliceNames
  obtain ⟨_, timeline, state, _⟩ := compile_of_ok ok
  rw [state] at level distinct delivered stocked ⊢
  refine ⟨distinct, stocked, level, ?_, ?_⟩
  · intro name known
    by_contra missing
    have unknown : name ∉ (q.slices.map fun s => (s.flatten q.registry).state).map Slice.name := by
      rw [← map_name_acknowledge]
      exact missing
    have nothing := get?_durationsOf_eq_none unknown
    simp only [commit, nothing] at known
    cases known
  · intro ch _
    obtain ⟨rise, pieces, plotted, rises⟩ := delivered ch
    have length : (q.commit q.recompilationSet (q.slices.map fun s => (s.flatten q.registry).state) timeline).slices.length
        = q.slices.length := by
      simp [commit]
    rw [length]
    refine ⟨_, rise, pieces, .of_success distinctFlat rfl rfl, ?_, ?_⟩
    · simp only [commit] at plotted ⊢
      rw [recordedSlots_of_success distinctFlat, List.map_map]
      exact plotted
    · intro carried
      obtain ⟨w, compiled⟩ := Option.isSome_iff_exists.mp carried
      obtain ⟨t, trigger, rfl⟩ := exists_of_rise? (rises carried)
      exact exists_trace_commit tracked.distinct.channelNames compiled trigger

theorem Tracked.compile_error (tracked : Tracked q log) {cause : Error K} (failed : q.compile.result = .error cause) :
    Tracked q.compile.state log := by
  obtain ⟨level, distinct⟩ := tracked.intact_compile
  rcases compile_cases q with ⟨_, slices, _, state, states⟩ | ⟨_, ok, _⟩
  · rw [state] at level distinct ⊢
    refine tracked.step distinct ?_ level rfl rfl rfl ?_ (.refl q.registry) ?_
    · intro s' mem
      obtain ⟨s, found, rfl | rfl⟩ := exists_of_mem_right states mem
      · exact tracked.stocked s' found
      · exact (tracked.stocked s found).flatten q.registry
    · intro ch clean waiting
      exact clean (ChannelSet.mem_union.mpr (.inl (ChannelSet.mem_union.mpr (.inl waiting))))
    · apply states.imp
      rintro s s' (rfl | rfl)
      · exact .refl s'
      · exact .flatten q.registry s
  · rw [ok] at failed
    cases failed

theorem Tracked.act (tracked : Tracked q log) {action : Action K} (additive : Additive action) :
    Tracked (q.act action) (log ++ if q.publishes action then [q] else []) := by
  cases action with
  | exchange slices => exact absurd additive id
  | command command =>
    cases publishes : q.publishes (.command command) with
    | true =>
      obtain ⟨same, isOk⟩ := eq_compile_of_publishes publishes
      cases same
      obtain ⟨todo, ok⟩ := exists_ok_of_isOk isOk
      exact tracked.compile_ok ok
    | false =>
      rw [if_neg (by simp), List.append_nil]
      rcases perform_cases q command with
        kept | ⟨s, rfl, added⟩ | ⟨name, rfl⟩ | ⟨top, rest, command, rfl⟩ | rfl
      · exact tracked.of_keeps kept
      · exact tracked.addSlice additive.1 additive.2 added
      · exact absurd additive id
      · exact tracked.workIn additive.1 additive.2
      · obtain ⟨cause, failed⟩ := exists_error_of_not_isOk publishes
        exact tracked.compile_error failed

theorem tracked_of_actions (driver : Driver) (cycleFrequency : K) {actions : List (Action K)}
    (additive : ∀ action ∈ actions, Additive action) :
    Tracked ((create driver cycleFrequency).afterActions actions)
      ((create driver cycleFrequency).compilations actions) := by
  induction actions using List.reverseRecOn with
  | nil => exact tracked_create driver cycleFrequency
  | append_singleton actions action ih =>
    rw [List.forall_mem_append] at additive
    rw [afterActions_concat, compilations_concat]
    exact (ih additive.1).act (additive.2 action (List.mem_singleton_self action))

theorem Tracked.onTime (tracked : Tracked q log) {todo : ChannelSet} (ok : q.compile.result = .ok todo) (ch : ChannelId) :
    OnTime q.compile.state ch (drift q.slices.length (age ch (log ++ [q]))) := by
  obtain ⟨_, timeline, _, flat, _⟩ := compile_of_ok ok
  have carried : ∀ s ∈ q.compile.state.slices, (s.flattened.get? ch).isSome ↔ ch ∈ s.channels := by
    intro s' mem
    obtain ⟨s, below, rfl⟩ := exists_of_mem_slices_compile ok mem
    have channels : (s.flatten q.registry).state.acknowledge.channels = s.channels :=
      channels_eq_of_renew_eq ((renew_acknowledge _).trans (renew_flatten q.registry s))
    rw [channels]
    exact isSome_flatten (tracked.stocked s below) (flat s below) ch
  refine ⟨carried, ?_⟩
  rintro ⟨s, mem, here⟩
  have plays : segmentsOn ch q.compile.state.slices ≠ [] := by
    rw [segmentsOn_eq, ne_eq, segmentsFrom_eq_nil_iff]
    intro silent
    have segment : s.flattened.get? ch = none := silent _ (List.mem_map_of_mem mem)
    have some := (carried s mem).mpr here
    rw [segment] at some
    cases some
  obtain ⟨rise, pieces, ⟨near, laid, blank⟩, rises⟩ := tracked.delivers ok ch
  rw [← segmentsOn_compile (by rw [ok]; rfl)] at near
  cases compiled : q.compile.state.compiled.get? ch with
  | none =>
    rw [blank compiled] at near
    exact absurd (List.forall₂_nil_left_iff.mp near) plays
  | some w =>
    obtain ⟨t, trigger, rfl⟩ := exists_of_rise? (rises (by rw [compiled]; rfl))
    obtain ⟨built, laid⟩ := laid w compiled
    rw [← registry_compile] at trigger
    exact ⟨t, w, built, pieces, trigger, compiled, laid, near⟩

/--
What a compilation that succeeds leaves on a channel, however the sequence came about: every slice that carries the channel
plays on it, within the tolerance of where it belongs if the channel was compiled just now. Each success that leaves the
channel alone can add one tolerance for each slice.
-/
theorem compile_onTime (driver : Driver) (cycleFrequency : K) {actions : List (Action K)}
    (additive : ∀ action ∈ actions, Additive action) {q : Sequence K}
    (run : q = (create driver cycleFrequency).afterActions actions) {todo : ChannelSet}
    (ok : q.compile.result = .ok todo) (ch : ChannelId) :
    OnTime q.compile.state ch (drift q.slices.length
      (age ch ((create driver cycleFrequency).compilations (actions ++ [.command .compile])))) := by
  have publishes : q.publishes (.command .compile) = true := by
    unfold publishes
    rw [ok]
    rfl
  rw [compilations_concat, ← run, publishes, if_pos rfl]
  exact (run ▸ tracked_of_actions driver cycleFrequency additive).onTime ok ch

end Steps

section Example

def creeping : List (Action ℚ) :=
  [.command (.addTrigger "strobe" 0 0 1), .command (.linkChannel ⟨0⟩ "front" (.memory 4 1)),
    .command (.linkChannel ⟨0⟩ "back" (.memory 4 1)), .command (.addSlice (.flex "growing")),
    .command (.addSlice (.flex "behind")),
    .command (.atSlice "behind" [] (.edit ⟨1⟩ (.addWaveform (.dc (1 / 4) 1 0))))]
  ++ (List.replicate 5 [.command .compile,
    .command (.atSlice "growing" [] (.edit ⟨0⟩ (.addWaveform (.dc (9 / 10 ^ 16) 1 0))))]).flatten

theorem additive_creeping : ∀ action ∈ creeping, Additive action := by
  have quarter : (Waveform.dc (1 / 4 : ℚ) 1 0).Level := Waveform.level_dc _ _ (by norm_num)
  have sliver : (Waveform.dc (9 / 10 ^ 16 : ℚ) 1 0).Level := Waveform.level_dc _ _ (by norm_num)
  rw [creeping, List.forall_mem_append]
  constructor
  · simp only [List.forall_mem_cons]
    exact ⟨trivial, trivial, trivial, ⟨.ofKind "growing" .flex, level_ofKind "growing" .flex⟩,
      ⟨.ofKind "behind" .flex, level_ofKind "behind" .flex⟩, ⟨quarter, nofun⟩, nofun⟩
  · intro action mem
    obtain ⟨round, repeated, mem⟩ := List.mem_flatten.mp mem
    rw [List.eq_of_mem_replicate repeated] at mem
    rcases List.mem_cons.mp mem with rfl | mem
    · trivial
    · rw [List.mem_singleton.mp mem]
      exact ⟨sliver, nofun⟩

def crept : Sequence ℚ := (create .memory 1).afterActions creeping

theorem compile_crept_onTime :
    crept.compile.result = .ok crept.recompilationSet
      ∧ ∀ ch, OnTime crept.compile.state ch (drift crept.slices.length
        (age ch ((create .memory 1).compilations (creeping ++ [.command .compile])))) := by
  have ok : crept.compile.result = .ok crept.recompilationSet := by
    have succeeds : crept.compile.result.isOk = true := by decide +kernel
    obtain ⟨todo, ok⟩ := exists_ok_of_isOk succeeds
    rw [ok, (compile_of_ok ok).1]
  exact ⟨ok, compile_onTime .memory 1 additive_creeping rfl ok⟩

/--
It is not true that the slices before a segment and two more tolerances bound how far it is from where it belongs.
-/
theorem not_onTime_within :
    ¬ ∀ actions : List (Action ℚ), (∀ action ∈ actions, Additive action) →
      ∀ q, q = (create .memory 1).afterActions actions → q.compile.result.isOk = true →
        ∀ ch, OnTime q.compile.state ch ((q.compile.state.slices.length + 2) * tolerance) := by
  intro every
  have late := every creeping additive_creeping crept rfl (by decide +kernel) ⟨1⟩
  have carries : ∃ s ∈ crept.compile.state.slices, (⟨1⟩ : ChannelId) ∈ s.channels := by decide +kernel
  obtain ⟨t, w, built, pieces, trigger, compiled, laid, near⟩ := late.placed carries
  have rise : rise? crept.compile.state.registry ⟨1⟩ = some 0 := by decide +kernel
  have width : (crept.compile.state.compiled? ⟨1⟩).map Waveform.width = some (1 / 4) := by decide +kernel
  have segments : (segmentsOn ⟨1⟩ crept.compile.state.slices).map (fun (start, w) => (start, w.width))
      = [(9 / 2 / 10 ^ 15, 1 / 4)] := by decide +kernel
  have count : crept.compile.state.slices.length = 2 := by decide +kernel
  rw [rise?_of_triggerOf trigger, Option.some.injEq] at rise
  rw [compiled, Option.map_some, Option.some.injEq] at width
  obtain ⟨⟨start, segment⟩, only, same⟩ := List.map_eq_singleton_iff.mp segments
  rw [Prod.mk.injEq] at same
  rw [only, rise, count] at near
  obtain _ | @⟨p, _, pieces, _, ⟨plays, close⟩, rest⟩ := near
  cases rest
  -- The track is the segment alone, and so it begins with it.
  have finish : p.offset + p.waveform.width = w.width := laid.ends p rfl
  rw [plays, same.2, width] at finish
  have offset : p.offset = 0 := by linarith
  rw [offset, same.1] at close
  norm_num [tolerance, abs_le] at close

end Example

end PulseSequencer.Sequence
