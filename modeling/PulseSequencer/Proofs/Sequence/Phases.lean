import PulseSequencer.Proofs.Scalar.Exact
import PulseSequencer.Proofs.Sequence.Programming

/-!
This module contains what can be relied on after the channels were loaded, whichever calls the devices have refused: how
far the loading has come, which channels still wait, and that loading once more goes on from there.
-/

namespace PulseSequencer.Sequence

variable {α : Type} [Scalar α]

section Order

variable {s : ChannelSet} {front back : List ChannelId} {c ch : ChannelId}

theorem mem_front_iff (split : s.ids = front ++ c :: back) : ch ∈ front ↔ ch ∈ s ∧ ch.index < c.index := by
  have ascending := s.ascending
  rw [split, List.pairwise_append, List.pairwise_cons] at ascending
  obtain ⟨_, ⟨above, _⟩, below⟩ := ascending
  rw [ChannelSet.mem_def, split, List.mem_append, List.mem_cons]
  constructor
  · intro mem
    exact ⟨.inl mem, below ch mem c List.mem_cons_self⟩
  · rintro ⟨mem | rfl | mem, less⟩
    · exact mem
    · omega
    · have := above ch mem
      omega

end Order

section Discipline

variable {calls calls' : List Issued}

/--
Whether each write comes right after a stop of the same channel that was carried out.
-/
def StopsFirst (calls : List Issued) : Prop :=
  ∀ before i after, calls = before ++ i :: after → i.operation = .writeRawWaveform →
    ∃ earlier, before = earlier ++ [⟨i.channel, .stop, true⟩]

theorem StopsFirst.append (first : StopsFirst calls) (second : StopsFirst calls') : StopsFirst (calls ++ calls') := by
  intro before i after split write
  rcases List.append_eq_append_iff.mp split with ⟨middle, rfl, later⟩ | ⟨middle, earlier, rest⟩
  · obtain ⟨earlier, rfl⟩ := second middle i after later write
    exact ⟨calls ++ earlier, by rw [List.append_assoc]⟩
  · cases middle with
    | nil =>
      rw [List.append_nil] at earlier
      obtain ⟨earlier', contra⟩ := second [] i after rest.symm write
      simp at contra
    | cons j middle =>
      rw [List.cons_append, List.cons.injEq] at rest
      obtain ⟨rfl, rfl⟩ := rest
      exact first before i middle earlier write

theorem stopsFirst_of_no_write (none : ∀ i ∈ calls, i.operation ≠ .writeRawWaveform) : StopsFirst calls := by
  intro before i after split write
  exact absurd write (none i (by simp [split]))

theorem stopsFirst_of_pair (ch : ChannelId) (done : Bool) :
    StopsFirst [⟨ch, .stop, true⟩, ⟨ch, .writeRawWaveform, done⟩] := by
  intro before i after split write
  rcases before with _ | ⟨stop, _ | ⟨j, before⟩⟩
  · cases split
    cases write
  · cases split
    exact ⟨[], rfl⟩
  · simp at split

omit [Scalar α] in
theorem stopsFirst_service (load : Load α) : StopsFirst (service load) := by
  unfold service
  split
  · exact stopsFirst_of_pair load.channel true
  · exact stopsFirst_of_no_write (by simp)

omit [Scalar α] in
theorem stopsFirst_flatMap (loads : List (Load α)) : StopsFirst (loads.flatMap service) := by
  induction loads with
  | nil => exact stopsFirst_of_no_write nofun
  | cons load rest ih =>
    rw [List.flatMap_cons]
    exact (stopsFirst_service load).append ih

omit [Scalar α] in
theorem stopsFirst_of_refused {load : Load α} (refused : Refused load calls) : StopsFirst calls := by
  rcases refused with rfl | ⟨_, rfl⟩
  · exact stopsFirst_of_no_write (by simp)
  · exact stopsFirst_of_pair load.channel false

theorem stopsFirst_of_surveyed {ids : List ChannelId} {q r : Sequence α} (surveyed : Surveyed ids q calls r) :
    StopsFirst calls := by
  apply stopsFirst_of_no_write
  intro i mem
  rw [surveyed.operations i mem]
  exact nofun

end Discipline

section Trace

variable {q r : Sequence α} {loads served : List (Load α)} {asks : List Issued} {load : Load α} {ch c : ChannelId}

omit [Scalar α] in
theorem mem_flatMap_service {i : Issued} :
    i ∈ loads.flatMap service
      ↔ ∃ load ∈ loads, i = ⟨load.channel, .stop, true⟩
        ∨ load.buffer.isSome = true ∧ i = ⟨load.channel, .writeRawWaveform, true⟩ := by
  rw [List.mem_flatMap]
  apply exists_congr
  intro load
  unfold service
  cases load.buffer with
  | none => simp
  | some buffer => simp

omit [Scalar α] in
theorem channel_of_mem_service {operation : Operation} {done : Bool} (mem : ⟨ch, operation, done⟩ ∈ loads.flatMap service) :
    ch ∈ loads.map (·.channel) ∧ done = true := by
  obtain ⟨load, found, same⟩ := mem_flatMap_service.mp mem
  rcases same with same | ⟨_, same⟩
  · cases same
    exact ⟨List.mem_map_of_mem found, rfl⟩
  · cases same
    exact ⟨List.mem_map_of_mem found, rfl⟩

theorem not_mem_asks {ids : List ChannelId} {operation : Operation} {done : Bool} (surveyed : Surveyed ids q asks r)
    (other : operation ≠ .sampleRate) : ⟨ch, operation, done⟩ ∉ asks :=
  fun mem => other (surveyed.operations _ mem)

/--
Whether loading a sequence handles a channel: its device is stopped, and if something was compiled, but only then, it is
also written and holds the samples of that.
-/
def Handled (q : Sequence α) (ch : ChannelId) : Prop :=
  ⟨ch, .stop, true⟩ ∈ q.programCalls
    ∧ (⟨ch, .writeRawWaveform, true⟩ ∈ q.programCalls ↔ (q.compiled.get? ch).isSome = true)
    ∧ ∃ d d', q.devices.get? ch = some d ∧ q.program.state.devices.get? ch = some d' ∧ d'.state.running = false
      ∧ ∀ w, q.compiled.get? ch = some w →
        w.normalizedSample d.rate d.minUnit = some (d'.state.samples, d'.state.amplitude)

theorem handled_of_served (prepared : Prepared q loads asks r) (some_of : served ⊆ loads) (found : load ∈ served)
    (calls : ∀ i ∈ served.flatMap service, i ∈ q.programCalls)
    (writes : ⟨load.channel, .writeRawWaveform, true⟩ ∈ q.programCalls →
      ⟨load.channel, .writeRawWaveform, true⟩ ∈ served.flatMap service)
    (stocked : Stocked q.program.state load) : Handled q load.channel := by
  have waiting := waiting_of_prepared prepared (some_of found)
  obtain ⟨d, here⟩ := exists_device_of_ready (prepared.ready load.channel waiting)
  obtain ⟨d', there, at_rest, buffer⟩ := stocked
  have fit := prepared.fit load (some_of found) d here
  refine ⟨?_, ⟨?_, ?_⟩, d, d', here, there, at_rest, ?_⟩
  · apply calls
    exact mem_flatMap_service.mpr ⟨load, found, .inl rfl⟩
  · intro written
    obtain ⟨l, mem, same | ⟨buffer, same⟩⟩ := mem_flatMap_service.mp (writes written)
    · cases congrArg Issued.operation same
    · have channel : load.channel = l.channel := congrArg Issued.channel same
      rw [← Option.isSome_map (f := some), prepared.fit l (some_of mem) d (channel ▸ here), Option.isSome_map,
        ← channel] at buffer
      exact buffer
  · intro carried
    apply calls
    refine mem_flatMap_service.mpr ⟨load, found, .inr ⟨?_, rfl⟩⟩
    rw [← Option.isSome_map (f := some), fit, Option.isSome_map]
    exact carried
  · intro w compiled
    rw [compiled, Option.map_some, Option.map_eq_some_iff] at fit
    obtain ⟨b, loaded, normalized⟩ := fit
    rw [buffer b loaded, normalized]

end Trace

section Halt

variable {q : Sequence α} {c : ChannelId}

structure Abandoned (q : Sequence α) : Prop where
  failed : ∃ cause, q.program.result = .error cause
  calls : ∀ i ∈ q.programCalls, i.operation = .sampleRate
  devices : ∀ ch, (q.program.state.devices.get? ch).map (·.state) = (q.devices.get? ch).map (·.state)
  pending : q.program.state.pendingProgram = q.pendingProgram
  programmed : q.program.state.programmed = q.programmed

/--
Loading that has ended in the second phase at a channel, with those before it handled and those behind it left alone.
-/
structure Halted (q : Sequence α) (c : ChannelId) : Prop where
  failed : ∃ cause, q.program.result = .error cause
  waiting : c ∈ q.pendingProgram
  handled : ∀ ch, Handled q ch ↔ ch ∈ q.pendingProgram ∧ ch.index < c.index
  pending : ∀ ch, ch ∈ q.program.state.pendingProgram ↔ ch ∈ q.pendingProgram ∧ c.index ≤ ch.index
  calls : ∀ i ∈ q.programCalls, c.index < i.channel.index → i.operation = .sampleRate
  devices : ∀ ch, c.index < ch.index →
    (q.program.state.devices.get? ch).map (·.state) = (q.devices.get? ch).map (·.state)
  programmed : q.program.state.programmed = q.programmed

structure Completed (q : Sequence α) : Prop where
  result : q.program.result = .ok q.pendingProgram.size
  handled : ∀ ch, Handled q ch ↔ ch ∈ q.pendingProgram
  pending : q.program.state.pendingProgram = ∅
  programmed : q.program.state.programmed = true

def Refuses (q : Sequence α) (c : ChannelId) : Prop :=
  ⟨c, .stop, false⟩ ∈ q.programCalls ∨ ⟨c, .writeRawWaveform, false⟩ ∈ q.programCalls

variable {r : Sequence α} {loads before after : List (Load α)} {asks last : List Issued} {load : Load α}

theorem abandoned_of_surveyed (failed : ∃ cause, q.program.result = .error cause)
    (surveyed : Surveyed q.pendingProgram.ids q q.programCalls q.program.state) : Abandoned q where
  failed := failed
  calls := surveyed.operations
  devices := state_of_asked surveyed.asked
  pending := by rw [surveyed.asked.rest]
  programmed := by rw [surveyed.asked.rest]

theorem handled_iff_mem_front (prepared : Prepared q (before ++ load :: after) asks r)
    (calls : q.programCalls = asks ++ (before.flatMap service ++ last)) (refused : Refused load last)
    (served : Served before r q.program.state) (ch : ChannelId) :
    Handled q ch ↔ ch ∈ before.map (·.channel) := by
  have not_asked {operation : Operation} (other : operation ≠ .sampleRate) (c : ChannelId) :
      ⟨c, operation, true⟩ ∈ q.programCalls →
        ⟨c, operation, true⟩ ∈ before.flatMap service ∨ ⟨c, operation, true⟩ ∈ last := by
    intro mem
    rw [calls, List.mem_append, List.mem_append] at mem
    exact mem.resolve_left (not_mem_asks prepared.surveyed other)
  have writes (c : ChannelId) :
      ⟨c, .writeRawWaveform, true⟩ ∈ q.programCalls → ⟨c, .writeRawWaveform, true⟩ ∈ before.flatMap service := by
    intro mem
    refine (not_asked (by decide) c mem).resolve_right ?_
    rcases refused with rfl | ⟨_, rfl⟩
    · simp
    · simp
  constructor
  · rintro ⟨stopped, written, _⟩
    rcases not_asked (by decide) ch stopped with mem | mem
    · exact (channel_of_mem_service mem).1
    · -- The refusing channel itself may have been stopped, but then it has something to be written.
      rcases refused with rfl | ⟨buffer, rfl⟩
      · simp at mem
      · obtain rfl : ch = load.channel := by simpa using mem
        have member : load ∈ before ++ load :: after := by simp
        obtain ⟨d, here⟩ := exists_device_of_ready (prepared.ready load.channel (waiting_of_prepared prepared member))
        rw [← Option.isSome_map (f := some), prepared.fit load member d here, Option.isSome_map] at buffer
        exact (channel_of_mem_service (writes load.channel (written.mpr buffer))).1
  · intro mem
    obtain ⟨l, found, rfl⟩ := List.mem_map.mp mem
    apply handled_of_served prepared (List.subset_append_left ..) found
    · intro i mem
      rw [calls]
      exact List.mem_append_right _ (List.mem_append_left _ mem)
    · exact writes l.channel
    · exact served.stocked l found

omit [Scalar α] in
theorem channel_of_mem_refused {i : Issued} (refused : Refused load last) (mem : i ∈ last) :
    i.channel = load.channel := by
  rcases refused with rfl | ⟨_, rfl⟩
  · rw [List.mem_singleton.mp mem]
  · simp only [List.mem_cons, List.not_mem_nil, or_false] at mem
    rcases mem with rfl | rfl
    · rfl
    · rfl

theorem halted_of_refused (prepared : Prepared q (before ++ load :: after) asks r)
    (failed : ∃ cause, q.program.result = .error cause)
    (calls : q.programCalls = asks ++ (before.flatMap service ++ last)) (refused : Refused load last)
    (served : Served before r q.program.state)
    (confined : Confined ((before ++ [load]).map (·.channel)) r (before.flatMap service ++ last) q.program.state) :
    Halted q load.channel := by
  have ids : q.pendingProgram.ids = before.map (·.channel) ++ load.channel :: after.map (·.channel) := by
    rw [← prepared.channels, List.map_append, List.map_cons]
  have front (ch : ChannelId) :
      ch ∈ before.map (·.channel) ↔ ch ∈ q.pendingProgram ∧ ch.index < load.channel.index := mem_front_iff ids
  have asked := prepared.surveyed.asked
  have waiting : r.pendingProgram = q.pendingProgram := by rw [asked.rest]
  refine ⟨failed, waiting_of_prepared prepared (by simp), ?_, ?_, ?_, ?_, ?_⟩
  · intro ch
    rw [handled_iff_mem_front prepared calls refused served, front]
  · intro ch
    rw [served.pending, front, waiting, not_and, Nat.not_lt]
    exact and_congr_right fun mem => ⟨fun later => later mem, fun later _ => later⟩
  · intro i mem beyond
    rw [calls, List.mem_append, List.mem_append] at mem
    rcases mem with mem | mem | mem
    · exact prepared.surveyed.operations i mem
    · have := ((front i.channel).mp (channel_of_mem_service mem).1).2
      omega
    · rw [channel_of_mem_refused refused mem] at beyond
      omega
  · intro ch beyond
    have untouched : ch ∉ (before ++ [load]).map (·.channel) := by
      rw [List.map_append, List.mem_append, List.map_singleton, List.mem_singleton, front]
      rintro (⟨_, less⟩ | rfl)
      · omega
      · omega
    rw [confined.others ch untouched]
    exact state_of_asked asked ch
  · rw [confined.programmed, asked.rest]

theorem completed_of_served {s : Sequence α} (prepared : Prepared q loads asks r)
    (ok : q.program.result = .ok loads.length) (calls : q.programCalls = asks ++ loads.flatMap service)
    (state : q.program.state = { s with programmed := true }) (served : Served loads r s) : Completed q := by
  have waiting : r.pendingProgram = q.pendingProgram := by rw [prepared.surveyed.asked.rest]
  refine ⟨?_, ?_, ?_, ?_⟩
  · rw [ok, ChannelSet.size, ← prepared.channels, List.length_map]
  · intro ch
    constructor
    · rintro ⟨stopped, _⟩
      rw [calls, List.mem_append] at stopped
      rcases stopped with mem | mem
      · exact absurd mem (not_mem_asks prepared.surveyed (by decide))
      · rw [ChannelSet.mem_def, ← prepared.channels]
        exact (channel_of_mem_service mem).1
    · intro mem
      rw [ChannelSet.mem_def, ← prepared.channels] at mem
      obtain ⟨l, found, rfl⟩ := List.mem_map.mp mem
      apply handled_of_served prepared (List.Subset.refl _) found
      · intro i mem
        rw [calls]
        exact List.mem_append_right _ mem
      · intro mem
        rw [calls, List.mem_append] at mem
        exact mem.resolve_left (not_mem_asks prepared.surveyed (by decide))
      · rw [state]
        exact served.stocked l found
  · ext ch
    rw [state, iff_false_right (ChannelSet.not_mem_empty ch)]
    intro mem
    obtain ⟨mem, left⟩ := (served.pending ch).mp mem
    rw [prepared.channels] at left
    exact left (waiting ▸ mem)
  · rw [state]

end Halt

section Program

variable {q : Sequence α}

theorem within_of_prepared {loads : List (Load α)} {asks calls : List Issued} {r s : Sequence α}
    (prepared : Prepared q loads asks r) (within : Within (loads.map (·.channel)) r calls s) :
    Within q.pendingProgram.ids q (asks ++ calls) s := by
  rw [prepared.channels] at within
  exact (composes_within q.pendingProgram.ids).trans prepared.surveyed.toWithin within

theorem within_program (q : Sequence α) : Within q.pendingProgram.ids q q.programCalls q.program.state := by
  rcases program_cases q with ⟨_, _, _, surveyed⟩ | ⟨_, _, _, prepared, before, load, after, _, _, rfl, _, calls, _, _, confined⟩
    | ⟨_, _, _, _, prepared, _, calls, state, _, confined⟩
  · exact surveyed.toWithin
  · rw [calls]
    exact within_of_prepared prepared (confined.mono (List.map_subset _ (by simp)))
  · obtain ⟨channels, devices⟩ := within_of_prepared prepared confined.toWithin
    rw [calls, state]
    exact ⟨channels, devices⟩

theorem stopsFirst_program (q : Sequence α) : StopsFirst q.programCalls := by
  rcases program_cases q with ⟨_, _, _, surveyed⟩ | ⟨_, _, _, prepared, _, _, _, _, _, _, _, calls, refused, _⟩
    | ⟨_, _, _, _, prepared, _, calls, _⟩
  · exact stopsFirst_of_surveyed surveyed
  · rw [calls]
    apply (stopsFirst_of_surveyed prepared.surveyed).append
    exact (stopsFirst_flatMap _).append (stopsFirst_of_refused refused)
  · rw [calls]
    exact (stopsFirst_of_surveyed prepared.surveyed).append (stopsFirst_flatMap _)

theorem abandoned_of_unready (unready : ∃ ch ∈ q.pendingProgram, Unready q ch) : Abandoned q := by
  obtain ⟨ch, waiting, unready⟩ := unready
  rcases program_cases q with ⟨cause, failed, _, surveyed⟩ | ⟨_, _, _, prepared, _⟩ | ⟨_, _, _, _, prepared, _⟩
  · exact abandoned_of_surveyed ⟨cause, failed⟩ surveyed
  · exact absurd unready (prepared.ready ch waiting)
  · exact absurd unready (prepared.ready ch waiting)

theorem Refuses.issued {c : ChannelId} (refuses : Refuses q c) :
    ∃ operation, operation ≠ .sampleRate ∧ ⟨c, operation, false⟩ ∈ q.programCalls := by
  rcases refuses with mem | mem
  · exact ⟨.stop, by decide, mem⟩
  · exact ⟨.writeRawWaveform, by decide, mem⟩

theorem halted_of_refuses {c : ChannelId} (refuses : Refuses q c) : Halted q c := by
  obtain ⟨operation, other, issued⟩ := refuses.issued
  rcases program_cases q with ⟨_, _, _, surveyed⟩ | ⟨_, _, _, prepared, before, load, after, cause, last, rfl, failed, calls,
    refused, served, confined⟩ | ⟨_, _, _, _, prepared, _, calls, _⟩
  · exact absurd issued (not_mem_asks surveyed other)
  · obtain rfl : c = load.channel := by
      rw [calls, List.mem_append, List.mem_append] at issued
      rcases issued with mem | mem | mem
      · exact absurd mem (not_mem_asks prepared.surveyed other)
      · cases (channel_of_mem_service mem).2
      · exact channel_of_mem_refused refused mem
    exact halted_of_refused prepared ⟨cause, failed⟩ calls refused served confined
  · rw [calls, List.mem_append] at issued
    rcases issued with mem | mem
    · exact absurd mem (not_mem_asks prepared.surveyed other)
    · cases (channel_of_mem_service mem).2

theorem unready_or_refuses {cause : Error α} (failed : q.program.result = .error cause) :
    (∃ ch ∈ q.pendingProgram, Unready q ch) ∨ ∃ c, Refuses q c := by
  rcases program_cases q with ⟨_, _, unready, _⟩ | ⟨_, _, _, _, _, load, _, _, _, _, _, calls, refused, _⟩
    | ⟨_, _, _, _, _, ok, _⟩
  · exact .inl unready
  · refine .inr ⟨load.channel, ?_⟩
    unfold Refuses
    rw [calls]
    rcases refused with rfl | ⟨_, rfl⟩
    · simp
    · simp
  · rw [failed] at ok
    cases ok

theorem completed_of_ok {n : Nat} (ok : q.program.result = .ok n) : Completed q := by
  rcases program_cases q with ⟨_, failed, _⟩ | ⟨_, _, _, _, _, _, _, _, _, _, failed, _⟩ | ⟨_, _, _, _, prepared, done, calls,
    state, served, _⟩
  · rw [failed] at ok
    cases ok
  · rw [failed] at ok
    cases ok
  · exact completed_of_served prepared done calls state served

/--
Loading in two phases, over a faithful record of the calls. Devices of other channels are never called, and a write
comes right after a stop. If a channel is not ready, no device is touched at all. If a device refuses to be stopped or
written, the channels before it are handled and those from it on keep waiting, for loading once more to handle them.
-/
theorem program_in_phases (q : Sequence α) :
    q.programTraced.outcome = q.program
      ∧ Recorded q q.programCalls q.program.state
      ∧ (∀ i ∈ q.programCalls, i.channel ∈ q.pendingProgram)
      ∧ (∀ ch, ch ∉ q.pendingProgram → q.program.state.devices.get? ch = q.devices.get? ch)
      ∧ StopsFirst q.programCalls
      ∧ ((∃ ch ∈ q.pendingProgram, Unready q ch) → Abandoned q)
      ∧ (∀ c, Refuses q c → Halted q c)
      ∧ ((∃ n, q.program.result = .ok n) → Completed q)
      ∧ (∀ cause, q.program.result = .error cause → (∃ ch ∈ q.pendingProgram, Unready q ch) ∨ ∃ c, Refuses q c)
      ∧ ∀ r : Sequence α, r.pendingProgram = q.program.state.pendingProgram →
        (∀ i ∈ r.programCalls, i.channel ∈ q.program.state.pendingProgram)
          ∧ ((∃ n, r.program.result = .ok n) → ∀ ch, Handled r ch ↔ ch ∈ q.program.state.pendingProgram) := by
  obtain ⟨calls, devices⟩ := within_program q
  refine ⟨outcome_programTraced q, recorded_program q, calls, devices, stopsFirst_program q, abandoned_of_unready,
    fun c => halted_of_refuses, ?_, fun cause => unready_or_refuses, ?_⟩
  · rintro ⟨n, ok⟩
    exact completed_of_ok ok
  · intro r left
    rw [← left]
    refine ⟨(within_program r).channels, ?_⟩
    rintro ⟨n, ok⟩
    exact (completed_of_ok ok).handled

def twoChannels : Sequence ℚ :=
  let described := (((create .memory 1).perform (.addTrigger "strobe" 0 0 (1 / 8))).perform
    (.linkChannel ⟨0⟩ "left" (.memory 4 1))).perform (.linkChannel ⟨0⟩ "right" (.memory 4 1))
  ((described.perform (.addSlice (.flex "drive"))).perform
    (.atSlice "drive" [] (.edit ⟨0⟩ (.addWaveform (.dc (1 / 4) 1 0))))).perform
    (.atSlice "drive" [] (.edit ⟨1⟩ (.addWaveform (.dc (1 / 4) (1 / 2) 0))))

theorem program_twoChannels_in_phases :
    Halted ((twoChannels.perform .compile).perform (.setFailWrites ⟨1⟩ true)) ⟨1⟩
      ∧ Abandoned ((twoChannels.perform .compile).perform (.dropDevice ⟨1⟩))
      ∧ Completed (twoChannels.perform .compile) := by
  refine ⟨?_, ?_, ?_⟩
  · obtain ⟨_, _, _, _, _, _, halted, _⟩ :=
      program_in_phases ((twoChannels.perform .compile).perform (.setFailWrites ⟨1⟩ true))
    exact halted ⟨1⟩ (.inr (by decide +kernel))
  · obtain ⟨_, _, _, _, _, abandoned, _⟩ := program_in_phases ((twoChannels.perform .compile).perform (.dropDevice ⟨1⟩))
    exact abandoned ⟨⟨1⟩, by decide +kernel, .inl (Option.isNone_iff_eq_none.mp (by decide +kernel))⟩
  · obtain ⟨_, _, _, _, _, _, _, completed, _⟩ := program_in_phases (twoChannels.perform .compile)
    exact completed (exists_ok_of_isOk (by decide +kernel))

end Program

end PulseSequencer.Sequence
