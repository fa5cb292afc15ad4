import PulseSequencer.Proofs.Sequence.Timeline
import PulseSequencer.Proofs.Waveform.Normalization
import PulseSequencer.Proofs.Sequence.Strobes
import PulseSequencer.Proofs.Sequence.Buffers

/-!
This module contains that the picture of a cycle shows what the devices play, as exact numbers have it: a preview on the
grid of a device has the samples of its buffer, from the rise of the trigger on, and nothing before and behind them.
-/

namespace PulseSequencer

section Rendering

variable {α : Type} [Scalar α] {s : Snapshot α} {rate : α}

theorem Snapshot.mem_render {shown : Trace α} :
    shown ∈ s.render rate
      ↔ ∃ t ∈ s.triggers, shown = strobeTrace t (s.times rate)
        ∨ ∃ c ∈ s.channels, c.trigger = t.name ∧ shown = channelTrace c (s.times rate) := by
  unfold render risingTriggers
  simp only [List.mem_flatMap, List.mem_mergeSort, List.mem_cons, List.mem_map, List.mem_filter, beq_iff_eq, and_assoc,
    @eq_comm _ _ shown]

theorem Snapshot.of_getElem?_times {i : Nat} {t : α} (found : (s.times rate)[i]? = some t) :
    i < 2 ^ 64 - 1 ∧ t = Grid.time rate i := by
  unfold times at found
  split at found
  · cases found
  · rw [Array.getElem?_ofFn] at found
    split at found
    · rename_i inside
      have words := (Grid.sampleCount (1.0 / s.cycleFrequency) rate).toNat_lt
      exact ⟨by omega, (Option.some.inj found).symm⟩
    · cases found

end Rendering

namespace Sequence

section Traces

variable {α : Type} [Scalar α] {p q : Sequence α} {ch : ChannelId} {c : Channel} {w : Waveform α}
  {trace : ChannelTrace α}

structure Depicted (q : Sequence α) (c : Channel) (w : Waveform α) (trace : ChannelTrace α) : Prop where
  mem : trace ∈ q.snapshot.channels
  name : trace.name = c.name
  waveform : trace.waveform = w
  strobe : ∃ t ∈ q.snapshot.triggers, trace.trigger = t.name
  unique : ∀ other ∈ q.snapshot.channels, other.name = c.name → other = trace

theorem Mirrors.exists_depicted (mirrors : Mirrors p q) (distinct : q.registry.channelNames.Nodup)
    (registered : q.registry.channel ch = .ok c) (compiled : q.compiled.get? ch = some w) :
    ∃ trace, Depicted q c w trace := by
  obtain ⟨ids, perm, _, traces⟩ := mirrors.channels
  have carried : ch ∈ ids := perm.mem_iff.mpr ((Table.mem_keys_iff q.compiled ch).mpr (by simp [compiled]))
  have shown : List.Forall₂ (fun trace ch => Shows p q ch trace) q.snapshot.channels ids := List.Forall₂.flip traces
  obtain ⟨trace, mem, c', t, w', registered', trigger, compiled', rfl⟩ := Slice.exists_of_mem_right shown carried
  rw [registered] at registered'
  rw [compiled] at compiled'
  cases registered'
  cases compiled'
  refine ⟨_, mem, rfl, rfl, ?_, ?_⟩
  · rw [mirrors.triggers]
    exact ⟨_, List.mem_map_of_mem (Registry.mem_of_triggerOf trigger), rfl⟩
  · intro other mem' name
    obtain ⟨ch', _, c', t', w', registered', trigger', compiled', rfl⟩ := Slice.exists_of_mem_right traces mem'
    have place := Registry.findChannel?_of_getElem? distinct (Registry.channel_eq_ok_iff.mp registered)
    have place' := Registry.findChannel?_of_getElem? distinct (Registry.channel_eq_ok_iff.mp registered')
    rw [show c'.name = c.name from name, place, Option.some.injEq, ChannelId.mk.injEq] at place'
    have same : ch' = ch := congrArg ChannelId.mk place'.symm
    rw [same, registered] at registered'
    rw [same, trigger] at trigger'
    rw [same, compiled] at compiled'
    cases registered'
    cases trigger'
    cases compiled'
    rfl

theorem Emerged.exists_depicted (emerged : q.Emerged) (registered : q.registry.channel ch = .ok c)
    (compiled : q.compiled.get? ch = some w) : ∃ trace, Depicted q c w trace := by
  obtain ⟨driver, cycleFrequency, actions, rfl⟩ := emerged
  have published := published_of_actions driver cycleFrequency actions
  cases last : ((create driver cycleFrequency).compilations actions).getLast? with
  | none =>
    rw [published.blank last] at compiled
    cases compiled
  | some p => exact (published.mirrors p last).exists_depicted published.distinct registered compiled

end Traces

section Samples

variable {K : Type} [Field K] [LinearOrder K] [FloorRing K] [Elementary K] [IsStrictOrderedRing K]
  {q : Sequence K} {ch : ChannelId} {c : Channel} {d : ChannelDevice K} {w : Waveform K} {trace : ChannelTrace K}
  {k : Nat}

open ChannelDevice

/--
Values at all points of a preview that are those of a buffer from a point on, and zero before it. Behind the samples they
are zero as well, except for points so close to the end of the waveform that they are taken for it.
-/
structure Agrees (s : Snapshot K) (d : ChannelDevice K) (w : Waveform K) (k : Nat) (values : Array K) : Prop where
  size : values.size = (s.times d.rate).size
  stored : (w.sampleCount d.rate).toNat ≤ d.state.waveform.size
  before : ∀ i v, values[i]? = some v → i < k → v = 0
  played : ∀ i v, values[i]? = some v → k ≤ i → i < k + (w.sampleCount d.rate).toNat →
    d.state.waveform[i - k]? = some v
  behind : ∀ i v, values[i]? = some v → k + (w.sampleCount d.rate).toNat ≤ i →
    v = 0 ∨ w.width - Grid.jitter / d.rate < ↑(i - k) / d.rate ∧ ↑(i - k) / d.rate < w.width

theorem agrees_channelTrace (held : Holds (some w) d) (positive : 0 < d.rate) (waveform : trace.waveform = w)
    (rise : trace.raiseAt = k / d.rate) (s : Snapshot K) :
    Agrees s d w k (Snapshot.channelTrace trace (s.times d.rate)).values := by
  have loaded : d.state.waveform
      = Waveform.padded (fun i => w.realValue (Grid.time d.rate i)) 0.0 (w.sampleCount d.rate).toNat
        (Grid.roundUp (w.sampleCount d.rate) d.minUnit) :=
    Waveform.eq_padded_of_sample (Waveform.waveform_of_normalizedSample held)
  have room := Grid.le_roundUp (w.sampleCount d.rate) d.minUnit
  have shown (i : Nat) (v : K) (found : (Snapshot.channelTrace trace (s.times d.rate)).values[i]? = some v) :
      i < 2 ^ 64 - 1 ∧ v = w.realValue ((i - k) / d.rate) := by
    unfold Snapshot.channelTrace Waveform.valuesAt at found
    rw [Array.map_map, Array.getElem?_map, Option.map_eq_some_iff] at found
    obtain ⟨t, point, rfl⟩ := found
    obtain ⟨bound, rfl⟩ := Snapshot.of_getElem?_times point
    refine ⟨bound, ?_⟩
    rw [Function.comp_apply, waveform, rise, sub_div]
    rfl
  have silent (t : K) (outside : t < 0 ∨ w.width ≤ t) : w.realValue t = 0 := by
    rw [Waveform.realValue, Waveform.value_of_outside outside]
    exact Scalar.zero_exact
  refine ⟨?_, ?_, ?_, ?_, ?_⟩
  · unfold Snapshot.channelTrace Waveform.valuesAt
    rw [Array.size_map, Array.size_map]
  · rw [loaded, Waveform.size_padded]
    exact room
  · intro i v found early
    obtain ⟨_, rfl⟩ := shown i v found
    apply silent
    have negative : (i : K) - k < 0 := sub_neg.mpr (by exact_mod_cast early)
    exact .inl (div_neg_of_neg_of_pos negative positive)
  · intro i v found late inside
    obtain ⟨_, rfl⟩ := shown i v found
    rw [loaded, Waveform.getElem?_padded, if_pos (by omega), if_pos (by omega), ← Nat.cast_sub late]
    rfl
  · intro i v found late
    obtain ⟨bound, rfl⟩ := shown i v found
    rw [← Nat.cast_sub (by omega)]
    by_cases inside : ((i - k : Nat) : K) / d.rate < w.width
    · exact .inr ⟨Grid.near_end_of_sampleCount_le positive (by unfold Waveform.sampleCount at late; omega) (by omega), inside⟩
    · exact .inl (silent _ (.inr (not_lt.mp inside)))

/--
Whatever came before, a preview on the grid of a device that does not wait to be loaded agrees with what the device
plays, if the trigger of its channel rises on a point of the grid.
-/
theorem render_agrees (emerged : q.Emerged) (registered : q.registry.channel ch = .ok c)
    (compiled : q.compiled.get? ch = some w) (loaded : ch ∉ q.pendingProgram) (device : q.devices.get? ch = some d)
    (positive : 0 < d.rate) (found : q.snapshot.find? c.name = some trace) (rise : trace.raiseAt = k / d.rate) :
    (∃ shown ∈ q.snapshot.render d.rate, shown.kind = .channel ∧ shown.name = c.name)
      ∧ ∀ shown ∈ q.snapshot.render d.rate, shown.kind = .channel → shown.name = c.name →
        Agrees q.snapshot d w k shown.values := by
  obtain ⟨only, depicted⟩ := emerged.exists_depicted registered compiled
  have same : trace = only := by
    apply depicted.unique trace (List.mem_of_find?_eq_some found)
    simpa using List.find?_some found
  subst same
  have held : Holds (some w) d := by
    obtain ⟨driver, cycleFrequency, actions, rfl⟩ := emerged
    exact filled_of_actions driver cycleFrequency actions ch d w device loaded compiled
  constructor
  · obtain ⟨t, mem, strobe⟩ := depicted.strobe
    refine ⟨_, Snapshot.mem_render.mpr ⟨t, mem, .inr ⟨trace, depicted.mem, strobe, rfl⟩⟩, rfl, depicted.name⟩
  · intro shown mem kind name
    obtain ⟨t, _, rfl | ⟨other, here, _, rfl⟩⟩ := Snapshot.mem_render.mp mem
    · cases kind
    · rw [depicted.unique other here name]
      exact agrees_channelTrace held positive depicted.waveform rise q.snapshot

def loadedSegments : Sequence ℚ :=
  (twoSegments.perform .compile).perform .program

theorem render_loadedSegments_agrees :
    ∃ c w d trace, loadedSegments.registry.channel ⟨0⟩ = .ok c ∧ loadedSegments.compiled.get? ⟨0⟩ = some w
      ∧ loadedSegments.devices.get? ⟨0⟩ = some d ∧ loadedSegments.snapshot.find? c.name = some trace
      ∧ trace.raiseAt = (1 : ℕ) / d.rate
      ∧ (∃ shown ∈ loadedSegments.snapshot.render d.rate, shown.kind = .channel ∧ shown.name = c.name)
      ∧ ∀ shown ∈ loadedSegments.snapshot.render d.rate, shown.kind = .channel → shown.name = c.name →
        Agrees loadedSegments.snapshot d w 1 shown.values := by
  have emerged : loadedSegments.Emerged := by
    refine ⟨.memory, 1, [
      .command (.addTrigger "strobe" 0 (1 / 4) 1),
      .command (.linkChannel ⟨0⟩ "out" (.memory 4 1)),
      .command (.addSlice (.fixedLength "pause" (1 / 2))),
      .command (.addSlice (.flex "drive")),
      .command (.addSlice (.fixed "late" (7 / 8) (1 / 8))),
      .command (.atSlice "drive" [] (.edit ⟨0⟩ (.addWaveform (.dc (1 / 4) 1 0)))),
      .command (.atSlice "late" [] (.edit ⟨0⟩ (.addWaveform (.dc (1 / 8) (1 / 2) 0)))),
      .command .compile,
      .command .program], rfl⟩
  obtain ⟨w, compiled⟩ : ∃ w, loadedSegments.compiled.get? ⟨0⟩ = some w :=
    Option.isSome_iff_exists.mp (by decide +kernel)
  obtain ⟨d, device⟩ : ∃ d, loadedSegments.devices.get? ⟨0⟩ = some d :=
    Option.isSome_iff_exists.mp (by decide +kernel)
  obtain ⟨c, registered⟩ : ∃ c, loadedSegments.registry.channel ⟨0⟩ = .ok c := exists_ok_of_isOk (by decide +kernel)
  obtain ⟨trace, found⟩ : ∃ trace, loadedSegments.snapshot.find? "out" = some trace :=
    Option.isSome_iff_exists.mp (by decide +kernel)
  have named : (loadedSegments.registry.channel ⟨0⟩).toOption.map (·.name) = some "out" := by decide +kernel
  have grid : (loadedSegments.devices.get? ⟨0⟩).map (·.rate) = some 4 := by decide +kernel
  have risen : (loadedSegments.snapshot.find? "out").map (·.raiseAt) = some (1 / 4) := by decide +kernel
  rw [registered, Except.toOption, Option.map_some, Option.some.injEq] at named
  rw [← named] at found risen
  rw [device, Option.map_some, Option.some.injEq] at grid
  rw [found, Option.map_some, Option.some.injEq] at risen
  have rise : trace.raiseAt = (1 : ℕ) / d.rate := by
    rw [risen, grid]
    norm_num
  have positive : 0 < d.rate := by
    rw [grid]
    norm_num
  exact ⟨c, w, d, trace, registered, compiled, device, found, rise,
    render_agrees emerged registered compiled (by decide +kernel) device positive found rise⟩

end Samples

end Sequence

end PulseSequencer
