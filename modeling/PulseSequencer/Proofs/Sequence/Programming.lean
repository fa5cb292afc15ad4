import PulseSequencer.Proofs.Sequence.Calls
import PulseSequencer.Proofs.Sequence.Loading

/-!
This module contains that channels are loaded in two phases: no device is touched before all buffers are made, and then
one channel after the other is stopped and written, up to the first failure.
-/

namespace PulseSequencer.Sequence

variable {α : Type} [Scalar α]

open ChannelDevice

section Within

variable {q r : Sequence α} {ids : List ChannelId}

structure Within (ids : List ChannelId) (q : Sequence α) (calls : List Issued) (r : Sequence α) : Prop where
  channels : ∀ i ∈ calls, i.channel ∈ ids
  others : ∀ ch, ch ∉ ids → r.devices.get? ch = q.devices.get? ch

theorem composes_within (ids : List ChannelId) : Composes (Within (α := α) ids) where
  refl := fun q => ⟨nofun, fun _ _ => rfl⟩
  trans := by
    intro q r s c d first second
    constructor
    · intro i mem
      exact (List.mem_append.mp mem).elim (first.channels i) (second.channels i)
    · intro ch other
      exact (second.others ch other).trans (first.others ch other)

theorem within_callTraced {ρ : Type} {ch : ChannelId} {name : String} {operation : Operation}
    {call : ChannelDevice α → Reply α (ChannelDevice α) ρ} (mem : ch ∈ ids) :
    Within ids q (q.callTraced ch name operation call).calls (q.callTraced ch name operation call).outcome.state := by
  unfold callTraced callChannel Table.contains
  cases here : q.devices.get? ch with
  | none => exact (composes_within ids).refl q
  | some d =>
    constructor
    · intro i issued
      obtain rfl := List.mem_singleton.mp issued
      exact mem
    · intro c other
      have apart : ch ≠ c := fun same => other (same ▸ mem)
      dsimp only
      rw [Table.get?_insert, if_neg apart]

theorem Within.mono {ids' : List ChannelId} {calls : List Issued} (within : Within ids q calls r) (more : ids ⊆ ids') :
    Within ids' q calls r where
  channels := fun i mem => more (within.channels i mem)
  others := fun ch other => within.others ch fun mem => other (more mem)

end Within

section Prepare

variable {q q' : Sequence α} {ch : ChannelId} {ids : List ChannelId}

/--
Whether no buffer can be made for a channel: it has no device, or it has something to play and the device does not tell
its rate, or the samples are too many to be counted.
-/
def Unready (q : Sequence α) (ch : ChannelId) : Prop :=
  q.devices.get? ch = none
    ∨ ∃ d w, q.devices.get? ch = some d ∧ q.compiled.get? ch = some w
      ∧ ((∃ cause, d.sampleRate.result = .error cause) ∨ w.normalizedSample d.rate d.minUnit = none)

/--
A sequence that differs from another one in the journals of its devices at most.
-/
structure Asked (q q' : Sequence α) : Prop where
  rest : q' = { q with devices := q'.devices }
  devices : ∀ ch, (q'.devices.get? ch).map unjournaled = (q.devices.get? ch).map unjournaled

/--
The calls of the first phase ask some of the devices for their rates, and leave nothing behind but entries in journals.
-/
structure Surveyed (ids : List ChannelId) (q : Sequence α) (calls : List Issued) (q' : Sequence α) : Prop
    extends Within ids q calls q' where
  asked : Asked q q'
  operations : ∀ i ∈ calls, i.operation = .sampleRate

theorem composes_surveyed (ids : List ChannelId) : Composes (Surveyed (α := α) ids) where
  refl := fun q => ⟨(composes_within ids).refl q, ⟨rfl, fun _ => rfl⟩, nofun⟩
  trans := by
    intro q r s c d first second
    refine ⟨(composes_within ids).trans first.toWithin second.toWithin, ⟨?_, ?_⟩, ?_⟩
    · rw [second.asked.rest, first.asked.rest]
    · exact fun ch => (second.asked.devices ch).trans (first.asked.devices ch)
    · intro i mem
      exact (List.mem_append.mp mem).elim (first.operations i) (second.operations i)

theorem surveyed_callTraced {name : String} (mem : ch ∈ ids) :
    Surveyed ids q (q.callTraced ch name .sampleRate (·.sampleRate)).calls
      (q.callTraced ch name .sampleRate (·.sampleRate)).outcome.state := by
  refine { toWithin := within_callTraced mem, asked := ?_, operations := ?_ }
  · unfold callTraced callChannel
    cases here : q.devices.get? ch with
    | none => exact ⟨rfl, fun _ => rfl⟩
    | some d =>
      refine ⟨rfl, ?_⟩
      intro c
      dsimp only
      rw [Table.get?_insert]
      split
      · rename_i same
        rw [← same, here, Option.map_some, Option.map_some, unjournaled_sampleRate]
      · rfl
  · unfold callTraced
    dsimp only
    split
    · intro i asked
      rw [List.mem_singleton.mp asked]
    · intro i asked
      cases asked

theorem surveyed_prepareAll (ids : List ChannelId) (q : Sequence α) :
    Surveyed ids q (prepareAllTraced ids q).calls (prepareAllTraced ids q).outcome.state := by
  apply (composes_surveyed ids).prepareAllTraced
  intro ch mem r
  exact (composes_surveyed ids).prepareTraced fun name => surveyed_callTraced mem

theorem surveyed_prepare (q : Sequence α) (ch : ChannelId) : Asked q (q.prepareTraced ch).outcome.state :=
  ((composes_surveyed [ch]).prepareTraced fun _ => surveyed_callTraced (List.mem_singleton.mpr rfl)).asked

theorem grid_of_asked (asked : Asked q q') {d : ChannelDevice α} (here : q.devices.get? ch = some d) :
    ∃ d', q'.devices.get? ch = some d' ∧ SameGrid d d' := by
  have devices := asked.devices ch
  rw [here, Option.map_some, Option.map_eq_some_iff] at devices
  obtain ⟨d', found, same⟩ := devices
  exact ⟨d', found, sameGrid_of_unjournaled same⟩

theorem unready_congr (asked : Asked q q') : Unready q' ch ↔ Unready q ch := by
  have devices := asked.devices ch
  have compiled : q'.compiled = q.compiled := by rw [asked.rest]
  unfold Unready
  rw [compiled]
  cases here : q.devices.get? ch with
  | none =>
    rw [here, Option.map_none, Option.map_eq_none_iff] at devices
    simp [devices]
  | some d =>
    rw [here, Option.map_some, Option.map_eq_some_iff] at devices
    obtain ⟨d', found, same⟩ := devices
    have grid := sameGrid_of_unjournaled same
    simp [found, result_sampleRate_congr same, grid.1, grid.2]

theorem prepare_fails_iff : (∃ cause, (q.prepareTraced ch).outcome.result = .error cause) ↔ Unready q ch := by
  rw [outcome_prepareTraced]
  unfold prepare Unready compiled?
  dsimp only
  cases here : q.devices.get? ch with
  | none => simp [Outcome.failed]
  | some d =>
    cases compiled : q.compiled.get? ch with
    | none => simp [Outcome.done]
    | some w =>
      dsimp only
      rw [Outcome.result_andThen]
      unfold callChannel
      rw [here]
      dsimp only
      cases told : d.sampleRate.result with
      | error cause => simp [told, Except.mapError, Except.bind]
      | ok rate =>
        rw [result_sampleRate told]
        unfold makeLoad
        cases sampled : w.normalizedSample d.rate d.minUnit with
        | none => simp [sampled, Except.mapError, Except.bind, Outcome.failed]
        | some buffer => simp [told, sampled, Except.mapError, Except.bind, Outcome.done]

theorem prepareAll_fails_iff :
    (∃ cause, (prepareAllTraced ids q).outcome.result = .error cause) ↔ ∃ ch ∈ ids, Unready q ch := by
  induction ids generalizing q with
  | nil => simp [prepareAllTraced, Traced.silent, Outcome.done]
  | cons ch rest ih =>
    have asked := surveyed_prepare q ch
    have others : (∃ c ∈ rest, Unready (q.prepareTraced ch).outcome.state c) ↔ ∃ c ∈ rest, Unready q c := by
      simp only [unready_congr asked]
    rw [List.exists_mem_cons_iff, ← others, ← ih, ← prepare_fails_iff]
    simp only [prepareAllTraced, Traced.andThen, Traced.silent, Outcome.result_andThen]
    cases (q.prepareTraced ch).outcome.result with
    | error cause => simp [Except.bind]
    | ok load =>
      simp only [Except.bind]
      cases (prepareAllTraced rest (q.prepareTraced ch).outcome.state).outcome.result with
      | error cause => simp
      | ok loads => simp [Outcome.done]

theorem channel_of_prepare {load : Load α} (ok : (q.prepare ch).result = .ok load) : load.channel = ch := by
  unfold prepare at ok
  dsimp only at ok
  split at ok
  · cases ok
  · cases ok
    rfl
  · rw [Outcome.result_andThen_eq_ok_iff] at ok
    obtain ⟨_, _, made⟩ := ok
    obtain ⟨_, _, rfl⟩ := makeLoad_eq_ok_iff.mp made
    rfl

theorem channels_of_prepareAll {loads : List (Load α)} (ok : (prepareAll ids q).result = .ok loads) :
    loads.map (·.channel) = ids := by
  induction ids generalizing q loads with
  | nil =>
    cases ok
    rfl
  | cons ch rest ih =>
    unfold prepareAll at ok
    rw [Outcome.result_andThen_eq_ok_iff] at ok
    obtain ⟨load, first, ok⟩ := ok
    rw [Outcome.result_andThen_eq_ok_iff] at ok
    obtain ⟨others, later, done⟩ := ok
    cases done
    rw [List.map_cons, channel_of_prepare first, ih later]

end Prepare

section Load

variable {q r : Sequence α} {load : Load α} {loads : List (Load α)}

def service (load : Load α) : List Issued :=
  ⟨load.channel, .stop, true⟩ :: if load.buffer.isSome then [⟨load.channel, .writeRawWaveform, true⟩] else []

def Refused (load : Load α) (calls : List Issued) : Prop :=
  calls = [⟨load.channel, .stop, false⟩]
    ∨ load.buffer.isSome = true ∧ calls = [⟨load.channel, .stop, true⟩, ⟨load.channel, .writeRawWaveform, false⟩]

def Stocked (q : Sequence α) (load : Load α) : Prop :=
  ∃ d, q.devices.get? load.channel = some d ∧ d.state.running = false
    ∧ ∀ buffer, load.buffer = some buffer → (d.state.samples, d.state.amplitude) = buffer

structure Served (loads : List (Load α)) (q r : Sequence α) : Prop where
  pending : ∀ ch, ch ∈ r.pendingProgram ↔ ch ∈ q.pendingProgram ∧ ch ∉ loads.map (·.channel)
  stocked : ∀ load ∈ loads, Stocked r load

structure Confined (ids : List ChannelId) (q : Sequence α) (calls : List Issued) (r : Sequence α) : Prop
    extends Within ids q calls r where
  programmed : r.programmed = q.programmed

theorem composes_confined (ids : List ChannelId) : Composes (Confined (α := α) ids) where
  refl := fun q => ⟨(composes_within ids).refl q, rfl⟩
  trans := by
    intro q r s c d first second
    exact ⟨(composes_within ids).trans first.toWithin second.toWithin, second.programmed.trans first.programmed⟩

theorem confined_callTraced {ρ : Type} {ids : List ChannelId} {ch : ChannelId} {name : String} {operation : Operation}
    {call : ChannelDevice α → Reply α (ChannelDevice α) ρ} (mem : ch ∈ ids) :
    Confined ids q (q.callTraced ch name operation call).calls (q.callTraced ch name operation call).outcome.state := by
  refine ⟨within_callTraced mem, ?_⟩
  unfold callTraced callChannel
  cases q.devices.get? ch with
  | none => rfl
  | some d => rfl

theorem confined_loadOne {ids : List ChannelId} (mem : load.channel ∈ ids) (q : Sequence α) :
    Confined ids q (loadOneTraced load q).calls (loadOneTraced load q).outcome.state := by
  apply (composes_confined ids).loadOneTraced
  · exact confined_callTraced mem
  · intro r
    unfold writeTraced
    cases load.buffer with
    | none => exact (composes_confined ids).refl r
    | some buffer => exact confined_callTraced mem
  · exact fun r => ⟨⟨nofun, fun _ _ => rfl⟩, rfl⟩

theorem callTraced_of_device {ρ : Type} {ch : ChannelId} {d : ChannelDevice α} (here : q.devices.get? ch = some d)
    (name : String) (operation : Operation) (call : ChannelDevice α → Reply α (ChannelDevice α) ρ) :
    q.callTraced ch name operation call
      = ⟨⟨(call d).result.mapError (.device name operation), { q with devices := q.devices.insert ch (call d).device },
        (call d).events⟩, [⟨ch, operation, (call d).result.isOk⟩]⟩ := by
  unfold callTraced callChannel Table.contains
  rw [here]
  dsimp only
  rw [isOk_mapError]
  rfl

theorem pendingProgram_callTraced {ρ : Type} (ch : ChannelId) (name : String) (operation : Operation)
    (call : ChannelDevice α → Reply α (ChannelDevice α) ρ) :
    (q.callTraced ch name operation call).outcome.state.pendingProgram = q.pendingProgram := by
  unfold callTraced callChannel
  cases q.devices.get? ch with
  | none => rfl
  | some device => rfl

theorem pendingProgram_writeTraced (load : Load α) (q : Sequence α) :
    (writeTraced load q).outcome.state.pendingProgram = q.pendingProgram := by
  unfold writeTraced
  cases load.buffer with
  | none => rfl
  | some buffer => exact pendingProgram_callTraced ..

theorem stopTraced_cases {d : ChannelDevice α} (here : q.devices.get? load.channel = some d) :
    ((stopTraced load q).outcome.result = .ok ()
        ∧ (stopTraced load q).calls = [⟨load.channel, .stop, true⟩]
        ∧ ∃ d', (stopTraced load q).outcome.state.devices.get? load.channel = some d' ∧ d'.state.running = false)
      ∨ ∃ cause, (stopTraced load q).outcome.result = .error cause
        ∧ (stopTraced load q).calls = [⟨load.channel, .stop, false⟩] := by
  unfold stopTraced
  rw [callTraced_of_device here]
  dsimp only
  cases stop : d.stop.result with
  | error cause => exact .inr ⟨_, rfl, rfl⟩
  | ok _ => exact .inl ⟨rfl, rfl, d.stop.device, (Table.get?_insert ..).trans (if_pos rfl), running_stop stop⟩

theorem writeTraced_cases {d : ChannelDevice α} (here : q.devices.get? load.channel = some d)
    (at_rest : d.state.running = false) :
    ((writeTraced load q).outcome.result = .ok ()
        ∧ (writeTraced load q).calls = (if load.buffer.isSome then [⟨load.channel, .writeRawWaveform, true⟩] else [])
        ∧ Stocked (writeTraced load q).outcome.state load)
      ∨ ∃ cause, (writeTraced load q).outcome.result = .error cause ∧ load.buffer.isSome = true
        ∧ (writeTraced load q).calls = [⟨load.channel, .writeRawWaveform, false⟩] := by
  unfold writeTraced
  cases buffer : load.buffer with
  | none =>
    refine .inl ⟨rfl, rfl, d, here, at_rest, ?_⟩
    rw [buffer]
    exact nofun
  | some b =>
    obtain ⟨samples, peak⟩ := b
    dsimp only
    rw [callTraced_of_device here]
    dsimp only
    rcases write_cases d samples peak with ⟨cause, failed, _⟩ | ⟨ok, device⟩
    · rw [failed]
      exact .inr ⟨_, rfl, rfl, rfl⟩
    · rw [ok]
      refine .inl ⟨rfl, rfl, (d.write samples peak).device, (Table.get?_insert ..).trans (if_pos rfl), ?_, ?_⟩
      · rw [device]
        exact at_rest
      · intro b same
        rw [buffer] at same
        cases same
        rw [device]

theorem loadOne_cases {d : ChannelDevice α} (here : q.devices.get? load.channel = some d) :
    ((loadOneTraced load q).outcome.result = .ok ()
        ∧ (loadOneTraced load q).calls = service load
        ∧ Served [load] q (loadOneTraced load q).outcome.state)
      ∨ ∃ cause, (loadOneTraced load q).outcome.result = .error cause
        ∧ Refused load (loadOneTraced load q).calls
        ∧ (loadOneTraced load q).outcome.state.pendingProgram = q.pendingProgram := by
  have waiting : (stopTraced load q).outcome.state.pendingProgram = q.pendingProgram := pendingProgram_callTraced ..
  unfold loadOneTraced
  rcases stopTraced_cases here with ⟨stopped, calls, d', there, at_rest⟩ | ⟨cause, failed, calls⟩
  · rw [Traced.result_of_ok stopped, Traced.state_of_ok stopped, Traced.calls_of_ok stopped, calls]
    have still := (pendingProgram_writeTraced load (stopTraced load q).outcome.state).trans waiting
    rcases writeTraced_cases there at_rest with ⟨written, calls, stocked⟩ | ⟨cause, failed, buffer, calls⟩
    · rw [Traced.result_of_ok written, Traced.state_of_ok written, Traced.calls_of_ok written, calls]
      refine .inl ⟨rfl, ?_, ?_, ?_⟩
      · rw [service, Traced.silent, List.append_nil]
        rfl
      · intro ch
        rw [List.map_singleton, List.mem_singleton, ← still]
        exact ChannelSet.mem_erase
      · intro l mem
        obtain rfl := List.mem_singleton.mp mem
        exact stocked
    · rw [Traced.result_of_error failed, Traced.state_of_error failed, Traced.calls_of_error failed, calls]
      exact .inr ⟨cause, rfl, .inr ⟨buffer, rfl⟩, still⟩
  · rw [Traced.result_of_error failed, Traced.state_of_error failed, Traced.calls_of_error failed]
    exact .inr ⟨cause, rfl, .inl calls, waiting⟩

theorem Stocked.confined {ids : List ChannelId} {calls : List Issued} {r s : Sequence α} (stocked : Stocked r load)
    (confined : Confined ids r calls s) (mem : load.channel ∉ ids) : Stocked s load := by
  obtain ⟨d, here, at_rest, buffer⟩ := stocked
  exact ⟨d, (confined.others load.channel mem).trans here, at_rest, buffer⟩

theorem Served.cons {ids : List ChannelId} {calls : List Issued} {r s : Sequence α} (first : Served [load] q r)
    (later : Served loads r s) (confined : Confined ids r calls s) (mem : load.channel ∉ ids) :
    Served (load :: loads) q s := by
  refine ⟨?_, List.forall_mem_cons.mpr ⟨?_, later.stocked⟩⟩
  · intro ch
    rw [later.pending, first.pending, List.map_singleton, List.mem_singleton, List.map_cons, List.mem_cons, not_or,
      and_assoc]
  · exact (first.stocked load (List.mem_singleton.mpr rfl)).confined confined mem

theorem confined_forAll (loads : List (Load α)) (q : Sequence α) :
    Confined (loads.map (·.channel)) q (forAllTraced loadOneTraced loads q).calls
      (forAllTraced loadOneTraced loads q).outcome.state := by
  apply (composes_confined _).forAllTraced
  intro load mem r
  exact confined_loadOne (List.mem_map_of_mem mem) r

theorem forAll_cases (distinct : (loads.map (·.channel)).Nodup)
    (present : ∀ load ∈ loads, ∃ d, q.devices.get? load.channel = some d) :
    ((forAllTraced loadOneTraced loads q).outcome.result = .ok ()
        ∧ (forAllTraced loadOneTraced loads q).calls = loads.flatMap service
        ∧ Served loads q (forAllTraced loadOneTraced loads q).outcome.state)
      ∨ ∃ before load after cause last, loads = before ++ load :: after
        ∧ (forAllTraced loadOneTraced loads q).outcome.result = .error cause
        ∧ (forAllTraced loadOneTraced loads q).calls = before.flatMap service ++ last
        ∧ Refused load last
        ∧ Served before q (forAllTraced loadOneTraced loads q).outcome.state
        ∧ Confined ((before ++ [load]).map (·.channel)) q (forAllTraced loadOneTraced loads q).calls
          (forAllTraced loadOneTraced loads q).outcome.state := by
  induction loads generalizing q with
  | nil => exact .inl ⟨rfl, rfl, fun ch => by simp [forAllTraced, Traced.silent, Outcome.done], nofun⟩
  | cons load rest ih =>
    rw [List.map_cons, List.nodup_cons] at distinct
    rw [List.forall_mem_cons] at present
    obtain ⟨d, here⟩ := present.1
    have alone : Confined [load.channel] q _ _ := confined_loadOne (List.mem_singleton.mpr rfl) q
    unfold forAllTraced
    rcases loadOne_cases here with ⟨done, calls, served⟩ | ⟨cause, failed, refused, waiting⟩
    · -- The channels are distinct, so this load has left the devices of the later ones in place.
      have others : ∀ l ∈ rest, ∃ d, (loadOneTraced load q).outcome.state.devices.get? l.channel = some d := by
        intro l mem
        have apart : l.channel ∉ [load.channel] := by
          rw [List.mem_singleton]
          exact fun same => distinct.1 (same ▸ List.mem_map_of_mem mem)
        rw [alone.others l.channel apart]
        exact present.2 l mem
      rw [Traced.result_of_ok done, Traced.state_of_ok done, Traced.calls_of_ok done]
      rcases ih distinct.2 others with ⟨ok, calls', served'⟩ | ⟨before, l, after, cause, last, rfl, failed, calls', refused,
        served', confined⟩
      · refine .inl ⟨ok, ?_, served.cons served' (confined_forAll rest _) distinct.1⟩
        rw [calls, calls', List.flatMap_cons]
      · have some_of : (before ++ [l]).map (·.channel) ⊆ (before ++ l :: after).map (·.channel) := by
          apply List.map_subset
          simp
        refine .inr ⟨load :: before, l, after, cause, last, rfl, failed, ?_, refused, ?_, ?_⟩
        · rw [calls, calls', List.flatMap_cons, List.append_assoc]
        · exact served.cons served' confined fun mem => distinct.1 (some_of mem)
        · apply (composes_confined _).trans
          · exact ⟨alone.mono (by simp), alone.programmed⟩
          · exact ⟨confined.mono (by simp), confined.programmed⟩
    · rw [Traced.result_of_error failed, Traced.state_of_error failed, Traced.calls_of_error failed]
      refine .inr ⟨[], load, rest, cause, _, rfl, rfl, rfl, refused, ⟨?_, nofun⟩, alone⟩
      rw [waiting]
      simp

end Load

section Phases

variable {q r : Sequence α}

structure Prepared (q : Sequence α) (loads : List (Load α)) (asks : List Issued) (r : Sequence α) : Prop where
  surveyed : Surveyed q.pendingProgram.ids q asks r
  channels : loads.map (·.channel) = q.pendingProgram.ids
  ready : ∀ ch ∈ q.pendingProgram, ¬ Unready q ch
  fit : ∀ load ∈ loads, ∀ d, q.devices.get? load.channel = some d →
    load.buffer.map some = (q.compiled.get? load.channel).map (·.normalizedSample d.rate d.minUnit)

theorem state_of_asked (asked : Asked q r) (ch : ChannelId) :
    (r.devices.get? ch).map (·.state) = (q.devices.get? ch).map (·.state) := by
  have devices := congrArg (Option.map ChannelDevice.state) (asked.devices ch)
  rw [Option.map_map, Option.map_map] at devices
  exact devices

theorem prepared_of_ok {loads : List (Load α)}
    (ok : (prepareAllTraced q.pendingProgram.ids q).outcome.result = .ok loads) :
    Prepared q loads (prepareAllTraced q.pendingProgram.ids q).calls
      (prepareAllTraced q.pendingProgram.ids q).outcome.state := by
  have surveyed := surveyed_prepareAll q.pendingProgram.ids q
  have plain := ok
  rw [outcome_prepareAllTraced] at plain
  obtain ⟨driven, fit⟩ := prepareAll_of_ok plain
  refine ⟨surveyed, channels_of_prepareAll plain, ?_, ?_⟩
  · intro ch waiting unready
    obtain ⟨cause, failed⟩ := prepareAll_fails_iff.mpr ⟨ch, waiting, unready⟩
    rw [ok] at failed
    cases failed
  · intro load mem d here
    obtain ⟨d', found, rate, unit⟩ := grid_of_asked surveyed.asked here
    rw [outcome_prepareAllTraced] at found
    rw [fit load mem d' found, driven.compiled, rate, unit]

theorem waiting_of_prepared {loads : List (Load α)} {asks : List Issued} {load : Load α}
    (prepared : Prepared q loads asks r) (mem : load ∈ loads) : load.channel ∈ q.pendingProgram := by
  rw [ChannelSet.mem_def, ← prepared.channels]
  exact List.mem_map_of_mem mem

theorem exists_device_of_ready {ch : ChannelId} (ready : ¬ Unready q ch) : ∃ d, q.devices.get? ch = some d := by
  cases here : q.devices.get? ch with
  | none => exact absurd (.inl here) ready
  | some d => exact ⟨d, rfl⟩

theorem present_of_prepared {loads : List (Load α)} {asks : List Issued} (prepared : Prepared q loads asks r) :
    ∀ load ∈ loads, ∃ d, r.devices.get? load.channel = some d := by
  intro load mem
  obtain ⟨d, here⟩ := exists_device_of_ready (prepared.ready load.channel (waiting_of_prepared prepared mem))
  obtain ⟨d', found, _⟩ := grid_of_asked prepared.surveyed.asked here
  exact ⟨d', found⟩

theorem program_cases (q : Sequence α) :
    (∃ cause, q.program.result = .error cause
        ∧ (∃ ch ∈ q.pendingProgram, Unready q ch)
        ∧ Surveyed q.pendingProgram.ids q q.programCalls q.program.state)
      ∨ (∃ loads asks r, Prepared q loads asks r
        ∧ ∃ before load after cause last, loads = before ++ load :: after
          ∧ q.program.result = .error cause
          ∧ q.programCalls = asks ++ (before.flatMap service ++ last)
          ∧ Refused load last
          ∧ Served before r q.program.state
          ∧ Confined ((before ++ [load]).map (·.channel)) r (before.flatMap service ++ last) q.program.state)
      ∨ ∃ loads asks r s, Prepared q loads asks r
        ∧ q.program.result = .ok loads.length
        ∧ q.programCalls = asks ++ loads.flatMap service
        ∧ q.program.state = { s with programmed := true }
        ∧ Served loads r s
        ∧ Confined (loads.map (·.channel)) r (loads.flatMap service) s := by
  rw [← outcome_programTraced]
  unfold programCalls programTraced
  cases ready : (prepareAllTraced q.pendingProgram.ids q).outcome.result with
  | error cause =>
    rw [Traced.result_of_error ready, Traced.state_of_error ready, Traced.calls_of_error ready]
    exact .inl ⟨cause, rfl, prepareAll_fails_iff.mp ⟨cause, ready⟩, surveyed_prepareAll q.pendingProgram.ids q⟩
  | ok loads =>
    have prepared := prepared_of_ok ready
    have distinct : (loads.map (·.channel)).Nodup := prepared.channels ▸ q.pendingProgram.nodup_ids
    rw [Traced.result_of_ok ready, Traced.state_of_ok ready, Traced.calls_of_ok ready]
    rcases forAll_cases distinct (present_of_prepared prepared) with ⟨ok, calls, served⟩ | ⟨before, load, after, cause, last,
      split, failed, calls, refused, served, confined⟩
    · have confined := confined_forAll loads (prepareAllTraced q.pendingProgram.ids q).outcome.state
      rw [Traced.result_of_ok ok, Traced.state_of_ok ok, Traced.calls_of_ok ok]
      rw [calls] at confined ⊢
      refine .inr (.inr ⟨loads, _, _, _, prepared, rfl, ?_, rfl, served, confined⟩)
      rw [Traced.silent, List.append_nil]
    · rw [Traced.result_of_error failed, Traced.state_of_error failed, Traced.calls_of_error failed]
      rw [calls] at confined ⊢
      exact .inr (.inl ⟨loads, _, _, prepared, before, load, after, cause, last, split, rfl, rfl, refused, served,
        confined⟩)

end Phases

end PulseSequencer.Sequence
