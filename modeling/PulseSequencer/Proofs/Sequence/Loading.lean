import PulseSequencer.Proofs.Device.Channel
import PulseSequencer.Proofs.Sequence.Compilation
import PulseSequencer.Proofs.Registry
import PulseSequencer.Proofs.Sequence.Run

/-!
This module contains the proof that the devices play what was compiled: in every state a device that does not wait to be
loaded holds the samples of the compiled waveform of its channel, or is at rest if there is none.
-/

namespace PulseSequencer.Sequence

variable {α : Type} [Scalar α]

open ChannelDevice

/--
The commands that leave all devices in place, and that hand over devices which are at rest.
-/
def Attended : Command α → Sequence α → Prop
  | .linkChannel _ _ device, _ => device.state.running = false
  | .dropDevice _, _ => False
  | _, _ => True

structure Loaded (q : Sequence α) : Prop where
  registered : ∀ ch, (q.compiled.get? ch).isSome → ch.index < q.registry.channels.length
  ready : ∀ ch d, q.devices.get? ch = some d → ch ∉ q.pendingProgram → Holds (q.compiled.get? ch) d

section Calls

variable {ρ : Type} {q : Sequence α} {ch c : ChannelId} {name : String} {operation : Operation}
  {call : ChannelDevice α → Reply α (ChannelDevice α) ρ}

theorem device_callChannel {d : ChannelDevice α} (here : q.devices.get? ch = some d) :
    (q.callChannel ch name operation call).state.devices.get? c
      = if ch = c then some (call d).device else q.devices.get? c := by
  unfold callChannel
  rw [here]
  exact Table.get?_insert ..

theorem result_callChannel {d : ChannelDevice α} (here : q.devices.get? ch = some d) {r : ρ}
    (ok : (q.callChannel ch name operation call).result = .ok r) : (call d).result = .ok r := by
  unfold callChannel at ok
  rw [here] at ok
  dsimp only at ok
  cases h : (call d).result with
  | error cause =>
    rw [h] at ok
    cases ok
  | ok r' =>
    rw [h] at ok
    exact congrArg Except.ok (Except.ok.inj ok)

theorem Loaded.callChannel (loaded : Loaded q)
    (keeps : ∀ d, q.devices.get? ch = some d → Holds (q.compiled.get? ch) d → Holds (q.compiled.get? ch) (call d).device) :
    Loaded (q.callChannel ch name operation call).state := by
  cases here : q.devices.get? ch with
  | none =>
    unfold Sequence.callChannel
    rw [here]
    exact loaded
  | some d =>
    have same : SameCycle q (q.callChannel ch name operation call).state := sameCycle_callChannel ..
    have pending : (q.callChannel ch name operation call).state.pendingProgram = q.pendingProgram := by
      unfold Sequence.callChannel
      rw [here]
    refine ⟨?_, ?_⟩
    · rw [same.compiled, same.registry]
      exact loaded.registered
    · intro c d' found waiting
      rw [device_callChannel here] at found
      rw [pending] at waiting
      rw [same.compiled]
      split at found
      · rename_i at_channel
        subst at_channel
        cases found
        exact keeps d here (loaded.ready ch d here waiting)
      · exact loaded.ready c d' found waiting

end Calls

structure Driven (q q' : Sequence α) : Prop where
  compiled : q'.compiled = q.compiled
  grids : ∀ ch d', q'.devices.get? ch = some d' → ∃ d, q.devices.get? ch = some d ∧ SameGrid d d'

namespace Driven

variable {q q' q'' : Sequence α}

theorem refl (q : Sequence α) : Driven q q := ⟨rfl, fun _ d found => ⟨d, found, rfl, rfl⟩⟩

theorem trans (h : Driven q q') (h' : Driven q' q'') : Driven q q'' := by
  refine ⟨h'.compiled.trans h.compiled, fun ch d'' found => ?_⟩
  obtain ⟨d', found', grid'⟩ := h'.grids ch d'' found
  obtain ⟨d, here, grid⟩ := h.grids ch d' found'
  exact ⟨d, here, grid'.1.trans grid.1, grid'.2.trans grid.2⟩

theorem callChannel {ρ : Type} {ch : ChannelId} {name : String} {operation : Operation}
    {call : ChannelDevice α → Reply α (ChannelDevice α) ρ} (grid : ∀ d, SameGrid d (call d).device) :
    Driven q (q.callChannel ch name operation call).state := by
  cases here : q.devices.get? ch with
  | none =>
    unfold Sequence.callChannel
    rw [here]
    exact .refl q
  | some d =>
    have same : SameCycle q (q.callChannel ch name operation call).state := sameCycle_callChannel ..
    refine ⟨same.compiled, fun c d' found => ?_⟩
    rw [device_callChannel here] at found
    split at found
    · rename_i at_channel
      subst at_channel
      cases found
      exact ⟨d, here, grid d⟩
    · exact ⟨d', found, rfl, rfl⟩

end Driven

def Matches (q : Sequence α) (load : Load α) : Prop :=
  ∀ d, q.devices.get? load.channel = some d →
    load.buffer.map some = (q.compiled.get? load.channel).map (·.normalizedSample d.rate d.minUnit)

section Program

variable {q q' : Sequence α} {ch : ChannelId} {load : Load α}

theorem Matches.driven (h : Matches q load) (driven : Driven q q') : Matches q' load := by
  intro d' found
  obtain ⟨d, here, rate, unit⟩ := driven.grids load.channel d' found
  rw [h d here, driven.compiled, rate, unit]

theorem driven_prepare (q : Sequence α) (ch : ChannelId) : Driven q (q.prepare ch).state :=
  prepare_invariant (.refl q) (.callChannel sameGrid_sampleRate)

theorem Loaded.prepare (loaded : Loaded q) (ch : ChannelId) : Loaded (q.prepare ch).state :=
  prepare_invariant loaded (loaded.callChannel fun _ _ h => holds_sampleRate h)

theorem matches_prepare (ok : (q.prepare ch).result = .ok load) : Matches (q.prepare ch).state load := by
  have driven := driven_prepare q ch
  suffices Matches q load from this.driven driven
  intro d found
  unfold prepare at ok
  dsimp only at ok
  split at ok
  · cases ok
  · rename_i nothing
    cases ok
    unfold compiled? at nothing
    rw [nothing]
    rfl
  · rename_i device w here compiled
    rw [Outcome.result_andThen_eq_ok_iff] at ok
    obtain ⟨rate, asked, made⟩ := ok
    obtain ⟨buffer, normalized, rfl⟩ := makeLoad_eq_ok_iff.mp made
    obtain rfl : device = d := Option.some.inj (here.symm.trans found)
    have exact_rate := result_sampleRate (result_callChannel here asked)
    unfold compiled? at compiled
    rw [compiled, Option.map_some, Option.map_some, ← exact_rate, normalized]

theorem prepareAll_of_ok {ids : List ChannelId} {loads : List (Load α)} (ok : (prepareAll ids q).result = .ok loads) :
    Driven q (prepareAll ids q).state ∧ ∀ load ∈ loads, Matches (prepareAll ids q).state load := by
  induction ids generalizing q loads with
  | nil =>
    cases ok
    exact ⟨.refl q, nofun⟩
  | cons ch rest ih =>
    unfold prepareAll at ok ⊢
    rw [Outcome.result_andThen_eq_ok_iff] at ok
    obtain ⟨first, prepared, ok⟩ := ok
    rw [Outcome.result_andThen_eq_ok_iff] at ok
    obtain ⟨others, later, done⟩ := ok
    cases done
    obtain ⟨driven, fit⟩ := ih later
    rw [Outcome.state_andThen_of_ok prepared, Outcome.state_andThen_of_ok later]
    refine ⟨(driven_prepare q ch).trans driven, ?_⟩
    intro load mem
    rcases List.mem_cons.mp mem with rfl | mem
    · exact (matches_prepare prepared).driven driven
    · exact fit load mem

theorem driven_writeLoad (load : Load α) (q : Sequence α) : Driven q (writeLoad load q).state := by
  unfold writeLoad
  split
  · exact .callChannel fun d => sameGrid_write d _ _
  · exact .refl q

theorem driven_loadOne (load : Load α) (q : Sequence α) : Driven q (loadOne load q).state := by
  rw [loadOne_eq]
  have stopped : Driven q (q.callChannel load.channel load.name .stop (·.stop)).state := .callChannel sameGrid_stop
  apply andThen_invariant stopped
  intro _
  have written := stopped.trans (driven_writeLoad load _)
  exact andThen_invariant written fun _ => written.trans ⟨rfl, fun _ d found => ⟨d, found, rfl, rfl⟩⟩

theorem Loaded.writeLoad (loaded : Loaded q) (fit : Matches q load) : Loaded (writeLoad load q).state := by
  unfold Sequence.writeLoad
  cases buffer : load.buffer with
  | none => exact loaded
  | some b =>
    obtain ⟨samples, peak⟩ := b
    apply loaded.callChannel
    intro d here h
    rcases write_cases d samples peak with ⟨_, _, device⟩ | ⟨ok, _⟩
    · rw [device]
      exact h
    · have same := fit d here
      rw [buffer] at same
      obtain ⟨w, compiled, normalized⟩ := Option.map_eq_some_iff.mp same.symm
      rw [compiled]
      exact holds_write normalized ok

theorem holds_loadOne (fit : Matches q load)
    (stopped : (q.callChannel load.channel load.name .stop (·.stop)).result = .ok ())
    (written : (Sequence.writeLoad load (q.callChannel load.channel load.name .stop (·.stop)).state).result = .ok ())
    {d : ChannelDevice α} (found : (Sequence.writeLoad load
      (q.callChannel load.channel load.name .stop (·.stop)).state).state.devices.get? load.channel = some d) :
    Holds (q.compiled.get? load.channel) d := by
  cases here : q.devices.get? load.channel with
  | none =>
    unfold callChannel at stopped
    rw [here] at stopped
    cases stopped
  | some device =>
    have at_rest := running_stop (result_callChannel here stopped)
    have between : (q.callChannel load.channel load.name .stop (·.stop)).state.devices.get? load.channel
        = some device.stop.device := by
      rw [device_callChannel here, if_pos rfl]
    have same := fit device here
    have grid := sameGrid_stop device
    unfold Sequence.writeLoad at written found
    cases buffer : load.buffer with
    | none =>
      rw [buffer] at same found
      obtain rfl := Option.some.inj (between.symm.trans found)
      rw [Option.map_eq_none_iff.mp same.symm]
      exact at_rest
    | some b =>
      obtain ⟨samples, peak⟩ := b
      rw [buffer] at same written found
      obtain ⟨w, compiled, normalized⟩ := Option.map_eq_some_iff.mp same.symm
      rw [device_callChannel between, if_pos rfl] at found
      cases found
      rw [compiled]
      apply holds_write
      · rw [grid.1, grid.2, normalized]
      · exact result_callChannel between written

theorem loadOne_invariant {P : Sequence α → Prop} (fit : Matches q load)
    (stopped : P (q.callChannel load.channel load.name .stop (·.stop)).state)
    (written : ∀ r, P r → Matches r load → P (writeLoad load r).state)
    (ready : ∀ r, P r → (∀ d, r.devices.get? load.channel = some d → Holds (r.compiled.get? load.channel) d) →
      P { r with pendingProgram := r.pendingProgram.erase load.channel }) :
    P (loadOne load q).state := by
  rw [loadOne_eq]
  have driven : Driven q (q.callChannel load.channel load.name .stop (·.stop)).state := .callChannel sameGrid_stop
  cases stop : (q.callChannel load.channel load.name .stop (·.stop)).result with
  | error cause =>
    rw [Outcome.state_andThen_of_error stop]
    exact stopped
  | ok _ =>
    rw [Outcome.state_andThen_of_ok stop]
    have loaded := written _ stopped (fit.driven driven)
    cases write : (writeLoad load (q.callChannel load.channel load.name .stop (·.stop)).state).result with
    | error cause =>
      rw [Outcome.state_andThen_of_error write]
      exact loaded
    | ok _ =>
      rw [Outcome.state_andThen_of_ok write]
      -- The channel stops waiting only after both calls, when its device is ready.
      apply ready _ loaded
      intro d found
      rw [(driven.trans (driven_writeLoad load _)).compiled]
      exact holds_loadOne fit stop write found

theorem Loaded.loadOne (loaded : Loaded q) (fit : Matches q load) : Loaded (loadOne load q).state := by
  apply loadOne_invariant fit
  · exact loaded.callChannel fun _ _ h => holds_stop h
  · exact fun _ stopped fit => stopped.writeLoad fit
  · intro r written ready
    refine ⟨written.registered, fun c d found waiting => ?_⟩
    simp only [ChannelSet.mem_erase, not_and_or, ne_eq, not_not] at waiting
    rcases waiting with waiting | rfl
    · exact written.ready c d found waiting
    · exact ready d found

theorem program_invariant {P : Sequence α → Prop} (start : P q)
    (asked : ∀ (ch : ChannelId) r, P r → P (r.prepare ch).state)
    (loaded : ∀ load r, P r → Matches r load → P (loadOne load r).state)
    (done : ∀ r, P r → P { r with programmed := true }) : P q.program.state := by
  unfold Sequence.program
  have prepared : P (prepareAll q.pendingProgram.ids q).state := prepareAll_invariant (fun ch _ => asked ch) start
  cases ready : (prepareAll q.pendingProgram.ids q).result with
  | error cause =>
    rw [Outcome.state_andThen_of_error ready]
    exact prepared
  | ok loads =>
    obtain ⟨_, fit⟩ := prepareAll_of_ok ready
    rw [Outcome.state_andThen_of_ok ready]
    -- Loads stay fit while others are brought to their channels.
    have finished : Driven (prepareAll q.pendingProgram.ids q).state
          (forAll Sequence.loadOne loads (prepareAll q.pendingProgram.ids q).state).state
        ∧ P (forAll Sequence.loadOne loads (prepareAll q.pendingProgram.ids q).state).state := by
      apply forAll_invariant Sequence.loadOne (P := fun r => Driven (prepareAll q.pendingProgram.ids q).state r ∧ P r)
      · rintro load mem r ⟨driven, held⟩
        exact ⟨driven.trans (driven_loadOne load r), loaded load r held ((fit load mem).driven driven)⟩
      · exact ⟨.refl _, prepared⟩
    exact andThen_invariant finished.2 fun _ => done _ finished.2

theorem Loaded.program (loaded : Loaded q) : Loaded q.program.state := by
  apply program_invariant loaded
  · exact fun ch _ h => h.prepare ch
  · exact fun _ _ h fit => h.loadOne fit
  · exact fun _ h => ⟨h.registered, h.ready⟩

end Program

section Steps

variable {q q' : Sequence α}

theorem loaded_create (driver : Driver) (cycleFrequency : α) : Loaded (create driver cycleFrequency) where
  registered := nofun
  ready := nofun

theorem Loaded.describe (loaded : Loaded q) (compiled : q'.compiled = q.compiled) (devices : q'.devices = q.devices)
    (pending : q'.pendingProgram = q.pendingProgram)
    (channels : q.registry.channelNames <+: q'.registry.channelNames) : Loaded q' := by
  refine ⟨fun ch carried => ?_, ?_⟩
  · rw [compiled] at carried
    have before := loaded.registered ch carried
    have more := channels.length_le
    unfold Registry.channelNames at more
    rw [List.length_map, List.length_map] at more
    omega
  · rw [compiled, devices, pending]
    exact loaded.ready

theorem Loaded.linkChannel {trigger : TriggerId} {name : String} {device : ChannelDevice α} {ch : ChannelId}
    (loaded : Loaded q) (at_rest : device.state.running = false)
    (h : q.linkChannel trigger name device = .ok (q', ch)) : Loaded q' := by
  obtain ⟨named, linked, added, bound, rfl⟩ := linkChannel_eq_ok h
  obtain ⟨_, _, fresh⟩ := Registry.channels_addChannel added
  have extended : Loaded { q with registry := linked } :=
    loaded.describe rfl rfl rfl ((Registry.Extends.addChannel added).trans (.link bound)).names
  refine ⟨extended.registered, ?_⟩
  intro c d found waiting
  simp only [Table.get?_insert] at found
  split at found
  · rename_i at_channel
    subst at_channel
    cases found
    -- Nothing was compiled for a channel that was not registered.
    have nothing : q.compiled.get? ch = none := by
      cases compiled : q.compiled.get? ch with
      | none => rfl
      | some w =>
        have bound := loaded.registered ch (by rw [compiled]; rfl)
        rw [fresh] at bound
        exact absurd bound (Nat.lt_irrefl _)
    rw [nothing]
    exact at_rest
  · exact extended.ready c d found waiting

theorem Loaded.compile (loaded : Loaded q) : Loaded q.compile.state := by
  rcases compile_cases q with ⟨_, slices, _, state, _⟩ | ⟨timeline, ok, state, _, _, tracks⟩
  · rw [state]
    exact loaded.describe rfl rfl rfl List.prefix_rfl
  · have stored := compiled_compile ok
    have devices := devices_compile q
    have registry := registry_compile q
    have pending : q.compile.state.pendingProgram = q.pendingProgram ∪ q.recompilationSet := by rw [state]; rfl
    refine ⟨?_, ?_⟩
    · intro ch carried
      rw [registry]
      have track := stored ch
      split at track
      · -- What was placed on a channel was placed after its trigger.
        obtain ⟨w, compiled⟩ := Option.isSome_iff_exists.mp carried
        rw [compiled] at track
        unfold played at track
        cases rise : rise? q.registry ch with
        | none =>
          rw [rise] at track
          cases placeTrack_none track
        | some start =>
          obtain ⟨t, trigger, _⟩ := exists_of_rise? rise
          obtain ⟨c, here⟩ := Registry.getElem?_of_triggerOf trigger
          exact (List.getElem?_eq_some_iff.mp here).1
      · rw [track] at carried
        exact loaded.registered ch carried
    · intro ch d found waiting
      rw [devices] at found
      rw [pending, ChannelSet.mem_union, not_or] at waiting
      have track := stored ch
      rw [if_neg waiting.2] at track
      rw [track]
      exact loaded.ready ch d found waiting.1

theorem Loaded.callIfPresent {operation : Operation} {call : ChannelDevice α → Reply α (ChannelDevice α) Unit}
    {ch : ChannelId} (loaded : Loaded q)
    (keeps : ∀ d, q.devices.get? ch = some d → Holds (q.compiled.get? ch) d → Holds (q.compiled.get? ch) (call d).device) :
    Loaded (callIfPresent operation call ch q).state := by
  unfold Sequence.callIfPresent
  split
  · exact loaded.callChannel keeps
  · exact loaded

theorem Loaded.runChannels (loaded : Loaded q) : Loaded q.runChannels.state := by
  unfold Sequence.runChannels
  split
  · have done : ∀ r, r.compiled = q.compiled ∧ Loaded r → _ := fun r h => h
    refine (forAll_invariant _ (P := fun r => r.compiled = q.compiled ∧ Loaded r) ?_ ⟨rfl, loaded⟩).2
    rintro ch mem r ⟨compiled, loaded⟩
    refine ⟨((sameCycle_callIfPresent ..).compiled).trans compiled, loaded.callIfPresent fun d _ h => ?_⟩
    have carried := (Table.mem_keys_iff q.compiled ch).mp (List.mem_of_mem_filter mem)
    obtain ⟨w, here⟩ := Option.isSome_iff_exists.mp carried
    rw [compiled, here] at h ⊢
    exact holds_run h
  · exact loaded

theorem Loaded.stopChannels (loaded : Loaded q) : Loaded q.stopChannels.state :=
  forAll_invariant _ (fun _ _ _ h => Loaded.callIfPresent h fun _ _ ready => holds_stop ready) loaded

theorem Loaded.setOffset (loaded : Loaded q) (name : String) (offset : α) : Loaded (q.setOffset name offset).state := by
  unfold Sequence.setOffset
  split
  · exact loaded
  · exact loaded.callChannel fun _ _ h => holds_setOffset h offset

theorem Loaded.callTrigger {ρ : Type} (loaded : Loaded q) (name : String) (operation : Operation)
    (call : TriggerDevice α → Reply α (TriggerDevice α) ρ) :
    Loaded (q.callTrigger name operation call).state :=
  ⟨loaded.registered, loaded.ready⟩

theorem Loaded.setupTrigger (loaded : Loaded q) : Loaded q.setupTrigger.state := by
  unfold Sequence.setupTrigger
  have set := loaded.callTrigger "trigger device" .setCycleFrequency (·.setCycleFrequency q.cycleFrequency)
  apply andThen_invariant set
  intro _
  have delayed : Loaded (forAll _ q.registry.triggers _).state :=
    forAll_invariant (fun t r => r.callTrigger t.name .setChannelDelay (·.setChannelDelay t.output t.raiseAt t.dropAfter))
      (fun _ _ _ h => Loaded.callTrigger h ..) set
  exact andThen_invariant delayed fun _ => delayed

theorem Loaded.adjust {ch : ChannelId} {change : ChannelDevice α → ChannelDevice α} (loaded : Loaded q)
    (keeps : ∀ d w?, Holds w? d → Holds w? (change d)) : Loaded (q.adjust ch change) := by
  unfold Sequence.adjust
  cases here : q.devices.get? ch with
  | none => exact loaded
  | some device =>
    refine ⟨loaded.registered, ?_⟩
    intro c d found waiting
    simp only [Table.get?_insert] at found
    split at found
    · rename_i at_channel
      subst at_channel
      cases found
      exact keeps device _ (loaded.ready ch device here waiting)
    · exact loaded.ready c d found waiting

theorem Loaded.register (loaded : Loaded q) {registry : Registry α} (extended : Registry.Extends q.registry registry) :
    Loaded { q with registry := registry } :=
  loaded.describe rfl rfl rfl extended.names

theorem Loaded.perform {command : Command α} (loaded : Loaded q) (attended : Attended command q) :
    Loaded (q.perform command) := by
  cases command with
  | addTrigger name output raiseAt dropAfter =>
    apply accept_map_invariant loaded
    intro _ added
    exact loaded.register (.addTrigger added)
  | addChannel name =>
    apply accept_map_invariant loaded
    intro _ added
    exact loaded.register (.addChannel added)
  | link ch target =>
    apply accept_map_invariant loaded
    intro _ bound
    exact loaded.register (.link bound)
  | linkChannel trigger name device =>
    apply accept_invariant loaded
    intro q' ch h
    exact loaded.linkChannel attended h
  | addSlice s =>
    apply accept_map_invariant loaded
    intro added ok
    obtain ⟨_, rfl⟩ := addSlice_eq_ok ok
    exact loaded.describe rfl rfl rfl List.prefix_rfl
  | dropSlice name => exact loaded.describe rfl rfl rfl List.prefix_rfl
  | dropDevice ch => exact absurd attended id
  | atSlice top rest command =>
    simp only [Sequence.perform, workIn]
    split
    · exact loaded
    · exact loaded.describe rfl rfl rfl List.prefix_rfl
  | compile => exact loaded.compile
  | setupTrigger => exact loaded.setupTrigger
  | program => exact loaded.program
  | runChannels => exact loaded.runChannels
  | stopChannels => exact loaded.stopChannels
  | setOffset name offset => exact loaded.setOffset name offset
  | arrangeFault ch operation message => exact loaded.adjust fun _ _ h => holds_arrangeFault h operation message
  | setFailWrites ch on => exact loaded.adjust fun _ _ h => holds_setFailWrites h on

theorem loaded_of_reached (reached : Reached Attended q) : Loaded q :=
  reached.invariant loaded_create fun _ _ loaded attended => loaded.perform attended

end Steps

section Run

variable {q : Sequence α}

def startable (q : Sequence α) : List ChannelId :=
  q.compiled.keys.filter (· ∉ q.pendingProgram)

theorem ready_of_startable (loaded : Loaded q) {ch : ChannelId} (mem : ch ∈ q.startable) {d : ChannelDevice α}
    (found : q.devices.get? ch = some d) :
    ∃ w, q.compiled.get? ch = some w ∧ w.normalizedSample d.rate d.minUnit = some (d.state.samples, d.state.amplitude) := by
  obtain ⟨carried, waiting⟩ := List.mem_filter.mp mem
  obtain ⟨w, compiled⟩ := Option.isSome_iff_exists.mp ((Table.mem_keys_iff q.compiled ch).mp carried)
  have ready := loaded.ready ch d found (by simpa using waiting)
  rw [compiled] at ready
  exact ⟨w, compiled, ready⟩

theorem device_callIfPresent {operation : Operation} {call : ChannelDevice α → Reply α (ChannelDevice α) Unit}
    {ch c : ChannelId} (other : c ≠ ch) :
    (callIfPresent operation call ch q).state.devices.get? c = q.devices.get? c := by
  unfold callIfPresent
  split
  · cases here : q.devices.get? ch with
    | none =>
      unfold callChannel
      rw [here]
      rfl
    | some d => rw [device_callChannel here, if_neg (Ne.symm other)]
  · rfl

theorem device_runChannels {ch : ChannelId} (h : ch ∉ q.startable) :
    q.runChannels.state.devices.get? ch = q.devices.get? ch := by
  unfold runChannels
  split
  · apply forAll_invariant _ (P := fun r => r.devices.get? ch = q.devices.get? ch)
    · intro c mem r same
      have other : ch ≠ c := fun at_channel => h (at_channel ▸ mem)
      rw [device_callIfPresent other]
      exact same
    · rfl
  · rfl

/--
Every device that does not wait to be loaded holds the samples of what was compiled for its channel, or is at rest if
nothing was. So whenever channels are started, the devices called are loaded with what was compiled.
-/
theorem devices_hold_compiled (reached : Reached Attended q) :
    (∀ ch d, q.devices.get? ch = some d → ch ∉ q.pendingProgram →
      (∀ w, q.compiled.get? ch = some w →
        w.normalizedSample d.rate d.minUnit = some (d.state.samples, d.state.amplitude))
        ∧ (q.compiled.get? ch = none → d.state.running = false))
      ∧ (∀ ch d, q.devices.get? ch = some d → q.runChannels.state.devices.get? ch ≠ some d →
        ∃ w, q.compiled.get? ch = some w
          ∧ w.normalizedSample d.rate d.minUnit = some (d.state.samples, d.state.amplitude))
      ∧ (q.runChannels = .failed .notCompiled q ∨ ∃ asked,
        q.runChannels = forAll (callIfPresent .run (·.run)) asked q
          ∧ ∀ ch ∈ asked, ∀ d, q.devices.get? ch = some d → ∃ w, q.compiled.get? ch = some w
            ∧ w.normalizedSample d.rate d.minUnit = some (d.state.samples, d.state.amplitude)) := by
  have loaded := loaded_of_reached reached
  refine ⟨?_, ?_, ?_⟩
  · intro ch d found waiting
    have ready := loaded.ready ch d found waiting
    constructor
    · intro w compiled
      rw [compiled] at ready
      exact ready
    · intro nothing
      rw [nothing] at ready
      exact ready
  · intro ch d found called
    have mem : ch ∈ q.startable := by
      by_contra missing
      apply called
      rw [device_runChannels missing]
      exact found
    exact ready_of_startable loaded mem found
  · unfold runChannels
    split
    · exact .inr ⟨q.startable, rfl, fun ch mem d found => ready_of_startable loaded mem found⟩
    · exact .inl rfl

def loadedPulse : Sequence Float :=
  (onePulse.perform .compile).perform .program

theorem devices_of_loadedPulse_hold_compiled :
    (∀ ch d, loadedPulse.devices.get? ch = some d → ch ∉ loadedPulse.pendingProgram →
      (∀ w, loadedPulse.compiled.get? ch = some w →
        w.normalizedSample d.rate d.minUnit = some (d.state.samples, d.state.amplitude))
        ∧ (loadedPulse.compiled.get? ch = none → d.state.running = false))
      ∧ (∀ ch d, loadedPulse.devices.get? ch = some d → loadedPulse.runChannels.state.devices.get? ch ≠ some d →
        ∃ w, loadedPulse.compiled.get? ch = some w
          ∧ w.normalizedSample d.rate d.minUnit = some (d.state.samples, d.state.amplitude))
      ∧ (loadedPulse.runChannels = .failed .notCompiled loadedPulse ∨ ∃ asked,
        loadedPulse.runChannels = forAll (callIfPresent .run (·.run)) asked loadedPulse
          ∧ ∀ ch ∈ asked, ∀ d, loadedPulse.devices.get? ch = some d → ∃ w, loadedPulse.compiled.get? ch = some w
            ∧ w.normalizedSample d.rate d.minUnit = some (d.state.samples, d.state.amplitude)) := by
  have described : @Reached Float _ Attended _ := .perform (.linkChannel ⟨0⟩ "out" (.memory 4.0 1))
    (.perform (.addTrigger "strobe" 0 0.0 1e-6) (.create .memory 1.0) trivial) rfl
  have filled : Reached Attended onePulse :=
    .perform (.atSlice "drive" [] (.edit ⟨0⟩ (.addWaveform (.dc 0.25 1.0 0.0))))
      (.perform (.addSlice (.flex "drive")) described trivial) trivial
  have reached : Reached Attended loadedPulse := .perform .program (.perform .compile filled trivial) trivial
  exact devices_hold_compiled reached

end Run

end PulseSequencer.Sequence
