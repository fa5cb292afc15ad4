import PulseSequencer.Proofs.Sequence.Loading
import PulseSequencer.Proofs.Sequence.Publication

/-!
This module contains that nothing but loading touches the buffer of a device: whatever was done to a sequence, and
whatever its devices were doing when they were handed over, the device of a compiled channel that does not wait to be
loaded has the samples of what was compiled.
-/

namespace PulseSequencer.Sequence

variable {α : Type} [Scalar α]

open ChannelDevice

/--
Whether the devices of compiled channels that do not wait to be loaded have the samples of what was compiled.
-/
def Filled (q : Sequence α) : Prop :=
  ∀ ch d w, q.devices.get? ch = some d → ch ∉ q.pendingProgram → q.compiled.get? ch = some w → Holds (some w) d

section Calls

variable {q q' : Sequence α} {ch : ChannelId} {load : Load α}

theorem Filled.congr (filled : Filled q) (devices : q'.devices = q.devices) (compiled : q'.compiled = q.compiled)
    (pending : q'.pendingProgram = q.pendingProgram) : Filled q' := by
  unfold Filled
  rw [devices, compiled, pending]
  exact filled

theorem Filled.insert {d : ChannelDevice α} (filled : Filled q)
    (held : ∀ w, q.compiled.get? ch = some w → ch ∉ q.pendingProgram → Holds (some w) d) :
    Filled { q with devices := q.devices.insert ch d } := by
  intro c e w found waiting compiled
  simp only [Table.get?_insert] at found
  split at found
  · rename_i at_channel
    subst at_channel
    cases found
    exact held w compiled waiting
  · exact filled c e w found waiting compiled

theorem Filled.callChannel {ρ : Type} {name : String} {operation : Operation}
    {call : ChannelDevice α → Reply α (ChannelDevice α) ρ} (filled : Filled q)
    (keeps : ∀ d w, q.devices.get? ch = some d → q.compiled.get? ch = some w → Holds (some w) d →
      Holds (some w) (call d).device) : Filled (q.callChannel ch name operation call).state := by
  unfold Sequence.callChannel
  cases here : q.devices.get? ch with
  | none => exact filled
  | some d =>
    apply filled.insert
    intro w compiled waiting
    exact keeps d w here compiled (filled ch d w here waiting compiled)

theorem Filled.callIfPresent {operation : Operation} {call : ChannelDevice α → Reply α (ChannelDevice α) Unit}
    (filled : Filled q) (keeps : ∀ d w, Holds (some w) d → Holds (some w) (call d).device) :
    Filled (callIfPresent operation call ch q).state := by
  unfold Sequence.callIfPresent
  split
  · exact filled.callChannel fun d w _ _ => keeps d w
  · exact filled

theorem Filled.prepare (filled : Filled q) (ch : ChannelId) : Filled (q.prepare ch).state :=
  prepare_invariant filled (filled.callChannel fun _ _ _ _ => holds_sampleRate)

theorem Filled.writeLoad (filled : Filled q) (fit : Matches q load) : Filled (writeLoad load q).state := by
  unfold Sequence.writeLoad
  cases buffer : load.buffer with
  | none => exact filled
  | some b =>
    obtain ⟨samples, peak⟩ := b
    apply filled.callChannel
    intro d w here compiled held
    have same := fit d here
    rw [buffer, compiled] at same
    rcases write_cases d samples peak with ⟨_, _, device⟩ | ⟨ok, _⟩
    · rw [device]
      exact held
    · exact holds_write (Option.some.inj same).symm ok

theorem Filled.loadOne (filled : Filled q) (fit : Matches q load) : Filled (loadOne load q).state := by
  apply loadOne_invariant fit
  · exact filled.callChannel fun _ _ _ _ => holds_stop
  · exact fun _ stopped fit => stopped.writeLoad fit
  · intro r written ready c d w found waiting compiled
    simp only [ChannelSet.mem_erase, not_and_or, ne_eq, not_not] at waiting
    rcases waiting with waiting | rfl
    · exact written c d w found waiting compiled
    · exact compiled ▸ ready d found

theorem Filled.program (filled : Filled q) : Filled q.program.state := by
  apply program_invariant filled
  · exact fun ch _ h => h.prepare ch
  · exact fun _ _ h fit => h.loadOne fit
  · exact fun _ h => h

theorem Filled.runChannels (filled : Filled q) : Filled q.runChannels.state := by
  unfold Sequence.runChannels
  split
  · exact forAll_invariant _ (fun _ _ _ h => Filled.callIfPresent h fun _ _ => holds_run) filled
  · exact filled

theorem Filled.stopChannels (filled : Filled q) : Filled q.stopChannels.state :=
  forAll_invariant _ (fun _ _ _ h => Filled.callIfPresent h fun _ _ => holds_stop) filled

theorem Filled.setOffset (filled : Filled q) (name : String) (offset : α) : Filled (q.setOffset name offset).state := by
  unfold Sequence.setOffset
  split
  · exact filled
  · exact filled.callChannel fun _ _ _ _ held => holds_setOffset held offset

theorem Filled.setupTrigger (filled : Filled q) : Filled q.setupTrigger.state := by
  have called {r : Sequence α} (h : Filled r) {ρ : Type} (name : String) (operation : Operation)
      (call : TriggerDevice α → Reply α (TriggerDevice α) ρ) : Filled (r.callTrigger name operation call).state := h
  unfold Sequence.setupTrigger
  have set := called filled "trigger device" .setCycleFrequency (·.setCycleFrequency q.cycleFrequency)
  apply andThen_invariant set
  intro _
  have delayed : Filled (forAll _ q.registry.triggers _).state :=
    forAll_invariant (fun t r => r.callTrigger t.name .setChannelDelay (·.setChannelDelay t.output t.raiseAt t.dropAfter))
      (fun _ _ _ h => called h _ _ _) set
  exact andThen_invariant delayed fun _ => delayed

theorem Filled.adjust {change : ChannelDevice α → ChannelDevice α} (filled : Filled q)
    (keeps : ∀ d w, Holds (some w) d → Holds (some w) (change d)) : Filled (q.adjust ch change) := by
  unfold Sequence.adjust
  cases here : q.devices.get? ch with
  | none => exact filled
  | some d =>
    apply filled.insert
    intro w compiled waiting
    exact keeps d w (filled ch d w here waiting compiled)

end Calls

section Steps

variable {q q' : Sequence α}

theorem Filled.compile (filled : Filled q) : Filled q.compile.state := by
  rcases compile_cases q with ⟨_, slices, _, state, _⟩ | ⟨timeline, ok, state, _, _, _⟩
  · rw [state]
    exact filled.congr rfl rfl rfl
  · have pending : q.compile.state.pendingProgram = q.pendingProgram ∪ q.recompilationSet := by
      rw [state]
      rfl
    intro ch d w found waiting compiled
    rw [devices_compile] at found
    rw [pending, ChannelSet.mem_union, not_or] at waiting
    have track := compiled_compile ok ch
    rw [if_neg waiting.2] at track
    rw [track] at compiled
    exact filled ch d w found waiting.1 compiled

theorem Filled.linkChannel {trigger : TriggerId} {name : String} {device : ChannelDevice α} {ch : ChannelId}
    (filled : Filled q) (linked : ∀ ch w, q.compiled.get? ch = some w → q.registry.Linked ch)
    (h : q.linkChannel trigger name device = .ok (q', ch)) : Filled q' := by
  obtain ⟨named, bound, added, _, rfl⟩ := linkChannel_eq_ok h
  obtain ⟨_, _, fresh⟩ := Registry.channels_addChannel added
  have described : Filled { q with registry := bound } := filled.congr rfl rfl rfl
  apply described.insert
  intro w compiled _
  -- Nothing was compiled for a channel that was not registered.
  obtain ⟨t, trigger⟩ := linked ch w compiled
  obtain ⟨c, registered⟩ := Registry.getElem?_of_triggerOf trigger
  rw [fresh, List.getElem?_eq_none (Nat.le_refl _)] at registered
  cases registered

theorem Filled.act {action : Action α} (filled : Filled q)
    (linked : ∀ ch w, q.compiled.get? ch = some w → q.registry.Linked ch) : Filled (q.act action) := by
  cases action with
  | exchange slices => exact filled.congr rfl rfl rfl
  | command command =>
    cases command with
    | addTrigger name output raiseAt dropAfter =>
      apply accept_map_invariant (P := Filled) filled
      intro _ _
      exact filled.congr rfl rfl rfl
    | addChannel name =>
      apply accept_map_invariant (P := Filled) filled
      intro _ _
      exact filled.congr rfl rfl rfl
    | link ch target =>
      apply accept_map_invariant (P := Filled) filled
      intro _ _
      exact filled.congr rfl rfl rfl
    | linkChannel trigger name device =>
      apply accept_invariant (P := Filled) filled
      intro q' ch h
      exact filled.linkChannel linked h
    | addSlice s =>
      apply accept_map_invariant (P := Filled) filled
      intro added ok
      obtain ⟨_, rfl⟩ := addSlice_eq_ok ok
      exact filled.congr rfl rfl rfl
    | dropSlice name => exact filled.congr rfl rfl rfl
    | dropDevice ch =>
      intro c d w found waiting compiled
      simp only [Sequence.act, perform, dropDevice, Table.get?_erase] at found
      split at found
      · cases found
      · exact filled c d w found waiting compiled
    | atSlice top rest command =>
      simp only [Sequence.act, perform, workIn]
      split
      · exact filled
      · exact filled.congr rfl rfl rfl
    | compile => exact filled.compile
    | setupTrigger => exact filled.setupTrigger
    | program => exact filled.program
    | runChannels => exact filled.runChannels
    | stopChannels => exact filled.stopChannels
    | setOffset name offset => exact filled.setOffset name offset
    | arrangeFault ch operation message => exact filled.adjust fun _ _ h => holds_arrangeFault h operation message
    | setFailWrites ch on => exact filled.adjust fun _ _ h => holds_setFailWrites h on

theorem filled_of_actions (driver : Driver) (cycleFrequency : α) (actions : List (Action α)) :
    Filled ((create driver cycleFrequency).afterActions actions) := by
  induction actions using List.reverseRecOn with
  | nil => exact nofun
  | append_singleton actions action ih =>
    rw [afterActions_concat]
    exact ih.act (published_of_actions driver cycleFrequency actions).linked

end Steps

end PulseSequencer.Sequence
