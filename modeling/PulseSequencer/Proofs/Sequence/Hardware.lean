import PulseSequencer.Proofs.Outcome
import PulseSequencer.Sequence.Hardware

/-!
This module contains what the calls of instruments leave alone: none of them touches the description of the cycle or
what it was compiled to.
-/

namespace PulseSequencer.Sequence

variable {α : Type} [Scalar α]

/--
A sequence that differs from another one in its instruments at most, and in what it knows of them.
-/
structure SameCycle (q q' : Sequence α) : Prop where
  cycleFrequency : q'.cycleFrequency = q.cycleFrequency
  registry : q'.registry = q.registry
  slices : q'.slices = q.slices
  compiled : q'.compiled = q.compiled
  durations : q'.durations = q.durations
  pendingCompile : q'.pendingCompile = q.pendingCompile
  snapshot : q'.snapshot = q.snapshot

namespace SameCycle

variable {q q' q'' : Sequence α}

theorem refl (q : Sequence α) : SameCycle q q := ⟨rfl, rfl, rfl, rfl, rfl, rfl, rfl⟩

theorem trans (h : SameCycle q q') (h' : SameCycle q' q'') : SameCycle q q'' where
  cycleFrequency := h'.cycleFrequency.trans h.cycleFrequency
  registry := h'.registry.trans h.registry
  slices := h'.slices.trans h.slices
  compiled := h'.compiled.trans h.compiled
  durations := h'.durations.trans h.durations
  pendingCompile := h'.pendingCompile.trans h.pendingCompile
  snapshot := h'.snapshot.trans h.snapshot

end SameCycle

section Steps

variable {β ρ τ : Type} {P : Sequence α → Prop} {q : Sequence α}

theorem andThen_invariant {first : Outcome α (Sequence α) ρ} {next : ρ → Sequence α → Outcome α (Sequence α) τ}
    (here : P first.state) (later : ∀ a, P (next a first.state).state) : P (first.andThen next).state := by
  rw [Outcome.state_andThen]
  cases first.result with
  | error cause => exact here
  | ok a => exact later a

theorem forAll_invariant (work : β → Sequence α → Outcome α (Sequence α) Unit) {xs : List β}
    (step : ∀ x ∈ xs, ∀ r, P r → P (work x r).state) (start : P q) : P (forAll work xs q).state := by
  induction xs generalizing q with
  | nil => exact start
  | cons x rest ih =>
    have first := step x (by simp) q start
    exact andThen_invariant first fun _ => ih (fun y mem => step y (by simp [mem])) first

theorem state_makeLoad (q : Sequence α) (ch : ChannelId) (name : String) (buffer? : Option (Array α × α)) :
    (q.makeLoad ch name buffer?).state = q := by
  unfold makeLoad
  cases buffer? with
  | none => rfl
  | some buffer => rfl

theorem makeLoad_eq_ok_iff {ch : ChannelId} {name : String} {buffer? : Option (Array α × α)} {load : Load α} :
    (q.makeLoad ch name buffer?).result = .ok load
      ↔ ∃ buffer, buffer? = some buffer ∧ load = ⟨ch, name, some buffer⟩ := by
  unfold makeLoad
  cases buffer? with
  | none => simp [Outcome.failed]
  | some buffer => simp [Outcome.done, @eq_comm _ load]

theorem prepare_invariant {ch : ChannelId} (start : P q)
    (asked : P (q.callChannel ch (q.registry.channelName ch) .sampleRate (·.sampleRate)).state) :
    P (q.prepare ch).state := by
  unfold prepare
  dsimp only
  split
  · exact start
  · exact start
  · apply andThen_invariant asked
    intro rate
    rw [state_makeLoad]
    exact asked

theorem prepareAll_invariant {ids : List ChannelId} (step : ∀ ch ∈ ids, ∀ r, P r → P (r.prepare ch).state)
    (start : P q) : P (prepareAll ids q).state := by
  induction ids generalizing q with
  | nil => exact start
  | cons ch rest ih =>
    have first := step ch (by simp) q start
    apply andThen_invariant first
    intro load
    have others := ih (fun c mem => step c (by simp [mem])) first
    exact andThen_invariant others fun _ => others

theorem sameCycle_callTrigger (name : String) (operation : Operation)
    (call : TriggerDevice α → Reply α (TriggerDevice α) ρ) : SameCycle q (q.callTrigger name operation call).state :=
  ⟨rfl, rfl, rfl, rfl, rfl, rfl, rfl⟩

theorem sameCycle_callChannel (ch : ChannelId) (name : String) (operation : Operation)
    (call : ChannelDevice α → Reply α (ChannelDevice α) ρ) :
    SameCycle q (q.callChannel ch name operation call).state := by
  unfold callChannel
  cases q.devices.get? ch with
  | none => exact .refl q
  | some device => exact ⟨rfl, rfl, rfl, rfl, rfl, rfl, rfl⟩

theorem sameCycle_callIfPresent (operation : Operation)
    (call : ChannelDevice α → Reply α (ChannelDevice α) Unit) (ch : ChannelId) :
    SameCycle q (callIfPresent operation call ch q).state := by
  unfold callIfPresent
  split
  · exact sameCycle_callChannel ..
  · exact .refl q

theorem sameCycle_prepare (ch : ChannelId) : SameCycle q (q.prepare ch).state :=
  prepare_invariant (.refl q) (sameCycle_callChannel ..)

def writeLoad (load : Load α) (q : Sequence α) : Outcome α (Sequence α) Unit :=
  match load.buffer with
  | some (samples, peak) => q.callChannel load.channel load.name .writeRawWaveform (·.write samples peak)
  | none => .done () q

theorem loadOne_eq (load : Load α) (q : Sequence α) :
    loadOne load q
      = (q.callChannel load.channel load.name .stop (·.stop)).andThen fun _ q =>
        (writeLoad load q).andThen fun _ q =>
        .done () { q with pendingProgram := q.pendingProgram.erase load.channel } := rfl

theorem sameCycle_writeLoad (load : Load α) : SameCycle q (writeLoad load q).state := by
  unfold writeLoad
  split
  · exact sameCycle_callChannel ..
  · exact .refl q

theorem sameCycle_loadOne (load : Load α) : SameCycle q (loadOne load q).state := by
  rw [loadOne_eq]
  have stopped := sameCycle_callChannel (q := q) load.channel load.name .stop (·.stop)
  apply andThen_invariant stopped
  intro _
  have written := stopped.trans (sameCycle_writeLoad load)
  exact andThen_invariant written fun _ => written.trans ⟨rfl, rfl, rfl, rfl, rfl, rfl, rfl⟩

theorem sameCycle_program : SameCycle q q.program.state := by
  unfold program
  have prepared : SameCycle q (prepareAll q.pendingProgram.ids q).state :=
    prepareAll_invariant (fun ch _ r same => same.trans (sameCycle_prepare ch)) (.refl q)
  apply andThen_invariant prepared
  intro loads
  have loaded : SameCycle q (forAll loadOne loads _).state :=
    forAll_invariant loadOne (fun load _ r same => same.trans (sameCycle_loadOne load)) prepared
  apply andThen_invariant loaded
  intro _
  exact loaded.trans ⟨rfl, rfl, rfl, rfl, rfl, rfl, rfl⟩

theorem sameCycle_setupTrigger : SameCycle q q.setupTrigger.state := by
  unfold setupTrigger
  have set : SameCycle q _ := sameCycle_callTrigger "trigger device" .setCycleFrequency
    (·.setCycleFrequency q.cycleFrequency)
  apply andThen_invariant set
  intro _
  have delayed : SameCycle q (forAll _ q.registry.triggers _).state :=
    forAll_invariant (fun t r => r.callTrigger t.name .setChannelDelay (·.setChannelDelay t.output t.raiseAt t.dropAfter))
      (fun t _ r same => same.trans (sameCycle_callTrigger ..)) set
  exact andThen_invariant delayed fun _ => delayed

theorem sameCycle_runChannels : SameCycle q q.runChannels.state := by
  unfold runChannels
  split
  · exact forAll_invariant _ (fun _ _ _ same => same.trans (sameCycle_callIfPresent ..)) (.refl q)
  · exact .refl q

theorem sameCycle_stopChannels : SameCycle q q.stopChannels.state :=
  forAll_invariant _ (fun _ _ _ same => same.trans (sameCycle_callIfPresent ..)) (.refl q)

theorem sameCycle_setOffset (name : String) (offset : α) : SameCycle q (q.setOffset name offset).state := by
  unfold setOffset
  split
  · exact .refl q
  · exact sameCycle_callChannel ..

end Steps

end PulseSequencer.Sequence
