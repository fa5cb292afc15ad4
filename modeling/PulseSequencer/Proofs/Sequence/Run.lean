import PulseSequencer.Proofs.Registry
import PulseSequencer.Proofs.Sequence.Hardware
import PulseSequencer.Proofs.Slice.Run

/-!
This module contains the sequences that can come about: each is made from an empty one by commands in any order, whether
they succeed or fail.
-/

namespace PulseSequencer.Sequence

variable {α : Type} [Scalar α]

inductive Command (α : Type) [Scalar α]
  | addTrigger (name : String) (output : Nat) (raiseAt dropAfter : α)
  | addChannel (name : String)
  | link (ch : ChannelId) (target : TriggerId)
  | linkChannel (trigger : TriggerId) (name : String) (device : ChannelDevice α)
  | addSlice (s : Slice α)
  | dropSlice (name : String)
  | dropDevice (ch : ChannelId)
  | atSlice (top : String) (rest : List String) (command : Slice.Command α)
  | compile
  | setupTrigger
  | program
  | runChannels
  | stopChannels
  | setOffset (name : String) (offset : α)
  | arrangeFault (ch : ChannelId) (operation : Operation) (message : Option String)
  | setFailWrites (ch : ChannelId) (on : Bool)

def adjust (q : Sequence α) (ch : ChannelId) (change : ChannelDevice α → ChannelDevice α) : Sequence α :=
  match q.devices.get? ch with
  | none => q
  | some device => { q with devices := q.devices.insert ch (change device) }

def accept {β : Type} (q : Sequence α) : Except (Error α) (Sequence α × β) → Sequence α
  | .ok (q', _) => q'
  | .error _ => q

def perform (q : Sequence α) : Command α → Sequence α
  | .addTrigger name output raiseAt dropAfter => q.accept (q.addTrigger name output raiseAt dropAfter)
  | .addChannel name =>
    q.accept ((q.registry.addChannel name).map fun (registry, id) => ({ q with registry := registry }, id))
  | .link ch target => q.accept ((q.registry.link ch target).map fun registry => ({ q with registry := registry }, ()))
  | .linkChannel trigger name device => q.accept (q.linkChannel trigger name device)
  | .addSlice s => q.accept ((q.addSlice s).map (·, ()))
  | .dropSlice name => (q.dropSlice name).1
  | .dropDevice ch => (q.dropDevice ch).1
  | .atSlice top rest command => (q.workIn top rest (command.perform ·)).state
  | .compile => q.compile.state
  | .setupTrigger => q.setupTrigger.state
  | .program => q.program.state
  | .runChannels => q.runChannels.state
  | .stopChannels => q.stopChannels.state
  | .setOffset name offset => (q.setOffset name offset).state
  | .arrangeFault ch operation message => q.adjust ch (·.arrangeFault operation message)
  | .setFailWrites ch on => q.adjust ch (·.setFailWrites on)

/--
The sequences that can come about if commands are given in states that allow them.
-/
inductive Reached (Allowed : Command α → Sequence α → Prop) : Sequence α → Prop
  | create (driver : Driver) (cycleFrequency : α) : Reached Allowed (.create driver cycleFrequency)
  | perform {q : Sequence α} (command : Command α) :
    Reached Allowed q → Allowed command q → Reached Allowed (q.perform command)

theorem Reached.invariant {Allowed : Command α → Sequence α → Prop} {P : Sequence α → Prop} {q : Sequence α}
    (reached : Reached Allowed q) (start : ∀ driver cycleFrequency, P (.create driver cycleFrequency))
    (step : ∀ command q, P q → Allowed command q → P (q.perform command)) : P q := by
  induction reached with
  | create driver cycleFrequency => exact start driver cycleFrequency
  | perform command _ allowed ih => exact step command _ ih allowed

theorem accept_invariant {β : Type} {P : Sequence α → Prop} {q : Sequence α}
    {answer : Except (Error α) (Sequence α × β)} (here : P q) (step : ∀ q' b, answer = .ok (q', b) → P q') :
    P (q.accept answer) := by
  unfold accept
  cases answer with
  | error cause => exact here
  | ok done => exact step done.1 done.2 rfl

theorem accept_map_invariant {β γ : Type} {P : Sequence α → Prop} {q : Sequence α} {answer : Except (Error α) β}
    {make : β → Sequence α × γ} (here : P q) (step : ∀ b, answer = .ok b → P (make b).1) :
    P (q.accept (answer.map make)) := by
  apply accept_invariant here
  intro q' c h
  obtain ⟨b, done, same⟩ := map_eq_ok_iff.mp h
  have made := step b done
  rw [same] at made
  exact made

/--
A sequence whose slices, and what they were compiled to, are those of another one, and whose registry has grown at most.
-/
structure Keeps (q q' : Sequence α) : Prop where
  cycleFrequency : q'.cycleFrequency = q.cycleFrequency
  registry : Registry.Extends q.registry q'.registry
  slices : q'.slices = q.slices
  compiled : q'.compiled = q.compiled
  durations : q'.durations = q.durations
  pendingCompile : q'.pendingCompile = q.pendingCompile
  snapshot : q'.snapshot = q.snapshot

namespace Keeps

variable {q q' : Sequence α}

theorem of_sameCycle (same : SameCycle q q') : Keeps q q' where
  cycleFrequency := same.cycleFrequency
  registry := same.registry ▸ .refl q.registry
  slices := same.slices
  compiled := same.compiled
  durations := same.durations
  pendingCompile := same.pendingCompile
  snapshot := same.snapshot

theorem refl (q : Sequence α) : Keeps q q := of_sameCycle (.refl q)

theorem register {registry : Registry α} (extended : Registry.Extends q.registry registry)
    (devices : Table ChannelId (ChannelDevice α)) : Keeps q { q with registry := registry, devices := devices } :=
  ⟨rfl, extended, rfl, rfl, rfl, rfl, rfl⟩

end Keeps

section Calls

variable {q q' : Sequence α}

theorem linkChannel_eq_ok {trigger : TriggerId} {name : String} {device : ChannelDevice α}
    {ch : ChannelId} (h : q.linkChannel trigger name device = .ok (q', ch)) :
    ∃ named linked, q.registry.addChannel name = .ok (named, ch) ∧ named.link ch trigger = .ok linked
      ∧ q' = { q with registry := linked, devices := q.devices.insert ch device } := by
  obtain ⟨_, _, h⟩ := bind_eq_ok_iff.mp h
  obtain ⟨⟨named, id⟩, added, h⟩ := bind_eq_ok_iff.mp h
  obtain ⟨linked, bound, h⟩ := bind_eq_ok_iff.mp h
  cases h
  exact ⟨named, linked, added, bound, rfl⟩

theorem sameCycle_adjust (ch : ChannelId) (change : ChannelDevice α → ChannelDevice α) :
    SameCycle q (q.adjust ch change) := by
  unfold adjust
  split
  · exact .refl q
  · exact ⟨rfl, rfl, rfl, rfl, rfl, rfl, rfl⟩

theorem addSlice_eq_ok {s : Slice α} (h : q.addSlice s = .ok q') :
    s.name ∉ q.slices.map Slice.name ∧ q' = { q with slices := q.slices ++ [s] } := by
  obtain ⟨_, _, h⟩ := bind_eq_ok_iff.mp h
  split at h
  · cases h
  · rename_i free
    have added : q' = { q with slices := q.slices ++ [s] } := by
      dsimp only at h
      split at h
      · obtain ⟨_, _, h⟩ := bind_eq_ok_iff.mp h
        exact (Except.ok.inj h).symm
      · exact (Except.ok.inj h).symm
    refine ⟨?_, added⟩
    rw [← Slice.find?_eq_none_iff]
    simpa using free

theorem perform_cases (q : Sequence α) (command : Command α) :
    Keeps q (q.perform command)
      ∨ (∃ s, command = .addSlice s ∧ q.addSlice s = .ok (q.perform command))
      ∨ (∃ name, command = .dropSlice name)
      ∨ (∃ top rest c, command = .atSlice top rest c)
      ∨ command = .compile := by
  cases command with
  | addTrigger name output raiseAt dropAfter =>
    apply Or.inl
    apply accept_map_invariant (.refl q)
    intro _ added
    exact .register (.addTrigger added) q.devices
  | addChannel name =>
    apply Or.inl
    apply accept_map_invariant (.refl q)
    intro _ added
    exact .register (.addChannel added) q.devices
  | link ch target =>
    apply Or.inl
    apply accept_map_invariant (.refl q)
    intro _ bound
    exact .register (.link bound) q.devices
  | linkChannel trigger name device =>
    apply Or.inl
    apply accept_invariant (.refl q)
    intro q' ch h
    obtain ⟨named, linked, added, bound, rfl⟩ := linkChannel_eq_ok h
    exact .register (.trans (.addChannel added) (.link bound)) _
  | addSlice s =>
    simp only [perform]
    cases h : q.addSlice s with
    | error cause => exact .inl (.refl q)
    | ok added => exact .inr (.inl ⟨s, rfl, h⟩)
  | dropSlice name => exact .inr (.inr (.inl ⟨name, rfl⟩))
  | atSlice top rest c => exact .inr (.inr (.inr (.inl ⟨top, rest, c, rfl⟩)))
  | compile => exact .inr (.inr (.inr (.inr rfl)))
  | dropDevice ch => exact .inl (.of_sameCycle ⟨rfl, rfl, rfl, rfl, rfl, rfl, rfl⟩)
  | setupTrigger => exact .inl (.of_sameCycle sameCycle_setupTrigger)
  | program => exact .inl (.of_sameCycle sameCycle_program)
  | runChannels => exact .inl (.of_sameCycle sameCycle_runChannels)
  | stopChannels => exact .inl (.of_sameCycle sameCycle_stopChannels)
  | setOffset name offset => exact .inl (.of_sameCycle (sameCycle_setOffset name offset))
  | arrangeFault ch operation message => exact .inl (.of_sameCycle (sameCycle_adjust ..))
  | setFailWrites ch on => exact .inl (.of_sameCycle (sameCycle_adjust ..))

end Calls

def onePulse : Sequence Float :=
  let described := ((create .memory 1.0).perform (.addTrigger "strobe" 0 0.0 1e-6)).perform
    (.linkChannel ⟨0⟩ "out" (.memory 4.0 1))
  (described.perform (.addSlice (.flex "drive"))).perform
    (.atSlice "drive" [] (.edit ⟨0⟩ (.addWaveform (.dc 0.25 1.0 0.0))))

def earlyPulse : Sequence Float :=
  let described := ((create .memory 1.0).perform (.addTrigger "strobe" 0 0.5 1e-6)).perform
    (.linkChannel ⟨0⟩ "out" (.memory 4.0 1))
  (described.perform (.addSlice (.flex "drive"))).perform
    (.atSlice "drive" [] (.edit ⟨0⟩ (.addWaveform (.dc 0.25 1.0 0.0))))

end PulseSequencer.Sequence
