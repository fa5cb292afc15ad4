import PulseSequencer.Device.Channel
import PulseSequencer.Waveform.Sample

/-!
This module contains what the calls of a channel device do to it: a call that fails does nothing, and nothing but a
write touches the buffer.
-/

namespace PulseSequencer

def ChannelCall.operation {α : Type} : ChannelCall α → Operation
  | .sampleRate => .sampleRate
  | .stop => .stop
  | .run => .run
  | .setOffset _ => .setOffset
  | .write _ _ => .writeRawWaveform

namespace ChannelDevice

variable {α : Type}

section Attempt

variable {ρ : Type} {d : ChannelDevice α} {operation : Operation} {call : ChannelCall α} {state : ChannelState α}
  {value : ρ}

theorem device_attempt (P : ChannelDevice α → Prop) (failed : P d)
    (done : P { d with state := state, calls := d.calls ++ [call] }) :
    P (d.attempt operation call state value).device := by
  unfold attempt
  cases d.faults.get? operation with
  | none => exact done
  | some message => exact failed

theorem attempt_of_ok {r : ρ} (ok : (d.attempt operation call state value).result = .ok r) :
    r = value ∧ (d.attempt operation call state value).device
      = { d with state := state, calls := d.calls ++ [call] } := by
  unfold attempt at ok ⊢
  cases h : d.faults.get? operation with
  | none =>
    rw [h] at ok
    cases ok
    exact ⟨rfl, rfl⟩
  | some message =>
    rw [h] at ok
    cases ok

theorem attempt_cases (d : ChannelDevice α) (operation : Operation) (call : ChannelCall α) (state : ChannelState α)
    (value : ρ) :
    (∃ cause, (d.attempt operation call state value).result = .error cause
      ∧ (d.attempt operation call state value).device = d)
    ∨ ((d.attempt operation call state value).result = .ok value
      ∧ (d.attempt operation call state value).device = { d with state := state, calls := d.calls ++ [call] }) := by
  unfold attempt
  cases d.faults.get? operation with
  | some message => exact .inl ⟨⟨message⟩, rfl, rfl⟩
  | none => exact .inr ⟨rfl, rfl⟩

end Attempt

section Calls

variable {d : ChannelDevice α}

def SameGrid (d d' : ChannelDevice α) : Prop :=
  d'.rate = d.rate ∧ d'.minUnit = d.minUnit

theorem sameGrid_sampleRate (d : ChannelDevice α) : SameGrid d d.sampleRate.device :=
  device_attempt (SameGrid d) ⟨rfl, rfl⟩ ⟨rfl, rfl⟩

theorem sameGrid_stop (d : ChannelDevice α) : SameGrid d d.stop.device :=
  device_attempt (SameGrid d) ⟨rfl, rfl⟩ ⟨rfl, rfl⟩

theorem write_cases (d : ChannelDevice α) (samples : Array α) (amplitude : α) :
    (∃ cause, (d.write samples amplitude).result = .error cause ∧ (d.write samples amplitude).device = d)
    ∨ ((d.write samples amplitude).result = .ok () ∧ (d.write samples amplitude).device
      = { d with
        state := { d.state with samples := samples, amplitude := amplitude, writes := d.state.writes + 1 }
        calls := d.calls ++ [.write samples amplitude] }) := by
  unfold write
  cases d.faults.get? .writeRawWaveform with
  | some message => exact .inl ⟨⟨message⟩, rfl, rfl⟩
  | none =>
    dsimp only
    split
    · exact .inl ⟨⟨writeRejected⟩, rfl, rfl⟩
    · exact .inr ⟨rfl, rfl⟩

structure Writable (d : ChannelDevice α) : Prop where
  faultless : d.faults.get? .writeRawWaveform = none
  accepting : d.state.failWrites = false

theorem Writable.write (writable : d.Writable) (samples : Array α) (amplitude : α) :
    (d.write samples amplitude).result = .ok () ∧ (d.write samples amplitude).device
      = { d with
        state := { d.state with samples := samples, amplitude := amplitude, writes := d.state.writes + 1 }
        calls := d.calls ++ [.write samples amplitude] } := by
  unfold ChannelDevice.write
  rw [writable.faultless]
  dsimp only
  rw [writable.accepting]
  exact ⟨rfl, rfl⟩

theorem sameGrid_write (d : ChannelDevice α) (samples : Array α) (amplitude : α) :
    SameGrid d (d.write samples amplitude).device := by
  rcases write_cases d samples amplitude with ⟨_, _, device⟩ | ⟨_, device⟩
  · rw [device]
    exact ⟨rfl, rfl⟩
  · rw [device]
    exact ⟨rfl, rfl⟩

/--
Calls after which the journal has one more entry, for this operation, unless the call has failed and done nothing.
-/
def Journaled {ρ : Type} (operation : Operation) (call : ChannelDevice α → Reply α (ChannelDevice α) ρ) : Prop :=
  ∀ d, (∃ cause, (call d).result = .error cause ∧ (call d).device = d)
    ∨ ∃ value entry, (call d).result = .ok value ∧ (call d).device.calls = d.calls ++ [entry]
      ∧ entry.operation = operation

theorem journaled_sampleRate : Journaled .sampleRate (fun d : ChannelDevice α => d.sampleRate) := by
  intro d
  rcases attempt_cases d .sampleRate .sampleRate d.state d.rate with failed | ⟨ok, device⟩
  · exact .inl failed
  · exact .inr ⟨d.rate, .sampleRate, ok, congrArg calls device, rfl⟩

theorem journaled_stop : Journaled .stop (fun d : ChannelDevice α => d.stop) := by
  intro d
  rcases attempt_cases d .stop .stop { d.state with running := false, stops := d.state.stops + 1 } () with
    failed | ⟨ok, device⟩
  · exact .inl failed
  · exact .inr ⟨(), .stop, ok, congrArg calls device, rfl⟩

theorem journaled_write (samples : Array α) (amplitude : α) :
    Journaled .writeRawWaveform (fun d : ChannelDevice α => d.write samples amplitude) := by
  intro d
  rcases write_cases d samples amplitude with failed | ⟨ok, device⟩
  · exact .inl failed
  · exact .inr ⟨(), .write samples amplitude, ok, congrArg calls device, rfl⟩

def unjournaled (d : ChannelDevice α) : ChannelDevice α :=
  { d with calls := [] }

theorem unjournaled_sampleRate (d : ChannelDevice α) : d.sampleRate.device.unjournaled = d.unjournaled := by
  rcases attempt_cases d .sampleRate .sampleRate d.state d.rate with ⟨_, _, device⟩ | ⟨_, device⟩
  · rw [sampleRate, device]
  · rw [sampleRate, device]
    rfl

theorem sameGrid_of_unjournaled {d d' : ChannelDevice α} (same : d'.unjournaled = d.unjournaled) : SameGrid d d' := by
  have rate := congrArg rate same
  have unit := congrArg minUnit same
  exact ⟨rate, unit⟩

theorem result_sampleRate_congr {d d' : ChannelDevice α} (same : d'.unjournaled = d.unjournaled) :
    d'.sampleRate.result = d.sampleRate.result := by
  obtain ⟨driver, rate, unit, faults, state, calls⟩ := d
  obtain ⟨driver', rate', unit', faults', state', calls'⟩ := d'
  cases same
  unfold sampleRate attempt
  dsimp only
  cases faults.get? .sampleRate with
  | some message => rfl
  | none => rfl

theorem running_stop (ok : d.stop.result = .ok ()) : d.stop.device.state.running = false := by
  unfold stop at ok ⊢
  rw [(attempt_of_ok ok).2]

theorem result_sampleRate {rate : α} (ok : d.sampleRate.result = .ok rate) : rate = d.rate :=
  (attempt_of_ok ok).1

end Calls

section Works

variable {d : ChannelDevice α}

structure Works (d : ChannelDevice α) : Prop where
  faultless : ∀ operation, d.faults.get? operation = none
  accepting : d.state.failWrites = false

/--
Calls that succeed on every working device, and leave it working.
-/
def Dependable {ρ : Type} (call : ChannelDevice α → Reply α (ChannelDevice α) ρ) : Prop :=
  ∀ d, d.Works → ∃ value, (call d).result = .ok value ∧ (call d).device.Works

theorem Works.attempt {ρ : Type} {state : ChannelState α} (works : d.Works) (operation : Operation)
    (call : ChannelCall α) (accepting : state.failWrites = false) (value : ρ) :
    ∃ answer, (d.attempt operation call state value).result = .ok answer
      ∧ (d.attempt operation call state value).device.Works := by
  unfold ChannelDevice.attempt
  rw [works.faultless operation]
  exact ⟨value, rfl, works.faultless, accepting⟩

theorem Works.of_unjournaled {d d' : ChannelDevice α} (works : d.Works) (same : d'.unjournaled = d.unjournaled) :
    d'.Works := by
  have faults := congrArg faults same
  have state := congrArg state same
  exact ⟨fun operation => faults ▸ works.faultless operation, state ▸ works.accepting⟩

theorem dependable_sampleRate : Dependable (fun d : ChannelDevice α => d.sampleRate) :=
  fun d works => works.attempt .sampleRate .sampleRate works.accepting d.rate

theorem dependable_stop : Dependable (fun d : ChannelDevice α => d.stop) := by
  intro d works
  refine works.attempt .stop .stop ?_ ()
  exact works.accepting

theorem dependable_write (samples : Array α) (amplitude : α) :
    Dependable (fun d : ChannelDevice α => d.write samples amplitude) := by
  intro d works
  have writable : d.Writable := ⟨works.faultless .writeRawWaveform, works.accepting⟩
  obtain ⟨ok, device⟩ := writable.write samples amplitude
  refine ⟨(), ok, ?_⟩
  rw [device]
  exact ⟨works.faultless, works.accepting⟩

end Works

variable [Scalar α] {d : ChannelDevice α} {w? : Option (Waveform α)}

/--
Whether a device is ready for the waveform of its channel: the samples of it are loaded, or it is at rest if there is
none.
-/
def Holds (w? : Option (Waveform α)) (d : ChannelDevice α) : Prop :=
  match w? with
  | some w => w.normalizedSample d.rate d.minUnit = some (d.state.samples, d.state.amplitude)
  | none => d.state.running = false

theorem holds_sampleRate (h : Holds w? d) : Holds w? d.sampleRate.device :=
  device_attempt (Holds w?) h h

theorem holds_setOffset (h : Holds w? d) (offset : α) : Holds w? (d.setOffset offset).device := by
  apply device_attempt (Holds w?) h
  cases w? <;> exact h

theorem holds_stop (h : Holds w? d) : Holds w? d.stop.device := by
  apply device_attempt (Holds w?) h
  cases w? with
  | none => rfl
  | some w => exact h

theorem holds_arrangeFault (h : Holds w? d) (operation : Operation) (message : Option String) :
    Holds w? (d.arrangeFault operation message) := by
  cases w? <;> exact h

theorem holds_setFailWrites (h : Holds w? d) (on : Bool) : Holds w? (d.setFailWrites on) := by
  cases w? <;> exact h

theorem holds_run {w : Waveform α} (h : Holds (some w) d) : Holds (some w) d.run.device :=
  device_attempt (Holds (some w)) h h

theorem holds_write {w : Waveform α} {samples : Array α} {amplitude : α}
    (buffer : w.normalizedSample d.rate d.minUnit = some (samples, amplitude))
    (ok : (d.write samples amplitude).result = .ok ()) : Holds (some w) (d.write samples amplitude).device := by
  rcases write_cases d samples amplitude with ⟨_, failed, _⟩ | ⟨_, device⟩
  · rw [failed] at ok
    cases ok
  · rw [device]
    exact buffer

end ChannelDevice

end PulseSequencer
