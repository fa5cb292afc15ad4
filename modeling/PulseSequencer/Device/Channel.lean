import PulseSequencer.Device.Basic
import PulseSequencer.Scalar

/-!
This module contains the output channels of a waveform generator. A failing call changes nothing on its device, and
every call that succeeds is kept in a journal.
-/

namespace PulseSequencer

inductive ChannelCall (α : Type)
  | sampleRate
  | stop
  | run
  | setOffset (offset : α)
  | write (samples : Array α) (amplitude : α)
deriving Repr

structure ChannelState (α : Type) where
  /-- The buffer written last, which has the peak one. -/
  samples : Array α
  /-- The factor that brings the buffer back to volts. -/
  amplitude : α
  offset : α
  running : Bool
  writes : Nat
  stops : Nat
  runs : Nat
  failWrites : Bool
deriving Repr

structure ChannelDevice (α : Type) where
  driver : Driver
  rate : α
  minUnit : UInt64
  faults : Faults
  state : ChannelState α
  calls : List (ChannelCall α)

namespace ChannelState

variable {α : Type} [Scalar α]

def initial : ChannelState α := ⟨#[], 0.0, 0.0, false, 0, 0, 0, false⟩

def waveform (s : ChannelState α) : Array α :=
  s.samples.map (· * s.amplitude)

end ChannelState

namespace ChannelDevice

variable {α : Type}

def memory [Scalar α] (rate : α) (minUnit : UInt64) : ChannelDevice α :=
  ⟨.memory, rate, minUnit, ∅, .initial, []⟩

/--
A device of a script. A granularity of zero is taken for one.
-/
def scripted [Scalar α] (rate : α) (minUnit : UInt64) : ChannelDevice α :=
  ⟨.scripted, rate, if minUnit = 0 then 1 else minUnit, ∅, .initial, []⟩

def arrangeFault (d : ChannelDevice α) (operation : Operation) (message : Option String) : ChannelDevice α :=
  { d with faults := d.faults.arrange operation message }

def setFailWrites (d : ChannelDevice α) (on : Bool) : ChannelDevice α :=
  { d with state := { d.state with failWrites := on } }

def fail {ρ : Type} (d : ChannelDevice α) (message : String) : Reply α (ChannelDevice α) ρ :=
  ⟨.error ⟨message⟩, d, d.driver.failureEvents message⟩

def perform {ρ : Type} (d : ChannelDevice α) (call : ChannelCall α) (state : ChannelState α) (value : ρ) :
    Reply α (ChannelDevice α) ρ :=
  ⟨.ok value, { d with state := state, calls := d.calls ++ [call] }, []⟩

def attempt {ρ : Type} (d : ChannelDevice α) (operation : Operation) (call : ChannelCall α) (state : ChannelState α)
    (value : ρ) : Reply α (ChannelDevice α) ρ :=
  match d.faults.get? operation with
  | some message => d.fail message
  | none => d.perform call state value

def sampleRate (d : ChannelDevice α) : Reply α (ChannelDevice α) α :=
  d.attempt .sampleRate .sampleRate d.state d.rate

def stop (d : ChannelDevice α) : Reply α (ChannelDevice α) Unit :=
  d.attempt .stop .stop { d.state with running := false, stops := d.state.stops + 1 } ()

def run (d : ChannelDevice α) : Reply α (ChannelDevice α) Unit :=
  d.attempt .run .run { d.state with running := true, runs := d.state.runs + 1 } ()

def setOffset (d : ChannelDevice α) (offset : α) : Reply α (ChannelDevice α) Unit :=
  d.attempt .setOffset (.setOffset offset) { d.state with offset := offset } ()

def writeRejected : String := "waveform memory write rejected"

def write (d : ChannelDevice α) (samples : Array α) (amplitude : α) : Reply α (ChannelDevice α) Unit :=
  let announced : List (Event α) := match d.driver with
    | .memory => []
    | .scripted => [.bufferWritten samples.size amplitude]
  let loaded := { d.state with samples := samples, amplitude := amplitude, writes := d.state.writes + 1 }
  let reply := match d.faults.get? .writeRawWaveform with
    | some message => d.fail message
    | none =>
      if d.state.failWrites then d.fail writeRejected
      else d.perform (.write samples amplitude) loaded ()
  { reply with events := announced ++ reply.events }

end ChannelDevice

end PulseSequencer
