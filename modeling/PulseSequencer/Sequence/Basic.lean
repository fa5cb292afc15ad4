import PulseSequencer.Device.Channel
import PulseSequencer.Device.Trigger
import PulseSequencer.Registry
import PulseSequencer.Slice.Flatten
import PulseSequencer.Slice.Path
import PulseSequencer.Snapshot

/-!
This module contains sequences: the description of one repetition cycle, what it was compiled to, and the instruments
that play it.
-/

namespace PulseSequencer

structure Sequence (α : Type) [Scalar α] where
  cycleFrequency : α
  triggerDevice : TriggerDevice α
  registry : Registry α
  devices : Table ChannelId (ChannelDevice α)
  slices : List (Slice α)
  /-- The compiled waveforms, which count from the rise of the trigger. -/
  compiled : Table ChannelId (Waveform α)
  /-- The durations of the slices at the last success. -/
  durations : Table String α
  pendingCompile : ChannelSet
  pendingProgram : ChannelSet
  programmed : Bool
  snapshot : Snapshot α

namespace Sequence

variable {α : Type} [Scalar α]

def create (driver : Driver) (cycleFrequency : α) : Sequence α where
  cycleFrequency := cycleFrequency
  triggerDevice := .initial driver
  registry := .empty
  devices := ∅
  slices := []
  compiled := ∅
  durations := ∅
  pendingCompile := ∅
  pendingProgram := ∅
  programmed := false
  snapshot := .initial

def cycleLength (q : Sequence α) : α :=
  1.0 / q.cycleFrequency

def compiled? (q : Sequence α) (ch : ChannelId) : Option (Waveform α) :=
  q.compiled.get? ch

def addTrigger (q : Sequence α) (name : String) (output : Nat) (raiseAt dropAfter : α) :
    Except (Error α) (Sequence α × TriggerId) :=
  (q.registry.addTrigger name output raiseAt dropAfter).map fun (registry, id) => ({ q with registry := registry }, id)

def linkChannel (q : Sequence α) (trigger : TriggerId) (name : String) (device : ChannelDevice α) :
    Except (Error α) (Sequence α × ChannelId) := do
  let _ ← q.registry.trigger trigger
  let (registry, ch) ← q.registry.addChannel name
  let registry ← registry.link ch trigger
  .ok ({ q with registry := registry, devices := q.devices.insert ch device }, ch)

/--
The time before which the cycle must not end for a slice to have room, as far as it is known without its content.
-/
def leastEnd? (s : Slice α) : Option α :=
  match s.kind with
  | .fixed start duration => some (start + duration)
  | .fixedLength duration => some duration
  | .flex => none

def checkEnd (q : Sequence α) (slice : String) (finish : α) : Except (Error α) Unit :=
  if q.cycleLength + Scalar.tolerance < finish then .error (.cycleOverflow slice finish q.cycleLength) else .ok ()

def addSlice (q : Sequence α) (s : Slice α) : Except (Error α) (Sequence α) := do
  checkName .slice s.name
  if (Slice.find? q.slices s.name).isSome then
    .error (.duplicateName .slice s.name (q.slices.map (·.name)))
  else
    match leastEnd? s with
    | some finish => q.checkEnd s.name finish
    | none => .ok ()
    .ok { q with slices := q.slices ++ [s] }

def slice (q : Sequence α) (name : String) : Except (Error α) (Slice α) :=
  match Slice.find? q.slices name with
  | some s => .ok s
  | none => .error (.unknown .slice name)

def dropSlice (q : Sequence α) (name : String) : Sequence α × Bool :=
  ({ q with slices := q.slices.filter (·.name != name) }, (Slice.find? q.slices name).isSome)

def dropDevice (q : Sequence α) (ch : ChannelId) : Sequence α × Option (ChannelDevice α) :=
  ({ q with devices := q.devices.erase ch }, q.devices.get? ch)

def resolve (q : Sequence α) (path : String) : Except (Error α) (Slice α) :=
  match SlicePath.names path with
  | [] => .error (.unknown .slice "")
  | top :: rest => do Slice.follow rest (← q.slice top)

def workIn {ρ : Type} (q : Sequence α) (top : String) (rest : List String)
    (work : Slice α → Outcome α (Slice α) ρ) : Outcome α (Sequence α) ρ :=
  match q.slice top with
  | .error cause => .failed cause q
  | .ok s => (Slice.workAt work rest s).mapState fun s => { q with slices := Slice.replace s q.slices }

def workAt {ρ : Type} (q : Sequence α) (path : String) (work : Slice α → Outcome α (Slice α) ρ) :
    Outcome α (Sequence α) ρ :=
  match SlicePath.names path with
  | [] => .failed (.unknown .slice "") q
  | top :: rest => q.workIn top rest work

def editChannel (q : Sequence α) (path channel : String) (edit : Slice α → ChannelId → Slice α) :
    Except (Error α) (Sequence α) := do
  let ch ← q.registry.channelId channel
  let o := q.workAt path fun s => .done () (edit s ch)
  o.result
  .ok o.state

def addWaveform (q : Sequence α) (path channel : String) (w : Waveform α) : Except (Error α) (Sequence α) :=
  q.editChannel path channel (·.addWaveform · w)

def clearWaveform (q : Sequence α) (path channel : String) : Except (Error α) (Sequence α) :=
  q.editChannel path channel (·.clearWaveform ·)

def setPadding (q : Sequence α) (path channel : String) (position : Padding) : Except (Error α) (Sequence α) :=
  q.editChannel path channel (·.setPadding · position)

end Sequence

end PulseSequencer
