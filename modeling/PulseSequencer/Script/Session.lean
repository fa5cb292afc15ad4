import PulseSequencer.Script.Error
import PulseSequencer.Sequence.Hardware

/-!
This module contains the script interface of a sequence: everything is addressed by name, and the instruments are driver
objects of the script.
-/

namespace PulseSequencer.Script

variable {α : Type} [Scalar α]

def paddingOfWord : String → Except (ScriptError α) Padding
  | "before" => .ok .before
  | "behind" => .ok .behind
  | word => .error (.badPadding word)

def newSession (cycleFrequency : α) : Sequence α :=
  .create .scripted cycleFrequency

/--
Take over a channel driver and bind it to the trigger of a name. The trigger is looked up before the driver is taken
over, and the name of the channel is checked last.
-/
def linkDriver (q : Sequence α) (trigger name : String) (rate : α) (minUnit : UInt64) :
    Outcome α (Sequence α) Unit :=
  match q.registry.triggerId trigger with
  | .error cause => .failed cause q
  | .ok id =>
    (q.note (.driverWrapped minUnit.toNat)).andThen fun _ q =>
    match q.linkChannel id name (.scripted rate minUnit) with
    | .error cause => .failed cause q
    | .ok (q, _) => .done () q

def addSubSlice (q : Sequence α) (path name : String) (duration : Option α) : Outcome α (Sequence α) Unit :=
  let child : Slice α := match duration with
    | some duration => .fixedLength name duration
    | none => .flex name
  q.workAt path fun parent =>
    match parent.addSub child with
    | .error cause => .failed cause parent
    | .ok parent => .done () parent

def sliceDuration (q : Sequence α) (path : String) : Except (Error α) α :=
  (q.resolve path).map (·.duration)

def setPadding (q : Sequence α) (path channel word : String) : Except (ScriptError α) (Sequence α) := do
  let position ← paddingOfWord word
  (q.setPadding path channel position).mapError .library

def compile (q : Sequence α) : Outcome α (Sequence α) (List String) :=
  q.compile.andThen fun done q => .done (done.ids.map q.registry.channelName) q

def compiled (q : Sequence α) (name : String) : Except (Error α) (Option (Waveform α)) :=
  (q.registry.channelId name).map q.compiled?

def adjustDriver (q : Sequence α) (name : String) (change : ChannelDevice α → ChannelDevice α) : Sequence α :=
  match q.registry.findChannel? name with
  | none => q
  | some ch =>
    match q.devices.get? ch with
    | none => q
    | some device => { q with devices := q.devices.insert ch (change device) }

def driverCalls (q : Sequence α) (name : String) : List (ChannelCall α) :=
  match q.registry.findChannel? name with
  | none => []
  | some ch => ((q.devices.get? ch).map (·.calls)).getD []

end PulseSequencer.Script
