import PulseSequencer.Sequence.Compile

/-!
This module contains what a sequence does to its instruments: it sets up the strobes, loads the compiled waveforms,
and starts and stops the channels.
-/

namespace PulseSequencer.Sequence

variable {α : Type} [Scalar α]

def callTrigger {ρ : Type} (q : Sequence α) (name : String) (operation : Operation)
    (call : TriggerDevice α → Reply α (TriggerDevice α) ρ) : Outcome α (Sequence α) ρ :=
  let reply := call q.triggerDevice
  ⟨reply.result.mapError (.device name operation), { q with triggerDevice := reply.device }, reply.events⟩

def callChannel {ρ : Type} (q : Sequence α) (ch : ChannelId) (name : String) (operation : Operation)
    (call : ChannelDevice α → Reply α (ChannelDevice α) ρ) : Outcome α (Sequence α) ρ :=
  match q.devices.get? ch with
  | none => .failed (.unknown .channel name) q
  | some device =>
    let reply := call device
    ⟨reply.result.mapError (.device name operation), { q with devices := q.devices.insert ch reply.device },
      reply.events⟩

def forAll {β : Type} (work : β → Sequence α → Outcome α (Sequence α) Unit) :
    List β → Sequence α → Outcome α (Sequence α) Unit
  | [], q => .done () q
  | x :: rest, q => (work x q).andThen fun _ q => forAll work rest q

def note (q : Sequence α) (event : Event α) : Outcome α (Sequence α) Unit :=
  ⟨.ok (), q, [event]⟩

def setupTrigger (q : Sequence α) : Outcome α (Sequence α) Unit :=
  (q.callTrigger "trigger device" .setCycleFrequency (·.setCycleFrequency q.cycleFrequency)).andThen fun _ r =>
  (forAll (fun t r => r.callTrigger t.name .setChannelDelay (·.setChannelDelay t.output t.raiseAt t.dropAfter))
    q.registry.triggers r).andThen fun _ r =>
  r.note (.triggerDeviceSetUp q.cycleFrequency)

structure Load (α : Type) where
  channel : ChannelId
  name : String
  buffer : Option (Array α × α)

/--
Load a channel with samples. If there are too many to be counted, the program ends.
-/
def makeLoad (q : Sequence α) (ch : ChannelId) (name : String) (buffer? : Option (Array α × α)) :
    Outcome α (Sequence α) (Load α) :=
  match buffer? with
  | some buffer => .done ⟨ch, name, some buffer⟩ q
  | none => .failed .overflow q

def prepare (q : Sequence α) (ch : ChannelId) : Outcome α (Sequence α) (Load α) :=
  let name := q.registry.channelName ch
  match q.devices.get? ch, q.compiled? ch with
  | none, _ => .failed (.unknown .channel name) q
  | some _, none => .done ⟨ch, name, none⟩ q
  | some device, some w =>
    (q.callChannel ch name .sampleRate (·.sampleRate)).andThen fun rate q =>
      q.makeLoad ch name (w.normalizedSample rate device.minUnit)

def prepareAll : List ChannelId → Sequence α → Outcome α (Sequence α) (List (Load α))
  | [], q => .done [] q
  | ch :: rest, q =>
    (q.prepare ch).andThen fun load q =>
    (prepareAll rest q).andThen fun loads q => .done (load :: loads) q

def loadOne (load : Load α) (q : Sequence α) : Outcome α (Sequence α) Unit :=
  (q.callChannel load.channel load.name .stop (·.stop)).andThen fun _ q =>
  (match load.buffer with
    | some (samples, peak) => q.callChannel load.channel load.name .writeRawWaveform (·.write samples peak)
    | none => .done () q).andThen fun _ q =>
  .done () { q with pendingProgram := q.pendingProgram.erase load.channel }

/--
Load all waiting channels, and tell how many they were. All buffers are made before the first device is touched.
-/
def program (q : Sequence α) : Outcome α (Sequence α) Nat :=
  (prepareAll q.pendingProgram.ids q).andThen fun loads q =>
  (forAll loadOne loads q).andThen fun _ q =>
  ({ q with programmed := true }.note (.programmed loads.length)).andThen fun _ q =>
  .done loads.length q

def setupChannels (q : Sequence α) : Outcome α (Sequence α) Nat :=
  q.compile.andThen fun _ q => q.program

def setup (q : Sequence α) : Outcome α (Sequence α) Nat :=
  q.setupTrigger.andThen fun _ q => q.setupChannels

def callIfPresent (operation : Operation) (call : ChannelDevice α → Reply α (ChannelDevice α) Unit)
    (ch : ChannelId) (q : Sequence α) : Outcome α (Sequence α) Unit :=
  if q.devices.contains ch then q.callChannel ch (q.registry.channelName ch) operation call else .done () q

def runChannels (q : Sequence α) : Outcome α (Sequence α) Unit :=
  if q.programmed then
    forAll (callIfPresent .run (·.run)) (q.compiled.keys.filter (· ∉ q.pendingProgram)) q
  else
    .failed .notCompiled q

def stopChannels (q : Sequence α) : Outcome α (Sequence α) Unit :=
  forAll (callIfPresent .stop (·.stop)) q.devices.keys q

def setOffset (q : Sequence α) (name : String) (offset : α) : Outcome α (Sequence α) Unit :=
  match q.registry.channelId name with
  | .error cause => .failed cause q
  | .ok ch => q.callChannel ch name .setOffset (·.setOffset offset)

def applyOffsets (q : Sequence α) (iName qName : String) (iOffset qOffset : α) : Outcome α (Sequence α) Unit :=
  (q.setOffset iName iOffset).andThen fun _ q => q.setOffset qName qOffset

end PulseSequencer.Sequence
