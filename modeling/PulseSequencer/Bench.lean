import PulseSequencer.Sequence.Hardware

/-!
This module contains a workbench: a sequence whose instruments live in memory, so that their failures can be arranged
and their state can be read, also after they were unplugged.
-/

namespace PulseSequencer

structure Bench (α : Type) [Scalar α] where
  sequence : Sequence α
  unplugged : Table ChannelId (ChannelDevice α)
  held : Option (Snapshot α)

namespace Bench

variable {α : Type} [Scalar α]

def create (cycleFrequency : α) : Bench α :=
  ⟨.create .memory cycleFrequency, ∅, none⟩

def device? (b : Bench α) (ch : ChannelId) : Option (ChannelDevice α) :=
  (b.sequence.devices.get? ch).or (b.unplugged.get? ch)

def unplug (b : Bench α) (ch : ChannelId) : Bench α × Bool :=
  match b.sequence.dropDevice ch with
  | (q, some device) => ({ b with sequence := q, unplugged := b.unplugged.insert ch device }, true)
  | (q, none) => ({ b with sequence := q }, false)

def adjust (b : Bench α) (ch : ChannelId) (change : ChannelDevice α → ChannelDevice α) : Bench α :=
  match b.sequence.devices.get? ch, b.unplugged.get? ch with
  | some device, _ => { b with sequence.devices := b.sequence.devices.insert ch (change device) }
  | none, some device => { b with unplugged := b.unplugged.insert ch (change device) }
  | none, none => b

def adjustTrigger (b : Bench α) (change : TriggerDevice α → TriggerDevice α) : Bench α :=
  { b with sequence.triggerDevice := change b.sequence.triggerDevice }

def hold (b : Bench α) : Bench α :=
  { b with held := some b.sequence.snapshot }

end Bench

end PulseSequencer
