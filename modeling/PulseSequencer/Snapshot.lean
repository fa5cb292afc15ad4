import PulseSequencer.Grid
import PulseSequencer.Waveform.Sample

/-!
This module contains the pictures of a compiled cycle that are handed to readers. A picture does not change any more,
whatever becomes of the sequence that it was taken of.
-/

namespace PulseSequencer

structure StrobeInfo (α : Type) where
  name : String
  output : Nat
  raiseAt : α
  dropAfter : α
deriving Repr

structure ChannelTrace (α : Type) [Scalar α] where
  name : String
  trigger : String
  raiseAt : α
  waveform : Waveform α
deriving Repr

structure SliceSpan (α : Type) where
  name : String
  start : α
  duration : α
deriving Repr

structure Snapshot (α : Type) [Scalar α] where
  generation : Nat
  cycleFrequency : α
  triggers : List (StrobeInfo α)
  channels : List (ChannelTrace α)
  slices : List (SliceSpan α)
deriving Repr

inductive TraceKind
  | channel
  | trigger
deriving DecidableEq, Repr

structure Trace (α : Type) where
  name : String
  kind : TraceKind
  values : Array α
deriving Repr

namespace Snapshot

variable {α : Type} [Scalar α]

def initial : Snapshot α := ⟨0, 0.0, [], [], []⟩

def find? (s : Snapshot α) (name : String) : Option (ChannelTrace α) :=
  s.channels.find? (·.name == name)

def times (s : Snapshot α) (rate : α) : Array α :=
  if s.cycleFrequency ≤ 0.0 then #[]
  else Array.ofFn fun i : Fin (Grid.sampleCount (1.0 / s.cycleFrequency) rate).toNat => Grid.time rate i

def strobeTrace (t : StrobeInfo α) (times : Array α) : Trace α :=
  let drop := t.raiseAt + t.dropAfter
  ⟨t.name, .trigger, times.map fun time => if t.raiseAt < time ∧ time < drop then 1.0 else 0.0⟩

def channelTrace (c : ChannelTrace α) (times : Array α) : Trace α :=
  ⟨c.name, .channel, c.waveform.valuesAt (times.map (· - c.raiseAt))⟩

def risingTriggers (s : Snapshot α) : List (StrobeInfo α) :=
  s.triggers.mergeSort fun a b => Scalar.totalLE a.raiseAt b.raiseAt

def render (s : Snapshot α) (rate : α) : List (Trace α) :=
  let times := s.times rate
  s.risingTriggers.flatMap fun t =>
    strobeTrace t times :: (s.channels.filter (·.trigger == t.name)).map (channelTrace · times)

end Snapshot

end PulseSequencer
