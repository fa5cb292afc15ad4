import PulseSequencer.ChannelSet
import PulseSequencer.Table
import PulseSequencer.Waveform.Combine

/-!
This module contains slices: named windows of the cycle that hold a waveform for each of their channels, directly or
in sub slices that follow each other. A slice keeps the waveforms that it was flattened to, and it knows which of them
are out of date.
-/

namespace PulseSequencer

inductive SliceKind (α : Type)
  /-- A slice with a start of its own on the cycle timeline. -/
  | fixed (start duration : α)
  /-- A slice of the given duration that follows the one before it. -/
  | fixedLength (duration : α)
  /-- A slice that follows the one before it and lasts as long as what is in it. -/
  | flex
deriving Repr

inductive Padding
  | before
  | behind
deriving DecidableEq, Repr, Inhabited

structure Content (α : Type) [Scalar α] where
  name : String
  kind : SliceKind α
  waveforms : Table ChannelId (Waveform α)
  padding : Table ChannelId Padding

structure Memo (α : Type) [Scalar α] where
  /-- The channels edited since the last success. -/
  dirty : ChannelSet
  /-- The channels rebuilt since the owner of the slice last looked. -/
  unconsumed : ChannelSet
  durations : Table String α
  flattened : Table ChannelId (Waveform α)
  /-- Whether there was a success since the last edit. -/
  valid : Bool

structure Slice (α : Type) [Scalar α] where
  content : Content α
  memo : Memo α
  subs : List (Slice α)

namespace Memo

variable {α : Type} [Scalar α]

def empty : Memo α := ⟨∅, ∅, ∅, ∅, false⟩

end Memo

namespace Slice

variable {α : Type} [Scalar α]

instance : Inhabited (Slice α) := ⟨⟨⟨"", .flex, ∅, ∅⟩, .empty, []⟩⟩

def ofKind (name : String) (kind : SliceKind α) : Slice α :=
  ⟨⟨name, kind, ∅, ∅⟩, .empty, []⟩

def fixed (name : String) (start duration : α) : Slice α := ofKind name (.fixed start duration)

def fixedLength (name : String) (duration : α) : Slice α := ofKind name (.fixedLength duration)

def flex (name : String) : Slice α := ofKind name .flex

def name (s : Slice α) : String := s.content.name

def kind (s : Slice α) : SliceKind α := s.content.kind

def start? (s : Slice α) : Option α :=
  match s.kind with
  | .fixed start _ => some start
  | .fixedLength _ | .flex => none

def setDuration? (kind : SliceKind α) : Option α :=
  match kind with
  | .fixed _ duration | .fixedLength duration => some duration
  | .flex => none

def direct? (s : Slice α) (ch : ChannelId) : Option (Waveform α) :=
  s.content.waveforms.get? ch

def find? (subs : List (Slice α)) (name : String) : Option (Slice α) :=
  subs.find? (·.name == name)

mutual

def channels : Slice α → ChannelSet
  | ⟨content, _, subs⟩ => .ofList content.waveforms.keys ∪ channelsOf subs

def channelsOf : List (Slice α) → ChannelSet
  | [] => ∅
  | s :: rest => s.channels ∪ channelsOf rest

end

def longest (content : Content α) : α :=
  content.waveforms.values.foldl (fun acc w => Scalar.maximum acc w.width) 0.0

mutual

/--
How long a slice lasts. Without a duration of its own it lasts as long as the longest of its waveforms or all of its
sub slices, whichever is longer.
-/
def duration : Slice α → α
  | ⟨content, _, subs⟩ =>
    match setDuration? content.kind with
    | some duration => duration
    | none => Scalar.maximum (longest content) (endOf 0.0 subs)

def endOf (start : α) : List (Slice α) → α
  | [] => start
  | s :: rest => endOf (start + s.duration) rest

end

def resized (memo : Memo α) (sub : Slice α) : Bool :=
  Scalar.apart sub.duration ((memo.durations.get? sub.name).getD 0.0)

mutual

/--
The channels whose flattened waveform is out of date: those edited here, those changed in a sub slice, and all of them
once a sub slice has another duration, because what follows it moves.
-/
def updated : Slice α → ChannelSet
  | ⟨content, memo, subs⟩ =>
    let moved := if subs.any (resized memo) then channels ⟨content, memo, subs⟩ else ∅
    memo.dirty ∪ moved ∪ changedOf subs

def changedOf : List (Slice α) → ChannelSet
  | [] => ∅
  | s :: rest => s.updated ∪ s.memo.unconsumed ∪ changedOf rest

end

/--
The channels that the owner of a slice has to rebuild: those that are out of date, and those rebuilt since the owner
last looked.
-/
def changed (s : Slice α) : ChannelSet :=
  s.updated ∪ s.memo.unconsumed

mutual

def isStale : Slice α → Bool
  | ⟨_, memo, subs⟩ => !memo.valid || !memo.dirty.isEmpty || anyStale memo subs

def anyStale (memo : Memo α) : List (Slice α) → Bool
  | [] => false
  | s :: rest => resized memo s || !s.memo.unconsumed.isEmpty || s.isStale || anyStale memo rest

end

end Slice

end PulseSequencer
