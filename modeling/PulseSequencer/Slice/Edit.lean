import PulseSequencer.Slice.Basic

/-!
This module contains the edits of a slice. Each marks the channels that it touches.
-/

namespace PulseSequencer

namespace Memo

variable {α : Type} [Scalar α]

def mark (memo : Memo α) (ch : ChannelId) : Memo α :=
  { memo with dirty := memo.dirty.insert ch, valid := false }

end Memo

namespace Slice

variable {α : Type} [Scalar α]

def mark (s : Slice α) (ch : ChannelId) : Slice α :=
  { s with memo := s.memo.mark ch }

def addWaveform (s : Slice α) (ch : ChannelId) (w : Waveform α) : Slice α :=
  let whole := match s.content.waveforms.get? ch with
    | some existing => existing.concat w
    | none => w
  { s.mark ch with content := { s.content with waveforms := s.content.waveforms.insertLast ch whole } }

def clearWaveform (s : Slice α) (ch : ChannelId) : Slice α :=
  { s.mark ch with content := { s.content with waveforms := s.content.waveforms.erase ch } }

def setPadding (s : Slice α) (ch : ChannelId) (position : Padding) : Slice α :=
  { s.mark ch with content := { s.content with padding := s.content.padding.insert ch position } }

def acknowledge (s : Slice α) : Slice α :=
  { s with memo := { s.memo with unconsumed := ∅ } }

def checkSub (parent child : Slice α) : Except (Error α) Unit := do
  checkName .slice child.name
  match child.kind with
  | .fixed .. => .error (.fixedSliceNested parent.name child.name)
  | .fixedLength _ | .flex =>
    if (find? parent.subs child.name).isSome then
      .error (.duplicateName .slice child.name (parent.subs.map (·.name)))
    else
      .ok ()

def addSub (parent child : Slice α) : Except (Error α) (Slice α) :=
  match checkSub parent child with
  | .error cause => .error cause
  | .ok () =>
    .ok {
      parent with
      memo := {
        parent.memo with
        dirty := parent.memo.dirty ∪ child.changed ∪ child.channels
        durations := parent.memo.durations.insert child.name 0.0
        valid := false }
      subs := parent.subs ++ [child] }

end Slice

end PulseSequencer
