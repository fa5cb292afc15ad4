import PulseSequencer.Outcome
import PulseSequencer.Registry
import PulseSequencer.Slice.Edit

/-!
This module contains the flattening of a slice: one waveform for each channel that it or a slice below it plays. Only
the waveforms that are out of date are rebuilt.
-/

namespace PulseSequencer.Slice

variable {α : Type} [Scalar α]

def fillTo (track : Waveform α) (width : α) : Waveform α :=
  let gap := width - track.width
  if Scalar.tolerance < gap then track.concat (.blank gap) else track

def layOut (ch : ChannelId) (pointer : α) (track : Option (Waveform α)) : List (Slice α) → Option (Waveform α)
  | [] => track.map (fillTo · pointer)
  | s :: rest =>
    let longer := match s.memo.flattened.get? ch, track with
      | none, track => track
      | some segment, none =>
        if pointer ≤ Scalar.tolerance then some segment else some ((Waveform.blank pointer).concat segment)
      | some segment, some track => some ((fillTo track pointer).concat segment)
    layOut ch (pointer + s.duration) longer rest

def inherited (ch : ChannelId) (subs : List (Slice α)) : Option (Waveform α) :=
  layOut ch 0.0 none subs

def pad (registry : Registry α) (content : Content α) (ch : ChannelId) (w : Waveform α) :
    Except (Error α) (Waveform α) :=
  match setDuration? content.kind with
  | none => .ok w
  | some duration =>
    let gap := duration - w.width
    if gap < -Scalar.tolerance then
      .error (.sliceOverflow content.name (registry.channelName ch) w.width duration)
    else if gap ≤ Scalar.tolerance then
      .ok w
    else
      match (content.padding.get? ch).getD .before with
      | .before => .ok ((Waveform.blank gap).concat w)
      | .behind => .ok (w.concat (.blank gap))

def rebuild (registry : Registry α) (content : Content α) (subs : List (Slice α)) (ch : ChannelId) :
    Except (Error α) (Option (Waveform α)) :=
  match content.waveforms.get? ch, inherited ch subs with
  | some _, some _ => .error (.conflictingWaveform content.name (registry.channelName ch))
  | some w, none | none, some w => (pad registry content ch w).map some
  | none, none => .ok none

def rebuildAll (registry : Registry α) (content : Content α) (subs : List (Slice α)) :
    List ChannelId → Except (Error α) (List (ChannelId × Option (Waveform α)))
  | [] => .ok []
  | ch :: rest =>
    match rebuild registry content subs ch with
    | .error cause => .error cause
    | .ok w => (rebuildAll registry content subs rest).map ((ch, w) :: ·)

def store (flattened : Table ChannelId (Waveform α)) (fresh : List (ChannelId × Option (Waveform α))) :
    Table ChannelId (Waveform α) :=
  fresh.foldl (fun t (ch, w) => match w with | some w => t.insert ch w | none => t.erase ch) flattened

def durationsOf (subs : List (Slice α)) : Table String α :=
  subs.foldl (fun t s => t.insert s.name s.duration) ∅

def commit (memo : Memo α) (subs : List (Slice α)) (rebuilt : ChannelSet)
    (fresh : List (ChannelId × Option (Waveform α))) : Memo α where
  dirty := ∅
  unconsumed := memo.unconsumed ∪ rebuilt
  durations := durationsOf subs
  flattened := store memo.flattened fresh
  valid := true

def postpone (memo : Memo α) (queued : ChannelSet) : Memo α :=
  { memo with dirty := memo.dirty ∪ queued, valid := false }

mutual

def flatten (registry : Registry α) : Slice α → Outcome α (Slice α) Unit
  | ⟨content, memo, subs⟩ =>
    if isStale ⟨content, memo, subs⟩ then
      let queued := updated ⟨content, memo, subs⟩
      match flattenAll registry subs with
      | ⟨.error cause, subs, events⟩ => ⟨.error cause, ⟨content, postpone memo queued, subs⟩, events⟩
      | ⟨.ok (), subs, events⟩ =>
        match rebuildAll registry content subs queued.ids with
        | .error cause => ⟨.error cause, ⟨content, postpone memo queued, subs⟩, events⟩
        | .ok fresh =>
          ⟨.ok (), ⟨content, commit memo subs queued fresh, subs.map acknowledge⟩,
            events ++ [.sliceFlattened content.name queued.size]⟩
    else
      .done () ⟨content, memo, subs⟩

def flattenAll (registry : Registry α) : List (Slice α) → Outcome α (List (Slice α)) Unit
  | [] => .done () []
  | s :: rest =>
    match flatten registry s with
    | ⟨.error cause, s, events⟩ => ⟨.error cause, s :: rest, events⟩
    | ⟨.ok (), s, events⟩ =>
      match flattenAll registry rest with
      | ⟨result, rest, later⟩ => ⟨result, s :: rest, events ++ later⟩

end

def flattened (s : Slice α) : Table ChannelId (Waveform α) := s.memo.flattened

def getWaveform (s : Slice α) (registry : Registry α) (ch : ChannelId) : Outcome α (Slice α) (Option (Waveform α)) :=
  (s.flatten registry).andThen fun _ s => .done (s.flattened.get? ch) s

end PulseSequencer.Slice
