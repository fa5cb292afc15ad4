import PulseSequencer.Sequence.Basic

/-!
This module contains the compilation of a sequence: the flattened waveforms of the slices are placed on one track per
channel. Only the channels with changes are compiled again, and nothing is stored unless the whole timeline is sound.
-/

namespace PulseSequencer.Sequence

variable {α : Type} [Scalar α]

def moved (registry : Registry α) (snapshot : Snapshot α) : ChannelSet :=
  .ofList (snapshot.channels.filterMap fun trace =>
    match registry.findChannel? trace.name with
    | none => none
    | some ch =>
      match registry.triggerOf ch with
      | .ok t => if Scalar.apart t.raiseAt trace.raiseAt then some ch else none
      | .error _ => some ch)

/--
The channels touched by changes in slices, given the durations of the last success. A slice without a start of its own
shifts those behind it if its duration has changed.
-/
def touched (durations : Table String α) (shifted : Bool) : List (Slice α) → ChannelSet
  | [] => ∅
  | s :: rest =>
    let resized := match durations.get? s.name with
      | some duration => Scalar.apart duration s.duration
      | none => true
    let stacked := s.start?.isNone
    let shifted := shifted || (stacked && resized)
    let all := if resized || (shifted && stacked) then s.channels else ∅
    s.changed ∪ all ∪ touched durations shifted rest

def recompilationSet (q : Sequence α) : ChannelSet :=
  q.pendingCompile ∪ moved q.registry q.snapshot ∪ touched q.durations false q.slices

structure Timeline (α : Type) [Scalar α] where
  cursor : α
  tracks : Table ChannelId (Waveform α)
  /-- The places of the slices so far, the last one first. -/
  spans : List (SliceSpan α)

def extend (registry : Registry α) (slice : String) (ch : ChannelId) (available : α) (segment : Waveform α) :
    Option (Waveform α) → Except (Error α) (Waveform α)
  | some track =>
    if available - track.width < -Scalar.tolerance then
      .error (.overlap slice (registry.channelName ch) track.width available)
    else
      .ok ((Slice.fillTo track available).concat segment)
  | none =>
    if Scalar.tolerance < available then .ok ((Waveform.blank available).concat segment) else .ok segment

def placeSegment (registry : Registry α) (slice : String) (start : α) (tracks : Table ChannelId (Waveform α))
    (ch : ChannelId) (segment : Waveform α) : Except (Error α) (Table ChannelId (Waveform α)) := do
  let trigger ← registry.triggerOf ch
  if start + Scalar.tolerance < trigger.raiseAt then
    .error (.preTrigger slice (registry.channelName ch) start trigger.raiseAt)
  else
    let track ← extend registry slice ch (start - trigger.raiseAt) segment (tracks.get? ch)
    .ok (tracks.insertLast ch track)

def placeSegments (registry : Registry α) (todo : ChannelSet) (slice : String) (start : α)
    (tracks : Table ChannelId (Waveform α)) :
    List (ChannelId × Waveform α) → Outcome α (Table ChannelId (Waveform α)) Unit
  | [] => .done () tracks
  | (ch, segment) :: rest =>
    if ch ∈ todo then
      match placeSegment registry slice start tracks ch segment with
      | .error cause => .failed cause tracks
      | .ok tracks =>
        let later := placeSegments registry todo slice start tracks rest
        { later with events := .slicePlaced slice (registry.channelName ch) start :: later.events }
    else
      placeSegments registry todo slice start tracks rest

def advance (cycleEnd cursor : α) (s : Slice α) : Except (Error α) (α × α) :=
  match s.start? with
  | some start => .ok (start, cursor)
  | none =>
    let finish := cursor + s.duration
    if cycleEnd + Scalar.tolerance < finish then .error (.cycleOverflow s.name finish cycleEnd)
    else .ok (cursor, finish)

def placeSlice (registry : Registry α) (cycleEnd : α) (todo : ChannelSet) (timeline : Timeline α) (s : Slice α) :
    Outcome α (Slice α) (Timeline α) :=
  (s.flatten registry).andThen fun _ s =>
    match advance cycleEnd timeline.cursor s with
    | .error cause => .failed cause s
    | .ok (start, cursor) =>
      let placed := placeSegments registry todo s.name start timeline.tracks s.flattened.entries
      ⟨placed.result.map fun _ => ⟨cursor, placed.state, ⟨s.name, start, s.duration⟩ :: timeline.spans⟩,
        s, placed.events⟩

def placeSlices (registry : Registry α) (cycleEnd : α) (todo : ChannelSet) (timeline : Timeline α) :
    List (Slice α) → Outcome α (List (Slice α)) (Timeline α)
  | [] => .done timeline []
  | s :: rest =>
    match placeSlice registry cycleEnd todo timeline s with
    | ⟨.error cause, s, events⟩ => ⟨.error cause, s :: rest, events⟩
    | ⟨.ok timeline, s, events⟩ =>
      match placeSlices registry cycleEnd todo timeline rest with
      | ⟨result, rest, later⟩ => ⟨result, s :: rest, events ++ later⟩

def takeSnapshot (q : Sequence α) (spans : List (SliceSpan α)) : Snapshot α where
  generation := q.snapshot.generation + 1
  cycleFrequency := q.cycleFrequency
  triggers := q.registry.triggers.map fun t => ⟨t.name, t.output, t.raiseAt, t.dropAfter⟩
  channels := q.registry.channels.zipIdx.filterMap fun (channel, index) =>
    match q.compiled.get? ⟨index⟩, q.registry.triggerOf ⟨index⟩ with
    | some w, .ok t => some ⟨channel.name, t.name, t.raiseAt, w⟩
    | _, _ => none
  slices := spans

def commit (q : Sequence α) (todo : ChannelSet) (slices : List (Slice α)) (timeline : Timeline α) : Sequence α :=
  let stored := {
    q with
    compiled := Slice.store q.compiled (todo.ids.map fun ch => (ch, timeline.tracks.get? ch))
    durations := Slice.durationsOf slices
    slices := slices.map Slice.acknowledge
    pendingCompile := ∅
    pendingProgram := q.pendingProgram ∪ todo }
  { stored with snapshot := stored.takeSnapshot timeline.spans.reverse }

def compile (q : Sequence α) : Outcome α (Sequence α) ChannelSet :=
  let todo := q.recompilationSet
  match placeSlices q.registry q.cycleLength todo ⟨0.0, ∅, []⟩ q.slices with
  | ⟨.ok timeline, slices, events⟩ =>
    ⟨.ok todo, q.commit todo slices timeline, events ++ [.compiled todo.size]⟩
  | ⟨.error cause, slices, events⟩ =>
    ⟨.error cause, { q with slices := slices, pendingCompile := todo },
      events ++ [.compileFailed todo.size cause]⟩

end PulseSequencer.Sequence
