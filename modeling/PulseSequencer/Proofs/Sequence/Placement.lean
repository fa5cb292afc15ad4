import PulseSequencer.Proofs.Outcome
import PulseSequencer.Proofs.Slice.Flattening
import PulseSequencer.Sequence.Compile

/-!
This module contains the placement of slices on the cycle timeline as it looks from one channel: its track depends on
when its trigger rises, and on the starts, the durations and the segments of the slices. The compilation of a cycle does
this for all channels at once.
-/

namespace PulseSequencer.Sequence

variable {α : Type} [Scalar α]

open Scalar

/--
What a channel sees of a slice: its start, unless it follows the slice before it, its duration, and its segment.
-/
structure Slot (α : Type) [Scalar α] where
  start? : Option α
  duration : α
  segment : Option (Waveform α)

def join? (available : α) (segment : Waveform α) : Option (Waveform α) → Option (Waveform α)
  | some track =>
    if available - track.width < -tolerance then none else some ((Slice.fillTo track available).concat segment)
  | none => some (if tolerance < available then (Waveform.blank available).concat segment else segment)

def placeSlot (rise : Option α) (start : α) (segment track : Option (Waveform α)) : Option (Option (Waveform α)) :=
  match segment, rise with
  | none, _ => some track
  | some _, none => none
  | some w, some rise => if start + tolerance < rise then none else (join? (start - rise) w track).map some

def Slot.next (cursor : α) (slot : Slot α) : α :=
  match slot.start? with
  | some _ => cursor
  | none => cursor + slot.duration

/--
The track of a channel after slices of which the first starts at the cursor, unless it has a start of its own.
-/
def placeTrack (rise : Option α) (cursor : α) (track : Option (Waveform α)) :
    List (Slot α) → Option (Option (Waveform α))
  | [] => some track
  | slot :: rest =>
    (placeSlot rise (slot.start?.getD cursor) slot.segment track).bind fun track =>
      placeTrack rise (slot.next cursor) track rest

def slotOf (ch : ChannelId) (s : Slice α) : Slot α :=
  ⟨s.start?, s.duration, s.memo.flattened.get? ch⟩

def rise? (registry : Registry α) (ch : ChannelId) : Option α :=
  match registry.triggerOf ch with
  | .ok t => some t.raiseAt
  | .error _ => none

def Fits (cycleEnd cursor : α) : List (Slice α) → Prop
  | [] => True
  | s :: rest => ∃ start next, advance cycleEnd cursor s = .ok (start, next) ∧ Fits cycleEnd next rest

@[simp]
theorem placeSlot_none (rise : Option α) (start : α) (track : Option (Waveform α)) :
    placeSlot rise start none track = some track := rfl

theorem exists_of_placeSlot_some {rise : Option α} {start : α} {w : Waveform α} {track track' : Option (Waveform α)}
    (h : placeSlot rise start (some w) track = some track') : ∃ w', track' = some w' := by
  cases rise with
  | none => cases h
  | some rise =>
    simp only [placeSlot] at h
    split at h
    · cases h
    · obtain ⟨w', _, rfl⟩ := Option.map_eq_some_iff.mp h
      exact ⟨w', rfl⟩

omit [Scalar α] in
theorem rise?_of_triggerOf {registry : Registry α} {ch : ChannelId} {t : Trigger α} (h : registry.triggerOf ch = .ok t) :
    rise? registry ch = some t.raiseAt := by
  unfold rise?
  rw [h]

omit [Scalar α] in
theorem exists_of_rise? {registry : Registry α} {ch : ChannelId} {rise : α} (h : rise? registry ch = some rise) :
    ∃ t, registry.triggerOf ch = .ok t ∧ t.raiseAt = rise := by
  unfold rise? at h
  cases trigger : registry.triggerOf ch with
  | error cause => simp [trigger] at h
  | ok t => exact ⟨t, rfl, by simpa [trigger] using h⟩

section Tracks

variable {rise : Option α} {cursor : α} {track track' : Option (Waveform α)} {slots : List (Slot α)}

theorem placeTrack_append_silent {slot : Slot α} (silent : slot.segment = none) :
    placeTrack rise cursor track (slots ++ [slot]) = placeTrack rise cursor track slots := by
  induction slots generalizing cursor track with
  | nil => simp only [List.nil_append, placeTrack, silent, placeSlot_none, Option.bind_some]
  | cons first rest ih => simp only [List.cons_append, placeTrack, ih]

theorem placeTrack_of_silent (silent : ∀ slot ∈ slots, slot.segment = none) :
    placeTrack rise cursor track slots = some track := by
  induction slots generalizing cursor with
  | nil => rfl
  | cons first rest ih =>
    rw [List.forall_mem_cons] at silent
    rw [placeTrack, silent.1, placeSlot_none, Option.bind_some]
    exact ih silent.2

theorem silent_of_placeTrack (h : placeTrack rise cursor track slots = some none) :
    track = none ∧ ∀ slot ∈ slots, slot.segment = none := by
  induction slots generalizing cursor track with
  | nil =>
    cases h
    exact ⟨rfl, nofun⟩
  | cons first rest ih =>
    obtain ⟨between, slot, h⟩ := Option.bind_eq_some_iff.mp h
    obtain ⟨rfl, others⟩ := ih h
    cases segment : first.segment with
    | none =>
      rw [segment, placeSlot_none] at slot
      cases slot
      exact ⟨rfl, List.forall_mem_cons.mpr ⟨segment, others⟩⟩
    | some w =>
      rw [segment] at slot
      obtain ⟨_, contra⟩ := exists_of_placeSlot_some slot
      cases contra

theorem placeTrack_none (h : placeTrack none cursor track slots = some track') : track' = track := by
  induction slots generalizing cursor track with
  | nil =>
    cases h
    rfl
  | cons first rest ih =>
    obtain ⟨between, slot, h⟩ := Option.bind_eq_some_iff.mp h
    cases segment : first.segment with
    | none =>
      rw [segment, placeSlot_none] at slot
      cases slot
      exact ih h
    | some w =>
      rw [segment] at slot
      cases slot

end Tracks

section Segments

variable {registry : Registry α} {todo : ChannelSet} {slice : String} {start : α}
  {tracks : Table ChannelId (Waveform α)} {ch : ChannelId} {segment w : Waveform α}

theorem extend_eq_ok_iff {available : α} {track : Option (Waveform α)} :
    extend registry slice ch available segment track = .ok w ↔ join? available segment track = some w := by
  cases track with
  | none =>
    simp only [extend, join?]
    split <;> simp
  | some track =>
    simp only [extend, join?]
    split <;> simp

theorem placeSegment_eq_ok_iff {tracks' : Table ChannelId (Waveform α)} :
    placeSegment registry slice start tracks ch segment = .ok tracks'
      ↔ ∃ w, placeSlot (rise? registry ch) start (some segment) (tracks.get? ch) = some (some w)
        ∧ tracks' = tracks.insertLast ch w := by
  unfold placeSegment rise? placeSlot
  cases registry.triggerOf ch with
  | error cause => simp [bind, Except.bind]
  | ok t =>
    simp only [bind, Except.bind]
    split
    · simp
    · cases h : extend registry slice ch (start - t.raiseAt) segment (tracks.get? ch) with
      | error cause =>
        have : join? (start - t.raiseAt) segment (tracks.get? ch) = none := by
          apply Option.eq_none_iff_forall_ne_some.mpr
          intro w hw
          rw [extend_eq_ok_iff.mpr hw] at h
          cases h
        simp [this]
      | ok w => simp [extend_eq_ok_iff.mp h, eq_comm]

theorem find?_cons_of_ne {c : ChannelId} {w : Waveform α} {rest : List (ChannelId × Waveform α)} (h : ch ≠ c) :
    Table.find? ch ((c, w) :: rest) = Table.find? ch rest :=
  if_neg (Ne.symm h)

theorem find?_eq_none_of_not_mem {entries : List (ChannelId × Waveform α)} (h : ch ∉ entries.map (·.1)) :
    Table.find? ch entries = none := by
  induction entries with
  | nil => rfl
  | cons entry rest ih =>
    rw [List.map_cons, List.mem_cons, not_or] at h
    rw [find?_cons_of_ne h.1]
    exact ih h.2

theorem placeSegments_of_mem {c : ChannelId} (rest : List (ChannelId × Waveform α))
    {tracks' : Table ChannelId (Waveform α)} (mem : c ∈ todo)
    (placed : placeSegment registry slice start tracks c segment = .ok tracks') :
    (placeSegments registry todo slice start tracks ((c, segment) :: rest)).result
        = (placeSegments registry todo slice start tracks' rest).result
      ∧ (placeSegments registry todo slice start tracks ((c, segment) :: rest)).state
        = (placeSegments registry todo slice start tracks' rest).state := by
  simp only [placeSegments, mem, placed, if_true, and_self]

theorem get?_placeSegments {entries : List (ChannelId × Waveform α)} (distinct : (entries.map (·.1)).Nodup)
    (ok : (placeSegments registry todo slice start tracks entries).result = .ok ()) (mem : ch ∈ todo) :
    placeSlot (rise? registry ch) start (Table.find? ch entries) (tracks.get? ch)
      = some ((placeSegments registry todo slice start tracks entries).state.get? ch) := by
  induction entries generalizing tracks with
  | nil => rfl
  | cons entry rest ih =>
    obtain ⟨c, w⟩ := entry
    rw [List.map_cons, List.nodup_cons] at distinct
    by_cases hc : c ∈ todo
    · cases placed : placeSegment registry slice start tracks c w with
      | error cause => simp [placeSegments, hc, placed, Outcome.failed] at ok
      | ok tracks' =>
        obtain ⟨result, state⟩ := placeSegments_of_mem rest hc placed
        rw [result] at ok
        rw [state]
        have later := ih distinct.2 ok
        obtain ⟨w', slot, rfl⟩ := placeSegment_eq_ok_iff.mp placed
        rw [Table.get?_insertLast] at later
        -- A channel occurs once, so the entries behind its own leave its track alone.
        by_cases same : ch = c
        · obtain rfl := same
          rw [find?_eq_none_of_not_mem distinct.1, if_pos rfl] at later
          rw [← later, placeSlot_none, ← slot]
          simp [Table.find?]
        · rw [if_neg (Ne.symm same)] at later
          rw [find?_cons_of_ne same]
          exact later
    · have same : ch ≠ c := fun h => hc (h ▸ mem)
      simp only [placeSegments, hc, if_false] at ok ⊢
      rw [find?_cons_of_ne same]
      exact ih distinct.2 ok

theorem placeSegments_ok {entries : List (ChannelId × Waveform α)} (distinct : (entries.map (·.1)).Nodup)
    (h : ∀ ch ∈ todo, (placeSlot (rise? registry ch) start (Table.find? ch entries) (tracks.get? ch)).isSome) :
    (placeSegments registry todo slice start tracks entries).result = .ok () := by
  induction entries generalizing tracks with
  | nil => rfl
  | cons entry rest ih =>
    obtain ⟨c, w⟩ := entry
    rw [List.map_cons, List.nodup_cons] at distinct
    by_cases hc : c ∈ todo
    · obtain ⟨track, slot⟩ := Option.isSome_iff_exists.mp (h c hc)
      have first : Table.find? c ((c, w) :: rest) = some w := by simp [Table.find?]
      rw [first] at slot
      obtain ⟨w', rfl⟩ := exists_of_placeSlot_some slot
      have placed : placeSegment registry slice start tracks c w = .ok (tracks.insertLast c w') :=
        placeSegment_eq_ok_iff.mpr ⟨w', slot, rfl⟩
      rw [(placeSegments_of_mem rest hc placed).1]
      apply ih distinct.2
      intro ch mem
      rw [Table.get?_insertLast]
      by_cases same : ch = c
      · rw [same, find?_eq_none_of_not_mem distinct.1]
        rfl
      · rw [if_neg (Ne.symm same), ← find?_cons_of_ne same]
        exact h ch mem
    · simp only [placeSegments, hc, if_false]
      apply ih distinct.2
      intro ch mem
      have same : ch ≠ c := fun h => hc (h ▸ mem)
      rw [← find?_cons_of_ne same]
      exact h ch mem

end Segments

section Slices

variable {registry : Registry α} {cycleEnd : α} {todo : ChannelSet} {timeline timeline' : Timeline α} {s : Slice α}
  {slices : List (Slice α)}

theorem start?_flatten (registry : Registry α) (s : Slice α) : (s.flatten registry).state.start? = s.start? := by
  unfold Slice.start? Slice.kind
  rw [Slice.content_flatten]

theorem advance_flatten (cycleEnd cursor : α) (registry : Registry α) (s : Slice α) :
    advance cycleEnd cursor (s.flatten registry).state = advance cycleEnd cursor s := by
  unfold advance
  rw [start?_flatten, Slice.duration_flatten, Slice.name_flatten]

theorem slot_of_advance {cursor start next : α} (h : advance cycleEnd cursor s = .ok (start, next)) (ch : ChannelId) :
    start = (slotOf ch s).start?.getD cursor ∧ next = (slotOf ch s).next cursor := by
  unfold advance at h
  unfold slotOf Slot.next
  cases hs : s.start? with
  | none =>
    simp only [hs] at h
    split at h
    · cases h
    · cases h
      exact ⟨rfl, rfl⟩
  | some own =>
    simp only [hs] at h
    cases h
    exact ⟨rfl, rfl⟩

theorem state_placeSlice : (placeSlice registry cycleEnd todo timeline s).state = (s.flatten registry).state := by
  unfold placeSlice
  rw [Outcome.state_andThen]
  cases (s.flatten registry).result with
  | error cause => rfl
  | ok _ =>
    dsimp only
    cases advance cycleEnd timeline.cursor (s.flatten registry).state <;> rfl

theorem placeSlice_eq_ok_iff :
    (placeSlice registry cycleEnd todo timeline s).result = .ok timeline'
      ↔ (s.flatten registry).result = .ok () ∧ ∃ start next,
        advance cycleEnd timeline.cursor s = .ok (start, next)
          ∧ (placeSegments registry todo s.name start timeline.tracks
              (s.flatten registry).state.flattened.entries).result = .ok ()
          ∧ timeline' = ⟨next, (placeSegments registry todo s.name start timeline.tracks
              (s.flatten registry).state.flattened.entries).state, ⟨s.name, start, s.duration⟩ :: timeline.spans⟩ := by
  unfold placeSlice
  rw [Outcome.result_andThen_eq_ok_iff]
  simp only [advance_flatten, Slice.name_flatten, Slice.duration_flatten]
  constructor
  · rintro ⟨_, flat, placed⟩
    refine ⟨flat, ?_⟩
    cases h : advance cycleEnd timeline.cursor s with
    | error cause => simp [h, Outcome.failed] at placed
    | ok place =>
      obtain ⟨start, next⟩ := place
      simp only [h] at placed
      cases result : (placeSegments registry todo s.name start timeline.tracks
          (s.flatten registry).state.flattened.entries).result with
      | error cause => simp [result, Except.map] at placed
      | ok _ =>
        rw [result] at placed
        exact ⟨start, next, rfl, result, (Except.ok.inj placed).symm⟩
  · rintro ⟨flat, start, next, advanced, placed, rfl⟩
    refine ⟨(), flat, ?_⟩
    simp only [advanced, placed, Except.map]

theorem placeTrack_of_placeSlice (ok : (placeSlice registry cycleEnd todo timeline s).result = .ok timeline')
    {ch : ChannelId} (mem : ch ∈ todo) (rest : List (Slot α)) :
    placeTrack (rise? registry ch) timeline.cursor (timeline.tracks.get? ch)
        (slotOf ch (s.flatten registry).state :: rest)
      = placeTrack (rise? registry ch) timeline'.cursor (timeline'.tracks.get? ch) rest := by
  obtain ⟨_, start, next, advanced, placed, rfl⟩ := placeSlice_eq_ok_iff.mp ok
  rw [← advance_flatten cycleEnd timeline.cursor registry] at advanced
  obtain ⟨hstart, hnext⟩ := slot_of_advance advanced ch
  have slot := get?_placeSegments (Table.nodup_keys _) placed mem
  rw [placeTrack, ← hstart, ← hnext]
  exact congrArg (Option.bind · _) slot

theorem placeSlices_of_ok (ok : (placeSlices registry cycleEnd todo timeline slices).result = .ok timeline') :
    (∀ s ∈ slices, (s.flatten registry).result = .ok ())
      ∧ Fits cycleEnd timeline.cursor slices
      ∧ (placeSlices registry cycleEnd todo timeline slices).state = slices.map (fun s => (s.flatten registry).state)
      ∧ ∀ ch ∈ todo,
        placeTrack (rise? registry ch) timeline.cursor (timeline.tracks.get? ch)
            (slices.map fun s => slotOf ch (s.flatten registry).state)
          = some (timeline'.tracks.get? ch) := by
  induction slices generalizing timeline with
  | nil =>
    cases ok
    exact ⟨nofun, trivial, rfl, fun _ _ => rfl⟩
  | cons s rest ih =>
    rcases h : placeSlice registry cycleEnd todo timeline s with ⟨_ | next, s', events⟩
    · simp [placeSlices, h] at ok
    · have placed : (placeSlice registry cycleEnd todo timeline s).result = .ok next := by rw [h]
      have state : s' = (s.flatten registry).state := by rw [← state_placeSlice, h]
      simp only [placeSlices, h] at ok ⊢
      obtain ⟨flat, fits, states, tracks⟩ := ih ok
      obtain ⟨first, start, cursor, advanced, _, rfl⟩ := placeSlice_eq_ok_iff.mp placed
      refine ⟨List.forall_mem_cons.mpr ⟨first, flat⟩, ⟨start, cursor, advanced, fits⟩, ?_, ?_⟩
      · rw [List.map_cons, states, state]
      · intro ch mem
        rw [List.map_cons, placeTrack_of_placeSlice placed mem]
        exact tracks ch mem

theorem placeSlices_ok (flat : ∀ s ∈ slices, (s.flatten registry).result = .ok ())
    (fits : Fits cycleEnd timeline.cursor slices)
    (tracks : ∀ ch ∈ todo, (placeTrack (rise? registry ch) timeline.cursor (timeline.tracks.get? ch)
      (slices.map fun s => slotOf ch (s.flatten registry).state)).isSome) :
    ∃ timeline', (placeSlices registry cycleEnd todo timeline slices).result = .ok timeline' := by
  induction slices generalizing timeline with
  | nil => exact ⟨timeline, rfl⟩
  | cons s rest ih =>
    rw [List.forall_mem_cons] at flat
    obtain ⟨start, cursor, advanced, fits⟩ := fits
    have segments : (placeSegments registry todo s.name start timeline.tracks
        (s.flatten registry).state.flattened.entries).result = .ok () := by
      apply placeSegments_ok (Table.nodup_keys _)
      intro ch mem
      have advanced' := advanced
      rw [← advance_flatten cycleEnd timeline.cursor registry] at advanced'
      have track := tracks ch mem
      rw [List.map_cons, placeTrack, ← (slot_of_advance advanced' ch).1] at track
      exact Option.isSome_of_isSome_bind track
    obtain ⟨between, placed, cursor_eq⟩ : ∃ between,
        (placeSlice registry cycleEnd todo timeline s).result = .ok between ∧ between.cursor = cursor :=
      ⟨_, placeSlice_eq_ok_iff.mpr ⟨flat.1, start, cursor, advanced, segments, rfl⟩, rfl⟩
    have later : ∃ timeline', (placeSlices registry cycleEnd todo between rest).result = .ok timeline' := by
      apply ih flat.2 (cursor_eq ▸ fits)
      intro ch mem
      have track := tracks ch mem
      rw [List.map_cons, placeTrack_of_placeSlice placed mem] at track
      exact track
    obtain ⟨timeline', ok⟩ := later
    refine ⟨timeline', ?_⟩
    rcases h : placeSlice registry cycleEnd todo timeline s with ⟨result, s', events⟩
    rw [h] at placed
    cases placed
    simp only [placeSlices, h]
    exact ok

end Slices

end PulseSequencer.Sequence
