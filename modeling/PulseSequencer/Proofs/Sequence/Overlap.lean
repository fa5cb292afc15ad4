import PulseSequencer.Proofs.Sequence.Timeline
import PulseSequencer.Proofs.Sequence.Failure

/-!
This module contains what an overlap on a channel means, as exact numbers have it: a slice starts before the content of
one that was registered before it has ended. Slices are placed in the order in which they were registered. They collide
if that is the order of their starts, and need not collide if it is not.
-/

namespace PulseSequencer.Sequence

variable {K : Type} [Field K] [LinearOrder K] [FloorRing K] [Elementary K]

open Scalar

def segmentAt (ch : ChannelId) (slices : List (Slice K)) (i : Nat) : Option (K × Waveform K) :=
  slices[i]?.bind fun s => (s.flattened.get? ch).map (startOf (slices.take i) s, ·)

/--
Whether two slices play a channel such that one of them starts after the other one, but before its segment has ended.
-/
def Colliding (ch : ChannelId) (slices : List (Slice K)) : Prop :=
  ∃ i j start w start' w', i ≠ j ∧ segmentAt ch slices i = some (start, w) ∧ segmentAt ch slices j = some (start', w')
    ∧ start ≤ start' ∧ start' < start + w.width

def InOrder (ch : ChannelId) (slices : List (Slice K)) : Prop :=
  ∀ i j start w start' w', i < j → segmentAt ch slices i = some (start, w) → segmentAt ch slices j = some (start', w') →
    start ≤ start'

section Segments

variable {ch : ChannelId} {slices before after : List (Slice K)} {s : Slice K} {i : Nat}

theorem mem_segmentsOn_iff {p : K × Waveform K} : p ∈ segmentsOn ch slices ↔ ∃ i, segmentAt ch slices i = some p := by
  unfold segmentsOn segmentAt
  rw [List.mem_filterMap]
  constructor
  · rintro ⟨⟨s, i⟩, found, same⟩
    rw [List.mk_mem_zipIdx_iff_getElem?] at found
    exact ⟨i, Option.bind_eq_some_iff.mpr ⟨s, found, same⟩⟩
  · rintro ⟨i, same⟩
    obtain ⟨s, found, same⟩ := Option.bind_eq_some_iff.mp same
    exact ⟨(s, i), List.mk_mem_zipIdx_iff_getElem?.mpr found, same⟩

theorem lt_of_segmentAt {p : K × Waveform K} (h : segmentAt ch slices i = some p) : i < slices.length := by
  obtain ⟨s, found, _⟩ := Option.bind_eq_some_iff.mp h
  exact (List.getElem?_eq_some_iff.mp found).1

theorem segmentAt_append_left (inside : i < before.length) :
    segmentAt ch (before ++ after) i = segmentAt ch before i := by
  unfold segmentAt
  rw [List.getElem?_append_left inside, List.take_append_of_le_length inside.le]

theorem segmentAt_append_cons :
    segmentAt ch (before ++ s :: after) before.length = (s.flattened.get? ch).map (startOf before s, ·) := by
  unfold segmentAt
  rw [List.getElem?_append_right (le_refl _), Nat.sub_self, List.getElem?_cons_zero, List.take_left, Option.bind_some]

end Segments

section Placed

variable {registry : Registry K} {cycleEnd : K} {todo : ChannelSet} {timeline timeline' : Timeline K}
  {slices : List (Slice K)} {ch : ChannelId}

theorem stacked_cons (ch : ChannelId) (cursor : K) (s : Slice K) (rest : List (Slice K)) :
    cursor + stacked (s :: rest) = (slotOf ch s).next cursor + stacked rest := by
  unfold stacked Slot.next slotOf
  cases own : s.start? with
  | none => simp [own, add_assoc]
  | some start => simp [own]

theorem cursor_of_placeSlices (ok : (placeSlices registry cycleEnd todo timeline slices).result = .ok timeline') :
    timeline'.cursor = timeline.cursor + stacked slices := by
  induction slices generalizing timeline with
  | nil =>
    cases ok
    simp [stacked]
  | cons s rest ih =>
    rcases h : placeSlice registry cycleEnd todo timeline s with ⟨_ | next, s', events⟩
    · simp [placeSlices, h] at ok
    · have placed : (placeSlice registry cycleEnd todo timeline s).result = .ok next := by rw [h]
      simp only [placeSlices, h] at ok
      obtain ⟨_, start, cursor, advanced, _, rfl⟩ := placeSlice_eq_ok_iff.mp placed
      rw [ih ok, stacked_cons ⟨0⟩, (slot_of_advance advanced ⟨0⟩).2]

def flat (registry : Registry K) (slices : List (Slice K)) : List (Slice K) :=
  slices.map fun s => (s.flatten registry).state

theorem flat_append (registry : Registry K) (before after : List (Slice K)) :
    flat registry (before ++ after) = flat registry before ++ flat registry after :=
  List.map_append

theorem length_flat (registry : Registry K) (slices : List (Slice K)) : (flat registry slices).length = slices.length :=
  List.length_map _

theorem startOf_flat (registry : Registry K) (slices : List (Slice K)) (s : Slice K) :
    startOf (flat registry slices) (s.flatten registry).state = startOf slices s := by
  have height : stacked (flat registry slices) = stacked slices := by
    unfold stacked flat
    rw [List.filter_map, List.map_map]
    have kept : (slices.filter ((·.start?.isNone) ∘ fun s => (s.flatten registry).state))
        = slices.filter (·.start?.isNone) := by
      apply List.filter_congr
      intro s _
      rw [Function.comp_apply, start?_flatten]
    rw [kept]
    congr 1
    exact List.map_congr_left fun s _ => Slice.duration_flatten registry s
  unfold startOf
  rw [start?_flatten, height]

theorem segmentAt_of_advance {before : List (Slice K)} (after : List (Slice K)) {s : Slice K} {start next : K}
    {segment : Waveform K}
    (ok : (placeSlices registry cycleEnd todo ⟨0.0, ∅, []⟩ before).result = .ok timeline)
    (advanced : advance cycleEnd timeline.cursor s = .ok (start, next))
    (found : (s.flatten registry).state.flattened.get? ch = some segment) :
    segmentAt ch (flat registry (before ++ s :: after)) before.length = some (start, segment) := by
  have begins : start = startOf before s := by
    rw [(slot_of_advance advanced ch).1, cursor_of_placeSlices ok, zero_exact, zero_add]
    rfl
  have slices : flat registry (before ++ s :: after)
      = flat registry before ++ (s.flatten registry).state :: flat registry after := flat_append registry before (s :: after)
  rw [slices, ← length_flat registry before, segmentAt_append_cons, found, startOf_flat, begins]
  rfl

theorem Laid.exists_last {rise : K} {pieces : List (Piece K)} {w : Waveform K} (laid : Laid rise pieces w)
    (some : pieces ≠ []) :
    ∃ p ∈ pieces, |p.offset - (p.start - rise)| ≤ tolerance ∧ p.offset + p.waveform.width = w.width := by
  have last := List.getLast?_eq_getLast_of_ne_nil some
  have mem := List.getLast_mem some
  exact ⟨_, mem, laid.near _ mem, laid.ends _ last⟩

variable [IsStrictOrderedRing K]

theorem exists_last_segment {rise : K} {track : Waveform K}
    (level : ∀ s ∈ slices, ∀ w, s.flattened.get? ch = some w → w.Level) (rises : rise? registry ch = some rise)
    (placed : placeTrack (rise? registry ch) 0 none (slices.map (slotOf ch)) = some (some track)) :
    ∃ i start w, segmentAt ch slices i = some (start, w) ∧ track.width ≤ start - rise + w.width + tolerance := by
  have levels : ∀ slot ∈ slices.map (slotOf ch), ∀ w, slot.segment = some w → w.Level := by
    intro slot mem w segment
    obtain ⟨s, found, rfl⟩ := List.mem_map.mp mem
    exact level s found w segment
  obtain ⟨plays, laid⟩ := laid_of_placeTrack levels placed
  obtain ⟨rise', pieces, rises', segments, laid⟩ := laid track rfl
  rw [rises, Option.some.injEq] at rises'
  subst rises'
  have some : pieces ≠ [] := by
    rintro rfl
    exact plays.mp rfl segments.symm
  obtain ⟨p, mem, near, ends⟩ := laid.exists_last some
  rw [← segmentsOn_eq] at segments
  have member : (p.start, p.waveform) ∈ segmentsOn ch slices := segments ▸ List.mem_map_of_mem mem
  obtain ⟨i, here⟩ := mem_segmentsOn_iff.mp member
  refine ⟨i, p.start, p.waveform, here, ?_⟩
  have bound := (abs_le.mp near).2
  linarith

theorem exists_segment_of_placeSlices {before : List (Slice K)} (after : List (Slice K)) {rise : K} {track : Waveform K}
    (level : ∀ s ∈ before, s.Level)
    (ok : (placeSlices registry cycleEnd todo ⟨0.0, ∅, []⟩ before).result = .ok timeline) (mem : ch ∈ todo)
    (rises : rise? registry ch = some rise) (here : timeline.tracks.get? ch = some track) :
    ∃ i start w, i < before.length ∧ segmentAt ch (flat registry (before ++ after)) i = some (start, w)
      ∧ track.width ≤ start - rise + w.width + tolerance := by
  have levels : ∀ s ∈ flat registry before, ∀ w, s.flattened.get? ch = some w → w.Level := by
    intro s' flattened w segment
    obtain ⟨s, found, rfl⟩ := List.mem_map.mp flattened
    exact ((level s found).flatten registry).here.flattened ch w segment
  have slots : (flat registry before).map (slotOf ch) = before.map fun s => slotOf ch (s.flatten registry).state :=
    List.map_map
  have placed := (placeSlices_of_ok ok).2.2.2 ch mem
  rw [here, zero_exact, Table.get?_empty, ← slots] at placed
  obtain ⟨i, start, w, segment, ends⟩ := exists_last_segment levels rises placed
  have inside := lt_of_segmentAt segment
  refine ⟨i, start, w, length_flat registry before ▸ inside, ?_, ends⟩
  rw [flat_append, segmentAt_append_left inside]
  exact segment

end Placed

section Overlap

variable [IsStrictOrderedRing K] {q : Sequence K}

/--
What a compilation that fails with an overlap has found: on this channel, the slice starts before the segment of a slice
has ended that was registered before it. The two collide if the slices that play the channel were registered in the
order of their starts.
-/
theorem compile_overlap (level : q.Level) (distinct : q.registry.channelNames.Nodup) {slice channel : String}
    {width available : K} (failed : q.compile.result = .error (.overlap slice channel width available)) :
    ∃ ch, q.registry.findChannel? channel = some ch
      ∧ (∃ m n start w start' w', m < n ∧ (q.slices[n]?).map Slice.name = some slice
        ∧ segmentAt ch (flat q.registry q.slices) m = some (start, w)
        ∧ segmentAt ch (flat q.registry q.slices) n = some (start', w')
        ∧ start' < start + w.width)
      ∧ (InOrder ch (flat q.registry q.slices) → Colliding ch (flat q.registry q.slices)) := by
  obtain ⟨before, s, after, timeline, split, ok, unplaced⟩ := compile_of_error failed
  cases unplaced with
  | flatten failed => exact absurd (Slice.isFlattening_of_flatten failed) id
  | advance _ failed => cases (advance_of_error failed).2
  | @segment _ start' _ advanced ch mem w' found tracks track failed =>
    obtain ⟨t, track', trigger, here, named, rfl, width_eq, available_eq, short⟩ := exists_trigger_of_overlap failed
    obtain ⟨c, registered⟩ := Registry.getElem?_of_triggerOf trigger
    have name : q.registry.channelName ch = c.name := by
      unfold Registry.channelName
      rw [registered]
    have levels : ∀ s ∈ before, s.Level := by
      intro s mem
      apply level
      rw [split]
      exact List.mem_append_left _ mem
    rw [track] at here
    obtain ⟨m, start, w, inside, earlier, ends⟩ :=
      exists_segment_of_placeSlices (s :: after) levels ok mem (rise?_of_triggerOf trigger) here
    have later := segmentAt_of_advance after ok advanced found
    rw [← split] at earlier later
    have overlapping : start' < start + w.width := by
      rw [width_eq, available_eq] at short
      linarith
    refine ⟨ch, ?_, ⟨m, before.length, start, w, start', w', inside, ?_, earlier, later, overlapping⟩, ?_⟩
    · rw [name]
      exact Registry.findChannel?_of_getElem? distinct registered
    · rw [split, List.getElem?_append_right (le_refl _), Nat.sub_self, named]
      rfl
    · intro ordered
      have order := ordered m before.length start w start' w' inside earlier later
      exact ⟨m, before.length, start, w, start', w', inside.ne, earlier, later, order, overlapping⟩

end Overlap

section Example

def fixedPair (start width start' width' : ℚ) : Sequence ℚ :=
  let described := ((create .memory 1).perform (.addTrigger "strobe" 0 0 1)).perform
    (.linkChannel ⟨0⟩ "out" (.memory 4 1))
  let sliced := (described.perform (.addSlice (.fixed "first" start width))).perform
    (.addSlice (.fixed "second" start' width'))
  (sliced.perform (.atSlice "first" [] (.edit ⟨0⟩ (.addWaveform (.dc width 1 0))))).perform
    (.atSlice "second" [] (.edit ⟨0⟩ (.addWaveform (.dc width' 1 0))))

theorem reached_fixedPair (start width start' width' : ℚ) (nonneg : 0 ≤ width) (nonneg' : 0 ≤ width') :
    Reached BringsLevel (fixedPair start width start' width') := by
  have described : @Reached ℚ _ BringsLevel _ := .perform (.linkChannel ⟨0⟩ "out" (.memory 4 1))
    (.perform (.addTrigger "strobe" 0 0 1) (.create .memory 1) trivial) trivial
  have sliced : Reached BringsLevel _ := .perform (.addSlice (.fixed "second" start' width'))
    (.perform (.addSlice (.fixed "first" start width)) described (Slice.level_ofKind "first" _))
    (Slice.level_ofKind "second" _)
  have driven : Reached BringsLevel _ :=
    .perform (.atSlice "first" [] (.edit ⟨0⟩ (.addWaveform (.dc width 1 0)))) sliced (Waveform.level_dc 1 0 nonneg)
  exact .perform (.atSlice "second" [] (.edit ⟨0⟩ (.addWaveform (.dc width' 1 0)))) driven
    (Waveform.level_dc 1 0 nonneg')

theorem channel_of_singleton {q : Sequence ℚ} {name channel : String} {ch : ChannelId}
    (names : q.registry.channelNames = [name]) (found : q.registry.findChannel? channel = some ch) : ch = ⟨0⟩ := by
  rw [Registry.findChannel?_eq, names] at found
  obtain ⟨index, here, rfl⟩ := Option.map_eq_some_iff.mp found
  obtain ⟨bound, _⟩ := List.findIdx?_eq_some_iff_getElem.mp here
  rw [List.length_singleton, Nat.lt_one_iff] at bound
  rw [bound]

section Pair

variable {ch : ChannelId} {slices : List (Slice ℚ)}

def spanAt (ch : ChannelId) (slices : List (Slice ℚ)) (i : Nat) : Option (ℚ × ℚ) :=
  (segmentAt ch slices i).map fun p => (p.1, p.2.width)

theorem spanAt_pair {start width start' width' a : ℚ} {i : Nat} {w : Waveform ℚ} (two : slices.length = 2)
    (first : spanAt ch slices 0 = some (start, width)) (second : spanAt ch slices 1 = some (start', width'))
    (h : segmentAt ch slices i = some (a, w)) :
    i = 0 ∧ a = start ∧ w.width = width ∨ i = 1 ∧ a = start' ∧ w.width = width' := by
  have inside := two ▸ lt_of_segmentAt h
  have spans : spanAt ch slices i = some (a, w.width) := by rw [spanAt, h, Option.map_some]
  obtain rfl | rfl : i = 0 ∨ i = 1 := by omega
  · rw [first, Option.some.injEq, Prod.mk.injEq] at spans
    exact .inl ⟨rfl, spans.1.symm, spans.2.symm⟩
  · rw [second, Option.some.injEq, Prod.mk.injEq] at spans
    exact .inr ⟨rfl, spans.1.symm, spans.2.symm⟩

theorem inOrder_pair (start width start' width' : ℚ) (two : slices.length = 2)
    (first : spanAt ch slices 0 = some (start, width))
    (second : spanAt ch slices 1 = some (start', width')) (order : start ≤ start') : InOrder ch slices := by
  intro i j a w a' w' less here there
  rcases spanAt_pair two first second here with ⟨rfl, rfl, _⟩ | ⟨rfl, rfl, _⟩
  · rcases spanAt_pair two first second there with ⟨rfl, _⟩ | ⟨_, rfl, _⟩
    · omega
    · exact order
  · have := two ▸ lt_of_segmentAt there
    omega

theorem not_colliding_pair (start width start' width' : ℚ) (two : slices.length = 2)
    (first : spanAt ch slices 0 = some (start, width))
    (second : spanAt ch slices 1 = some (start', width')) (before : start' + width' ≤ start) (pos : 0 < width') :
    ¬ Colliding ch slices := by
  rintro ⟨i, j, a, w, a', w', apart, here, there, order, less⟩
  rcases spanAt_pair two first second here with ⟨rfl, rfl, _⟩ | ⟨rfl, rfl, width_eq⟩
  · rcases spanAt_pair two first second there with ⟨rfl, _⟩ | ⟨_, rfl, _⟩
    · exact apart rfl
    · linarith
  · rcases spanAt_pair two first second there with ⟨_, rfl, _⟩ | ⟨rfl, _⟩
    · linarith
    · exact apart rfl

end Pair

theorem compile_fixedPair_overlap :
    ∃ slice channel width available,
      (fixedPair 0 (1 / 2) (1 / 4) (1 / 4)).compile.result = .error (.overlap slice channel width available)
        ∧ Colliding ⟨0⟩ (flat (fixedPair 0 (1 / 2) (1 / 4) (1 / 4)).registry (fixedPair 0 (1 / 2) (1 / 4) (1 / 4)).slices) := by
  have level := level_of_reached (reached_fixedPair 0 (1 / 2) (1 / 4) (1 / 4) (by norm_num) (by norm_num))
  obtain ⟨slice, channel, width, available, failed⟩ :=
    exists_of_overlaps (x := (fixedPair 0 (1 / 2) (1 / 4) (1 / 4)).compile.result) (by decide +kernel)
  obtain ⟨ch, found, _, colliding⟩ := compile_overlap level (by decide +kernel) failed
  have names : (fixedPair 0 (1 / 2) (1 / 4) (1 / 4)).registry.channelNames = ["out"] := by decide +kernel
  obtain rfl := channel_of_singleton names found
  refine ⟨slice, channel, width, available, failed, colliding ?_⟩
  exact inOrder_pair 0 (1 / 2) (1 / 4) (1 / 4) (by decide +kernel) (by decide +kernel) (by decide +kernel) (by norm_num)

/--
It is not true that an overlap means that two slices collide: here the one that was registered last ends long before the
other one starts.
-/
theorem not_compile_overlap_colliding :
    ¬ ∀ q : Sequence ℚ, Reached BringsLevel q → (∀ s ∈ q.slices, 0 ≤ s.duration) →
      ∀ slice channel width available, q.compile.result = .error (.overlap slice channel width available) →
        ∃ ch, q.registry.findChannel? channel = some ch ∧ Colliding ch (flat q.registry q.slices) := by
  intro collide
  obtain ⟨slice, channel, width, available, failed⟩ :=
    exists_of_overlaps (x := (fixedPair (1 / 2) (1 / 4) 0 (1 / 4)).compile.result) (by decide +kernel)
  obtain ⟨ch, found, colliding⟩ := collide _ (reached_fixedPair (1 / 2) (1 / 4) 0 (1 / 4) (by norm_num) (by norm_num))
    (by decide +kernel) slice channel width available failed
  have names : (fixedPair (1 / 2) (1 / 4) 0 (1 / 4)).registry.channelNames = ["out"] := by decide +kernel
  obtain rfl := channel_of_singleton names found
  exact not_colliding_pair (1 / 2) (1 / 4) 0 (1 / 4) (by decide +kernel) (by decide +kernel) (by decide +kernel)
    (by norm_num) (by norm_num) colliding

end Example

end PulseSequencer.Sequence
