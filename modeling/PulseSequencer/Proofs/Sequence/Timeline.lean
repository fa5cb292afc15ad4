import PulseSequencer.Proofs.Waveform.Spread
import PulseSequencer.Proofs.Slice.Level
import PulseSequencer.Proofs.Sequence.Compilation
import PulseSequencer.Proofs.Sequence.Run

/-!
This module contains the proof that a compiled waveform plays the segments of the slices at their times, as exact numbers
have it: each segment is put where its slice starts, up to the tolerance and counted from the rise of the trigger, and
between the segments there is silence.
-/

namespace PulseSequencer.Sequence

variable {K : Type} [Field K] [LinearOrder K] [FloorRing K] [Elementary K]

open Scalar

structure Piece (K : Type) [Scalar K] where
  start : K
  offset : K
  waveform : Waveform K

def Piece.finish (p : Piece K) : K := p.offset + p.waveform.width

def Piece.placed (p : Piece K) : K × Waveform K := (p.offset, p.waveform)

/--
Pieces that a waveform plays, if it counts from the rise of the trigger.
-/
structure Laid (rise : K) (pieces : List (Piece K)) (w : Waveform K) : Prop where
  near : ∀ p ∈ pieces, |p.offset - (p.start - rise)| ≤ tolerance
  early : ∀ p ∈ pieces, rise ≤ p.start + tolerance
  nonneg : ∀ p ∈ pieces, 0 ≤ p.offset
  ordered : pieces.Pairwise fun p p' => p.finish ≤ p'.offset
  within : ∀ p ∈ pieces, p.finish ≤ w.width
  ends : ∀ p, pieces.getLast? = some p → p.finish = w.width
  inside : ∀ p ∈ pieces, ∀ t, p.offset ≤ t → t < p.finish → w.value t = p.waveform.value (t - p.offset)
  outside : ∀ t, (∀ p ∈ pieces, ¬(p.offset ≤ t ∧ t < p.finish)) → w.value t = .zero

def stacked (slices : List (Slice K)) : K :=
  ((slices.filter (·.start?.isNone)).map Slice.duration).sum

def startOf (before : List (Slice K)) (s : Slice K) : K := s.start?.getD (stacked before)

def segmentsOn (ch : ChannelId) (slices : List (Slice K)) : List (K × Waveform K) :=
  slices.zipIdx.filterMap fun (s, i) => (s.flattened.get? ch).map (startOf (slices.take i) s, ·)

section Segments

variable {ch : ChannelId}

def segmentsFrom (cursor : K) : List (Slot K) → List (K × Waveform K)
  | [] => []
  | slot :: rest => (slot.segment.map (slot.start?.getD cursor, ·)).toList ++ segmentsFrom (slot.next cursor) rest

theorem segmentsFrom_eq_nil_iff {cursor : K} {slots : List (Slot K)} :
    segmentsFrom cursor slots = [] ↔ ∀ slot ∈ slots, slot.segment = none := by
  induction slots generalizing cursor with
  | nil => simp [segmentsFrom]
  | cons slot rest ih => simp [segmentsFrom, ih]

theorem stacked_append (before : List (Slice K)) (s : Slice K) :
    stacked (before ++ [s]) = (slotOf ch s).next (stacked before) := by
  unfold stacked Slot.next slotOf
  cases own : s.start? with
  | none => simp [List.filter_append, own]
  | some start => simp [List.filter_append, own]

theorem segmentsFrom_stacked (ch : ChannelId) (before rest : List (Slice K)) :
    segmentsFrom (stacked before) (rest.map (slotOf ch))
      = (rest.zipIdx before.length).filterMap
        fun (s, i) => (s.flattened.get? ch).map (startOf ((before ++ rest).take i) s, ·) := by
  induction rest generalizing before with
  | nil => rfl
  | cons s rest ih =>
    have later := ih (before ++ [s])
    rw [List.length_append, List.append_assoc] at later
    rw [List.map_cons, segmentsFrom, ← stacked_append, later, List.zipIdx_cons, List.filterMap_cons]
    simp only [List.take_left]
    unfold slotOf startOf Slice.flattened
    cases s.memo.flattened.get? ch <;> rfl

theorem segmentsOn_eq (slices : List (Slice K)) : segmentsOn ch slices = segmentsFrom 0 (slices.map (slotOf ch)) := by
  have all := segmentsFrom_stacked ch [] slices
  exact all.symm

end Segments

theorem finish_le_of_fits {cycleEnd cursor : K} {before after : List (Slice K)} {s : Slice K}
    (fits : Fits cycleEnd cursor (before ++ s :: after)) (follows : s.start? = none) :
    cursor + stacked before + s.duration ≤ cycleEnd + tolerance := by
  induction before generalizing cursor with
  | nil =>
    obtain ⟨start, next, advanced, _⟩ := fits
    simp only [advance, follows] at advanced
    split at advanced
    · cases advanced
    · rename_i room
      simpa [stacked] using room
  | cons first rest ih =>
    obtain ⟨start, next, advanced, fits⟩ := fits
    have later := ih fits
    rw [(slot_of_advance advanced ⟨0⟩).2] at later
    unfold Slot.next slotOf at later
    unfold stacked at later ⊢
    cases own : first.start? with
    | none =>
      simp only [own] at later
      simp only [own, List.filter_cons, Option.isNone_none, if_true, List.map_cons, List.sum_cons, ← add_assoc]
      exact later
    | some _ =>
      simp only [own] at later
      simpa [own, List.filter_cons] using later

theorem slotOf_acknowledge (ch : ChannelId) (s : Slice K) : slotOf ch s.acknowledge = slotOf ch s := by
  have duration : s.acknowledge.duration = s.duration := Slice.duration_eq_of_renew_eq (Slice.renew_acknowledge s)
  unfold slotOf
  rw [duration]
  rfl

theorem laid_nil (rise : K) : Laid rise [] (.blank 0) where
  near := nofun
  early := nofun
  nonneg := nofun
  ordered := .nil
  within := nofun
  ends := nofun
  inside := nofun
  outside t _ := Waveform.value_blank 0 t

theorem Laid.spread {rise : K} {pieces : List (Piece K)} {w : Waveform K} (laid : Laid rise pieces w) :
    Waveform.Spread (pieces.map Piece.placed) w where
  ordered := List.pairwise_map.mpr laid.ordered
  within := List.forall_mem_map.mpr laid.within
  inside := List.forall_mem_map.mpr laid.inside
  outside t silent := laid.outside t fun p mem => silent p.placed (List.mem_map_of_mem mem)

variable [IsStrictOrderedRing K]

section Steps

variable {rise start : K} {pieces : List (Piece K)} {track w w' : Waveform K}

theorem Laid.snoc (laid : Laid rise pieces track) (level : track.Level) (own : w.Level) {offset : K}
    (behind : track.width ≤ offset) (near : |offset - (start - rise)| ≤ tolerance) (early : rise ≤ start + tolerance)
    (width : w'.width = offset + w.width)
    (value : ∀ t, w'.value t = if t < offset then track.value t else w.value (t - offset)) :
    Laid rise (pieces ++ [⟨start, offset, w⟩]) w' := by
  have start_nonneg : 0 ≤ offset := level.width_nonneg.trans behind
  have spread : Waveform.Spread ((pieces ++ [(⟨start, offset, w⟩ : Piece K)]).map Piece.placed) w' := by
    rw [List.map_append]
    exact laid.spread.snoc behind width own.width_nonneg value
  constructor
  case near => exact List.forall_mem_append.mpr ⟨laid.near, by simpa using near⟩
  case early => exact List.forall_mem_append.mpr ⟨laid.early, by simpa using early⟩
  case nonneg => exact List.forall_mem_append.mpr ⟨laid.nonneg, by simpa using start_nonneg⟩
  case ordered => exact List.pairwise_map.mp spread.ordered
  case within => exact List.forall_mem_map.mp spread.within
  case ends =>
    intro p last
    rw [List.getLast?_concat, Option.some.injEq] at last
    rw [← last, width]
    rfl
  case inside => exact List.forall_mem_map.mp spread.inside
  case outside =>
    intro t silent
    exact spread.outside t (List.forall_mem_map.mpr silent)

theorem laid_first (own : w.Level) (early : rise ≤ start + tolerance) (h : join? (start - rise) w none = some w') :
    ∃ offset, Laid rise [⟨start, offset, w⟩] w' ∧ w'.Level := by
  have small : (0 : K) < tolerance := tolerance_pos
  have nothing : (Waveform.blank (0 : K)).Level := Waveform.level_blank (le_refl 0)
  simp only [join?, Option.some.injEq] at h
  split at h
  · rename_i late
    have nonneg : 0 ≤ start - rise := (small.trans late).le
    have silence := Waveform.level_blank nonneg
    subst h
    refine ⟨start - rise, (laid_nil rise).snoc nothing own ?_ ?_ early ?_ ?_, silence.concat own⟩
    · simpa using nonneg
    · simpa using small.le
    · simp [Waveform.width_concat]
    · intro t
      simp only [Waveform.value_concat silence own, Waveform.width_blank, Waveform.value_blank]
  · -- The first segment starts with the track, up to the tolerance after the rise.
    rename_i soon
    subst h
    refine ⟨0, (laid_nil rise).snoc nothing own ?_ ?_ early ?_ ?_, own⟩
    · simp
    · rw [abs_le]
      constructor <;> linarith
    · simp
    · intro t
      rw [sub_zero]
      split
      · rename_i before
        rw [Waveform.value_of_outside (.inl before), Waveform.value_blank]
      · rfl

theorem Laid.join (laid : Laid rise pieces track) (level : track.Level) (own : w.Level)
    (early : rise ≤ start + tolerance) (h : join? (start - rise) w (some track) = some w') :
    ∃ offset, Laid rise (pieces ++ [⟨start, offset, w⟩]) w' ∧ w'.Level := by
  have small : (0 : K) < tolerance := tolerance_pos
  have filled : (Slice.fillTo track (start - rise)).Level := Slice.level_fillTo level
  simp only [join?] at h
  split at h
  · cases h
  · rename_i room
    cases h
    -- What is left of the gap is within the tolerance, on either side.
    refine ⟨(Slice.fillTo track (start - rise)).width, laid.snoc level own ?_ ?_ early ?_ ?_, filled.concat own⟩
    · rw [Slice.width_fillTo]
      split
      · linarith
      · exact le_refl _
    · rw [Slice.width_fillTo, abs_le]
      split
      · constructor <;> linarith
      · constructor <;> linarith
    · exact Waveform.width_concat ..
    · intro t
      rw [Waveform.value_concat filled own, Slice.value_fillTo level]

def Plays (rise : K) (pieces : List (Piece K)) : Option (Waveform K) → Prop
  | none => pieces = []
  | some track => track.Level ∧ Laid rise pieces track

theorem Plays.placeSlot {track track' : Option (Waveform K)} (plays : Plays rise pieces track) (own : w.Level)
    (h : placeSlot (some rise) start (some w) track = some track') :
    ∃ offset, Plays rise (pieces ++ [⟨start, offset, w⟩]) track' := by
  simp only [Sequence.placeSlot] at h
  split at h
  · cases h
  · rename_i early
    obtain ⟨w', joined, rfl⟩ := Option.map_eq_some_iff.mp h
    cases track with
    | none =>
      obtain ⟨offset, laid, level⟩ := laid_first own (not_lt.mp early) joined
      rw [plays]
      exact ⟨offset, level, laid⟩
    | some track =>
      obtain ⟨offset, laid, level⟩ := plays.2.join plays.1 own (not_lt.mp early) joined
      exact ⟨offset, level, laid⟩

theorem Plays.placeTrack {cursor : K} {slots : List (Slot K)} {track track' : Option (Waveform K)}
    (plays : Plays rise pieces track) (level : ∀ slot ∈ slots, ∀ w, slot.segment = some w → w.Level)
    (h : placeTrack (some rise) cursor track slots = some track') :
    ∃ more, more.map (fun p => (p.start, p.waveform)) = segmentsFrom cursor slots ∧ Plays rise (pieces ++ more) track' := by
  induction slots generalizing cursor track pieces with
  | nil =>
    cases h
    refine ⟨[], rfl, ?_⟩
    rw [List.append_nil]
    exact plays
  | cons slot rest ih =>
    rw [List.forall_mem_cons] at level
    obtain ⟨between, placed, h⟩ := Option.bind_eq_some_iff.mp h
    cases segment : slot.segment with
    | none =>
      rw [segment, placeSlot_none] at placed
      cases placed
      obtain ⟨more, segments, later⟩ := ih plays level.2 h
      refine ⟨more, ?_, later⟩
      rw [segmentsFrom, segment, segments]
      rfl
    | some w =>
      rw [segment] at placed
      obtain ⟨offset, extended⟩ := plays.placeSlot (level.1 w segment) placed
      obtain ⟨more, segments, later⟩ := ih extended level.2 h
      refine ⟨⟨slot.start?.getD cursor, offset, w⟩ :: more, ?_, ?_⟩
      · rw [segmentsFrom, segment, List.map_cons, segments]
        rfl
      · rw [List.append_cons]
        exact later

theorem laid_of_placeTrack {rise? : Option K} {cursor : K} {slots : List (Slot K)} {track : Option (Waveform K)}
    (level : ∀ slot ∈ slots, ∀ w, slot.segment = some w → w.Level)
    (h : Sequence.placeTrack rise? cursor none slots = some track) :
    (track.isSome ↔ segmentsFrom cursor slots ≠ [])
      ∧ ∀ w, track = some w → ∃ rise pieces, rise? = some rise
        ∧ pieces.map (fun p => (p.start, p.waveform)) = segmentsFrom cursor slots ∧ Laid rise pieces w := by
  rw [ne_eq, segmentsFrom_eq_nil_iff]
  cases track with
  | none => exact ⟨by simpa using (silent_of_placeTrack h).2, nofun⟩
  | some w =>
    refine ⟨?_, ?_⟩
    · simp only [Option.isSome_some, true_iff]
      intro silent
      rw [placeTrack_of_silent silent] at h
      cases h
    · rintro _ ⟨⟩
      cases rise? with
      | none => cases placeTrack_none h
      | some rise =>
        have nothing : Plays rise [] none := rfl
        obtain ⟨pieces, segments, plays⟩ := nothing.placeTrack level h
        exact ⟨rise, pieces, rfl, segments, plays.2⟩

end Steps

section Compile

variable {q : Sequence K}

def Level (q : Sequence K) : Prop := ∀ s ∈ q.slices, s.Level

/--
The commands that bring along no waveform that ends before it starts.
-/
def BringsLevel : Command K → Sequence K → Prop
  | .addSlice s, _ => s.Level
  | .atSlice _ _ command, _ => command.Level
  | _, _ => True

theorem Level.perform {command : Command K} (level : q.Level) (brought : BringsLevel command q) :
    (q.perform command).Level := by
  rcases perform_cases q command with
    kept | ⟨s, rfl, added⟩ | ⟨name, rfl⟩ | ⟨top, rest, command, rfl⟩ | rfl
  · unfold Level
    rw [kept.slices]
    exact level
  · obtain ⟨_, state⟩ := addSlice_eq_ok added
    unfold Level
    rw [state]
    intro t mem
    rcases List.mem_append.mp mem with mem | mem
    · exact level t mem
    · rw [List.mem_singleton.mp mem]
      exact brought
  · exact fun s mem => level s (List.mem_of_mem_filter mem)
  · simp only [Sequence.perform, workIn, slice]
    cases found : Slice.find? q.slices top with
    | none => exact level
    | some s =>
      intro t mem
      rcases Slice.mem_replace mem with rfl | mem
      · exact (level s (Slice.mem_of_find? found)).workAt fun _ below => below.perform brought
      · exact level t mem
  · have flat (s : Slice K) (mem : s ∈ q.slices) : (s.flatten q.registry).state.Level := (level s mem).flatten q.registry
    unfold Level Sequence.perform
    rcases compile_cases q with ⟨_, slices, _, state, states⟩ | ⟨timeline, _, state, _, _, _⟩
    · rw [state]
      intro s' mem
      obtain ⟨s, found, rfl | rfl⟩ := Slice.exists_of_mem_right states mem
      · exact level s' found
      · exact flat s found
    · rw [state]
      intro s' mem
      obtain ⟨t, found, rfl⟩ := List.mem_map.mp mem
      obtain ⟨s, below, rfl⟩ := List.mem_map.mp found
      exact (flat s below).acknowledge

theorem level_of_reached (reached : Reached BringsLevel q) : q.Level :=
  reached.invariant (fun _ _ => nofun) fun _ _ level brought => level.perform brought

/--
What a compilation that succeeds puts on the channels that it compiles.
-/
theorem compile_places {todo : ChannelSet} (level : q.Level) (ok : q.compile.result = .ok todo) :
    (∀ ch ∈ todo,
      ((q.compile.state.compiled? ch).isSome ↔ segmentsOn ch q.compile.state.slices ≠ [])
        ∧ ∀ w, q.compile.state.compiled? ch = some w → ∃ rise pieces, rise? q.registry ch = some rise
          ∧ pieces.map (fun p => (p.start, p.waveform)) = segmentsOn ch q.compile.state.slices
          ∧ Laid rise pieces w)
      ∧ ∀ before s after, q.slices = before ++ s :: after → s.start? = none →
        stacked before + s.duration ≤ 1 / q.cycleFrequency + tolerance := by
  rcases compile_cases q with ⟨_, _, failed, _, _⟩ | ⟨timeline, done, state, _, fits, tracks⟩
  · rw [failed] at ok
    cases ok
  · have compiled := compiled_compile ok
    rw [done] at ok
    cases ok
    constructor
    · intro ch mem
      have slots : q.compile.state.slices.map (slotOf ch)
          = q.slices.map fun s => slotOf ch (s.flatten q.registry).state := by
        rw [state]
        simp only [commit, List.map_map]
        apply List.map_congr_left
        intro s _
        exact slotOf_acknowledge ch _
      have placed := compiled ch
      rw [if_pos mem] at placed
      unfold played at placed
      rw [← slots, zero_exact] at placed
      rw [segmentsOn_eq]
      apply laid_of_placeTrack _ placed
      rw [slots]
      intro slot found w segment
      obtain ⟨s, here, rfl⟩ := List.mem_map.mp found
      exact ((level s here).flatten q.registry).here.flattened ch w segment
    · intro before s after split follows
      rw [split] at fits
      have finish := finish_le_of_fits fits follows
      simpa [cycleLength] using finish

def twoSegments : Sequence ℚ :=
  let described := ((create .memory 1).perform (.addTrigger "strobe" 0 (1 / 4) 1)).perform
    (.linkChannel ⟨0⟩ "out" (.memory 4 1))
  let sliced := ((described.perform (.addSlice (.fixedLength "pause" (1 / 2)))).perform
    (.addSlice (.flex "drive"))).perform (.addSlice (.fixed "late" (7 / 8) (1 / 8)))
  (sliced.perform (.atSlice "drive" [] (.edit ⟨0⟩ (.addWaveform (.dc (1 / 4) 1 0))))).perform
    (.atSlice "late" [] (.edit ⟨0⟩ (.addWaveform (.dc (1 / 8) (1 / 2) 0))))

theorem compile_twoSegments_places :
    twoSegments.compile.result = .ok twoSegments.recompilationSet
      ∧ (∀ ch ∈ twoSegments.recompilationSet,
        ((twoSegments.compile.state.compiled? ch).isSome ↔ segmentsOn ch twoSegments.compile.state.slices ≠ [])
          ∧ ∀ w, twoSegments.compile.state.compiled? ch = some w → ∃ rise pieces,
            rise? twoSegments.registry ch = some rise
              ∧ pieces.map (fun p => (p.start, p.waveform)) = segmentsOn ch twoSegments.compile.state.slices
              ∧ Laid rise pieces w)
      ∧ ∀ before s after, twoSegments.slices = before ++ s :: after → s.start? = none →
        stacked before + s.duration ≤ 1 / twoSegments.cycleFrequency + tolerance := by
  have described : @Reached ℚ _ BringsLevel _ := .perform (.linkChannel ⟨0⟩ "out" (.memory 4 1))
    (.perform (.addTrigger "strobe" 0 (1 / 4) 1) (.create .memory 1) trivial) trivial
  have sliced : Reached BringsLevel _ := .perform (.addSlice (.fixed "late" (7 / 8) (1 / 8)))
    (.perform (.addSlice (.flex "drive")) (.perform (.addSlice (.fixedLength "pause" (1 / 2))) described
      (Slice.level_ofKind "pause" _)) (Slice.level_ofKind "drive" _)) (Slice.level_ofKind "late" _)
  have driven : Reached BringsLevel _ :=
    .perform (.atSlice "drive" [] (.edit ⟨0⟩ (.addWaveform (.dc (1 / 4) 1 0)))) sliced
      (Waveform.level_dc _ _ (by norm_num))
  have reached : Reached BringsLevel twoSegments :=
    .perform (.atSlice "late" [] (.edit ⟨0⟩ (.addWaveform (.dc (1 / 8) (1 / 2) 0)))) driven
      (Waveform.level_dc _ _ (by norm_num))
  have ok : twoSegments.compile.result = .ok twoSegments.recompilationSet := by
    have succeeds : twoSegments.compile.result.isOk = true := by decide +kernel
    rcases compile_cases twoSegments with ⟨_, _, failed, _, _⟩ | ⟨_, done, _⟩
    · rw [failed] at succeeds
      cases succeeds
    · exact done
  exact ⟨ok, compile_places (level_of_reached reached) ok⟩

end Compile

end PulseSequencer.Sequence
