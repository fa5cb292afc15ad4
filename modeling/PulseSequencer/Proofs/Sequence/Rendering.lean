import PulseSequencer.Proofs.Scalar.Ordering
import PulseSequencer.Proofs.Sequence.Publication
import PulseSequencer.Proofs.Sequence.Strobes

/-!
This module contains which lines a preview has, and in which order: the strobes as they rise, those that rise together
as they were registered, and behind each strobe the channels that it starts. A channel is found by the name of its
trigger, so that none is lost or shown twice rests on names that tell triggers apart.
-/

namespace PulseSequencer

open Scalar

section Groups

variable {β : Type} {f : β → String} {names : List String} {l : List β}

theorem perm_flatMap_filter (distinct : names.Nodup) (named : ∀ b ∈ l, f b ∈ names) :
    (names.flatMap fun name => l.filter (f · == name)).Perm l := by
  induction names generalizing l with
  | nil =>
    have empty : l = [] := List.eq_nil_iff_forall_not_mem.mpr fun b mem => List.not_mem_nil (named b mem)
    rw [empty]
    exact .refl _
  | cons name rest ih =>
    obtain ⟨fresh, distinct⟩ := List.nodup_cons.mp distinct
    have others : (rest.flatMap fun name' => l.filter (f · == name'))
        = rest.flatMap fun name' => (l.filter (!f · == name)).filter (f · == name') := by
      apply List.flatMap_congr
      intro name' mem
      rw [List.filter_filter]
      apply List.filter_congr
      intro b _
      by_cases here : f b = name'
      · have apart : f b ≠ name := fun same => fresh (same ▸ here ▸ mem)
        simp [here, here ▸ apart]
      · simp [here]
    rw [List.flatMap_cons, others]
    apply List.Perm.trans _ (List.filter_append_perm (f · == name) l)
    apply List.Perm.append_left
    apply ih distinct
    intro b mem
    obtain ⟨mem, apart⟩ := List.mem_filter.mp mem
    rcases List.mem_cons.mp (named b mem) with same | later
    · simp [same] at apart
    · exact later

end Groups

namespace Snapshot

variable {α : Type} [Scalar α] {s : Snapshot α} {carried : List (ChannelId × ChannelTrace α)} {rate : α}

structure Row (α : Type) [Scalar α] where
  strobe : StrobeInfo α
  place : Nat
  carried : List (ChannelId × ChannelTrace α)

def Row.lines (row : Row α) (times : Array α) : List (Trace α) :=
  strobeTrace row.strobe times :: row.carried.map fun (_, trace) => channelTrace trace times

structure Row.Precedes (a b : Row α) : Prop where
  sorted : totalLE a.strobe.raiseAt b.strobe.raiseAt = true
  rising : ¬ b.strobe.raiseAt < a.strobe.raiseAt
  tied : totalLE b.strobe.raiseAt a.strobe.raiseAt = true → a.place < b.place

def rises (a b : StrobeInfo α) : Bool :=
  totalLE a.raiseAt b.raiseAt

def rowOf (carried : List (ChannelId × ChannelTrace α)) (registered : StrobeInfo α × Nat) : Row α :=
  ⟨registered.1, registered.2, carried.filter fun (_, trace) => trace.trigger == registered.1.name⟩

def rows (s : Snapshot α) (carried : List (ChannelId × ChannelTrace α)) : List (Row α) :=
  (s.triggers.zipIdx.mergeSort (List.zipIdxLE rises)).map (rowOf carried)

theorem render_eq_flatMap_rows (traces : carried.map (·.2) = s.channels) :
    s.render rate = (s.rows carried).flatMap (·.lines (s.times rate)) := by
  have sorted : s.risingTriggers
      = (s.triggers.zipIdx.mergeSort (List.zipIdxLE rises)).map (·.1) := List.mergeSort_zipIdx.symm
  unfold render rows
  rw [sorted, List.flatMap_map, List.flatMap_map, ← traces]
  apply List.flatMap_congr
  intro registered _
  rw [Row.lines, rowOf, List.filter_map, List.map_map]
  rfl

theorem mem_rows {row : Row α} :
    row ∈ s.rows carried ↔ ∃ registered ∈ s.triggers.zipIdx, row = rowOf carried registered := by
  unfold rows
  simp only [List.mem_map, List.mem_mergeSort, eq_comm]

theorem perm_rows (s : Snapshot α) (carried : List (ChannelId × ChannelTrace α)) :
    ((s.rows carried).map fun row => (row.strobe, row.place)).Perm s.triggers.zipIdx := by
  unfold rows
  rw [List.map_map]
  exact (List.map_id _).symm ▸ List.mergeSort_perm _ _

theorem names_rows (s : Snapshot α) (carried : List (ChannelId × ChannelTrace α)) :
    ((s.rows carried).map (·.strobe.name)).Perm (s.triggers.map (·.name)) := by
  have names := (perm_rows s carried).map fun registered => registered.1.name
  have first : s.triggers.zipIdx.map (fun registered => registered.1.name) = s.triggers.map (·.name) := by
    conv_rhs => rw [← List.zipIdx_map_fst 0 s.triggers, List.map_map]
    rfl
  rwa [List.map_map, first] at names

theorem size_of_mem_render {line : Trace α} (mem : line ∈ s.render rate) :
    line.values.size = (s.times rate).size := by
  obtain ⟨t, _, mem⟩ := List.mem_flatMap.mp mem
  rcases List.mem_cons.mp mem with rfl | mem
  · exact Array.size_map
  · obtain ⟨trace, _, rfl⟩ := List.mem_map.mp mem
    unfold channelTrace Waveform.valuesAt
    rw [Array.size_map, Array.size_map]

theorem precedes_rows [TotallyOrdered α] (s : Snapshot α) (carried : List (ChannelId × ChannelTrace α)) :
    (s.rows carried).Pairwise Row.Precedes := by
  have trans (a b c : StrobeInfo α) : rises a b = true → rises b c = true → rises a c = true := TotallyOrdered.trans
  have total (a b : StrobeInfo α) : (rises a b || rises b a) = true := by
    rw [Bool.or_eq_true]
    exact TotallyOrdered.total a.raiseAt b.raiseAt
  have sorted := List.pairwise_mergeSort (List.zipIdxLE_trans trans) (List.zipIdxLE_total total) s.triggers.zipIdx
  have places : (s.triggers.zipIdx.mergeSort (List.zipIdxLE rises)).Pairwise fun a b => a.2 ≠ b.2 := by
    apply List.pairwise_map.mp
    apply ((List.mergeSort_perm _ _).map _).nodup_iff.mpr
    rw [List.zipIdx_map_snd]
    exact List.nodup_range'
  unfold rows
  rw [List.pairwise_map]
  apply (sorted.and places).imp
  intro a b ⟨before, apart⟩
  unfold List.zipIdxLE at before
  split at before
  · rename_i rise
    refine ⟨rise, TotallyOrdered.not_lt rise, ?_⟩
    intro (back : rises b.1 a.1 = true)
    rw [if_pos back, decide_eq_true_eq] at before
    exact Nat.lt_of_le_of_ne before apart
  · cases before

theorem perm_flatMap_carried (distinct : (s.triggers.map (·.name)).Nodup)
    (started : ∀ entry ∈ carried, entry.2.trigger ∈ s.triggers.map (·.name)) :
    ((s.rows carried).flatMap (·.carried)).Perm carried := by
  have names := names_rows s carried
  have groups : (s.rows carried).flatMap (·.carried)
      = ((s.rows carried).map (·.strobe.name)).flatMap fun name => carried.filter (·.2.trigger == name) := by
    unfold rows
    rw [List.map_map, List.flatMap_map, List.flatMap_map]
    rfl
  rw [groups]
  apply perm_flatMap_filter (names.nodup_iff.mpr distinct)
  intro entry mem
  exact names.mem_iff.mpr (started entry mem)

end Snapshot

namespace Sequence

variable {α : Type} [Scalar α] {q : Sequence α} {last? : Option (Sequence α)}

open Snapshot

section Triggers

/--
A sequence whose triggers can be told apart by their names, those in the picture being the first ones.
-/
structure Enrolled (q : Sequence α) : Prop where
  named : Registry.Named q.registry.triggerNames
  shown : q.snapshot.triggers.map (·.name) <+: q.registry.triggerNames

theorem enlists_of_calledOnce {q' : Sequence α} (called : CalledOnce q q') :
    Registry.Enlists q.registry.triggerNames q'.registry.triggerNames := by
  rcases called with same | ⟨call, answer, effect⟩
  · exact .inl (by rw [same])
  · exact (Registry.names_of_effect effect).1

theorem enlists_act (q : Sequence α) (action : Action α) :
    Registry.Enlists q.registry.triggerNames (q.act action).registry.triggerNames := by
  cases action with
  | command command => exact enlists_of_calledOnce (calledOnce_perform q command)
  | exchange slices => exact .inl rfl

theorem names_compile (ok : q.compile.result.isOk = true) :
    q.compile.state.snapshot.triggers.map (·.name) = q.compile.state.registry.triggerNames := by
  obtain ⟨timeline, _, state⟩ := exists_placement_of_isOk ok
  rw [state]
  exact List.map_map

theorem Enrolled.act (enrolled : Enrolled q) (action : Action α) : Enrolled (q.act action) where
  named := enrolled.named.enlists (enlists_act q action)
  shown := by
    cases publishes : q.publishes action with
    | false =>
      rw [(retains_act publishes).snapshot]
      exact enrolled.shown.trans (enlists_act q action).isPrefix
    | true =>
      obtain ⟨rfl, ok⟩ := eq_compile_of_publishes publishes
      rw [Sequence.act, perform, names_compile ok]

theorem enrolled_of_actions (driver : Driver) (cycleFrequency : α) (actions : List (Action α)) :
    Enrolled ((create driver cycleFrequency).afterActions actions) := by
  induction actions using List.reverseRecOn with
  | nil => exact ⟨⟨nofun, .nil⟩, List.prefix_rfl⟩
  | append_singleton actions action ih =>
    rw [afterActions_concat]
    exact ih.act action

theorem snapshot_of_unpublished (q : Sequence α) (actions : List (Action α))
    (unpublished : q.compilations actions = []) : (q.afterActions actions).snapshot = q.snapshot := by
  induction actions generalizing q with
  | nil => rfl
  | cons action rest ih =>
    rw [compilations, List.append_eq_nil_iff] at unpublished
    have silent : q.publishes action = false := by simpa using unpublished.1
    exact (ih (q.act action) unpublished.2).trans (retains_act silent).snapshot

end Triggers

/--
A preview of a sequence: the lines of some rows, one for each strobe in the picture, in which each channel that was
compiled is below the strobe of the trigger that it had then.
-/
structure Rendered (last? : Option (Sequence α)) (q : Sequence α) (rate : α) (rows : List (Row α)) : Prop where
  lines : q.snapshot.render rate = rows.flatMap (·.lines (q.snapshot.times rate))
  strobes : (rows.map fun row => (row.strobe, row.place)).Perm q.snapshot.triggers.zipIdx
  places : ∀ row ∈ rows, q.registry.triggerNames[row.place]? = some row.strobe.name
  distinct : (rows.map (·.strobe.name)).Nodup
  ordered : rows.Pairwise Row.Precedes
  channels : ((rows.flatMap (·.carried)).map (·.1)).Perm q.compiled.keys
  ascending : ∀ row ∈ rows, row.carried.Pairwise fun a b => a.1.index < b.1.index
  own : ∀ row ∈ rows, ∀ entry ∈ row.carried, entry.2.trigger = row.strobe.name
    ∧ entry.2.raiseAt = row.strobe.raiseAt ∧ ∃ p, last? = some p ∧ Shows p q entry.1 entry.2
  sizes : ∀ line ∈ q.snapshot.render rate, line.values.size = (q.snapshot.times rate).size

section Rows

variable {ids : List ChannelId}

structure Started (last? : Option (Sequence α)) (q : Sequence α) (ch : ChannelId) (trace : ChannelTrace α) : Prop where
  shows : ∃ p, last? = some p ∧ Shows p q ch trace
  strobe : ∃ t ∈ q.snapshot.triggers, trace.trigger = t.name ∧ trace.raiseAt = t.raiseAt

theorem own_rows (distinct : (q.snapshot.triggers.map (·.name)).Nodup)
    (traces : List.Forall₂ (Started last? q) ids q.snapshot.channels) :
    ∀ row ∈ q.snapshot.rows (ids.zip q.snapshot.channels), ∀ entry ∈ row.carried, entry.2.trigger = row.strobe.name
      ∧ entry.2.raiseAt = row.strobe.raiseAt ∧ ∃ p, last? = some p ∧ Shows p q entry.1 entry.2 := by
  intro row mem entry carried
  obtain ⟨⟨t, place⟩, registered, rfl⟩ := mem_rows.mp mem
  obtain ⟨carried, here⟩ := List.mem_filter.mp carried
  have trigger : entry.2.trigger = t.name := by simpa using here
  have started : Started last? q entry.1 entry.2 := (List.forall₂_iff_zip.mp traces).2 carried
  obtain ⟨t', mem', trigger', rise⟩ := started.strobe
  have same : t' = t := List.inj_on_of_nodup_map distinct mem' (List.fst_mem_of_mem_zipIdx registered)
    (trigger'.symm.trans trigger)
  exact ⟨trigger, same ▸ rise, started.shows⟩

theorem rendered_rows [TotallyOrdered α] (enrolled : Enrolled q) (rate : α) (perm : ids.Perm q.compiled.keys)
    (ascending : ids.Pairwise (·.index < ·.index)) (traces : List.Forall₂ (Started last? q) ids q.snapshot.channels) :
    Rendered last? q rate (q.snapshot.rows (ids.zip q.snapshot.channels)) := by
  have distinct : (q.snapshot.triggers.map (·.name)).Nodup := enrolled.named.distinct.sublist enrolled.shown.sublist
  have own := own_rows distinct traces
  have channels : (ids.zip q.snapshot.channels).map (·.1) = ids := List.map_fst_zip traces.length_eq.le
  have carried : (ids.zip q.snapshot.channels).map (·.2) = q.snapshot.channels := List.map_snd_zip traces.length_eq.ge
  refine ⟨render_eq_flatMap_rows carried, perm_rows .., ?_, ?_, precedes_rows .., ?_, ?_, own, ?_⟩
  · intro row mem
    obtain ⟨⟨t, place⟩, registered, rfl⟩ := mem_rows.mp mem
    have found : q.snapshot.triggers[place]? = some t := List.mk_mem_zipIdx_iff_getElem?.mp registered
    apply Registry.getElem?_of_isPrefix enrolled.shown
    rw [List.getElem?_map, rowOf, found]
    rfl
  · exact (names_rows ..).nodup_iff.mpr distinct
  · apply List.Perm.trans _ perm
    conv_rhs => rw [← channels]
    apply List.Perm.map
    apply perm_flatMap_carried distinct
    intro entry mem
    obtain ⟨t, mem', trigger, _⟩ := ((List.forall₂_iff_zip.mp traces).2 mem).strobe
    rw [trigger]
    exact List.mem_map_of_mem mem'
  · intro row mem
    obtain ⟨registered, _, rfl⟩ := mem_rows.mp mem
    rw [← channels, List.pairwise_map] at ascending
    exact ascending.filter _
  · exact fun _ => size_of_mem_render

/--
In every state that a sequence can come into, a preview shows each trigger of the picture and each compiled channel once
and nothing else. The strobes are in the order in which they rise, equal rises in the order of registration, and each
channel is below its own trigger, in the order of registration as well. All lines have a value for each point of time.
-/
theorem render_complete [TotallyOrdered α] (driver : Driver) (cycleFrequency : α) (actions : List (Action α)) (rate : α) :
    ∃ rows, Rendered ((create driver cycleFrequency).compilations actions).getLast?
      ((create driver cycleFrequency).afterActions actions) rate rows := by
  have published := published_of_actions driver cycleFrequency actions
  have enrolled := enrolled_of_actions driver cycleFrequency actions
  cases last : ((create driver cycleFrequency).compilations actions).getLast? with
  | none =>
    have blank := snapshot_of_unpublished (create driver cycleFrequency) actions (List.getLast?_eq_none_iff.mp last)
    have nothing := published.blank last
    have none : ([] : List ChannelId).Perm ((create driver cycleFrequency).afterActions actions).compiled.keys := by
      rw [nothing]
      exact .refl _
    refine ⟨_, rendered_rows enrolled rate none .nil ?_⟩
    rw [blank]
    exact .nil
  | some p =>
    have mirrors := published.mirrors p last
    obtain ⟨ids, perm, ascending, traces⟩ := mirrors.channels
    refine ⟨_, rendered_rows enrolled rate perm ascending (traces.imp ?_)⟩
    rintro ch trace ⟨c, t, w, registered, trigger, compiled, rfl⟩
    refine ⟨⟨p, rfl, c, t, w, registered, trigger, compiled, rfl⟩, ?_⟩
    rw [mirrors.triggers]
    exact ⟨_, List.mem_map_of_mem (Registry.mem_of_triggerOf trigger), rfl, rfl⟩

end Rows

section Runs

def twinStrobes : List (Action Float) := [
  .command (.addTrigger "late" 0 0.5 0.125),
  .command (.addTrigger "early" 1 0.25 0.125),
  .command (.addTrigger "twin" 2 0.25 0.125),
  .command (.linkChannel ⟨0⟩ "probe" (.memory 4.0 1)),
  .command (.linkChannel ⟨1⟩ "drive" (.memory 4.0 1)),
  .command (.addSlice (.fixed "pulse" 0.5 0.25)),
  .command (.atSlice "pulse" [] (.edit ⟨1⟩ (.addWaveform (.dc 0.25 1.0 0.0)))),
  .command (.atSlice "pulse" [] (.edit ⟨0⟩ (.addWaveform (.dc 0.25 0.5 0.0)))),
  .command .compile]

theorem render_twinStrobes_complete :
    ((create .memory 1.0).afterActions twinStrobes).snapshot.triggers.map (·.name) = ["late", "early", "twin"]
      ∧ ((create .memory 1.0).afterActions twinStrobes).snapshot.channels.map (fun c => (c.name, c.trigger))
        = [("probe", "late"), ("drive", "early")]
      ∧ ∃ rows, Rendered ((create .memory 1.0).compilations twinStrobes).getLast?
        ((create .memory 1.0).afterActions twinStrobes) 4.0 rows :=
  ⟨by decide +kernel, by decide +kernel, render_complete .memory 1.0 twinStrobes 4.0⟩

def zeroRises : List (Action Float) := [
  .command (.addTrigger "first" 0 0.0 0.125),
  .command (.addTrigger "second" 1 (-0.0) 0.125),
  .command .compile]

theorem triggers_zeroRises : ((create .memory 1.0).afterActions zeroRises).snapshot.triggers
    = [⟨"first", 0, 0.0, 0.125⟩, ⟨"second", 1, -0.0, 0.125⟩] := rfl

theorem render_zeroRises (rate : Float) :
    (((create .memory 1.0).afterActions zeroRises).snapshot.render rate).map (·.name) = ["second", "first"] := by
  have channels : ((create .memory 1.0).afterActions zeroRises).snapshot.channels = [] := rfl
  have apart : totalLE (0.0 : Float) (-0.0) = false := by decide +kernel
  unfold render risingTriggers
  rw [triggers_zeroRises, channels]
  simp [List.mergeSort, apart, strobeTrace]

/--
It is not true that all strobes with equal rises are in the order of registration.
-/
theorem not_equal_rises_registered :
    ¬ ∀ (actions : List (Action Float)) (rate : Float) (i j : Nat) (a b : StrobeInfo Float), i < j →
      ((create .memory 1.0).afterActions actions).snapshot.triggers[i]? = some a →
      ((create .memory 1.0).afterActions actions).snapshot.triggers[j]? = some b →
      (a.raiseAt == b.raiseAt) = true →
      [a.name, b.name].Sublist ((((create .memory 1.0).afterActions actions).snapshot.render rate).map (·.name)) := by
  intro every
  have order := every zeroRises 4.0 0 1 ⟨"first", 0, 0.0, 0.125⟩ ⟨"second", 1, -0.0, 0.125⟩ Nat.zero_lt_one
    (by rw [triggers_zeroRises]; rfl) (by rw [triggers_zeroRises]; rfl) (by decide +kernel)
  rw [render_zeroRises] at order
  revert order
  decide

end Runs

end Sequence

end PulseSequencer
