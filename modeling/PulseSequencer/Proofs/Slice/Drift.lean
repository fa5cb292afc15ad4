import PulseSequencer.Proofs.Slice.Arrangement
import PulseSequencer.Proofs.Slice.Stock

/-!
This module contains how far the segments that a slice plays can be from where its sub slices are by now, as exact numbers
have it. A duration that changes within the tolerance does not rebuild a channel, but it is recorded with every success, so
such changes add up for as long as the channel is left alone.
-/

namespace PulseSequencer.Slice

variable {K : Type} [Field K] [LinearOrder K] [FloorRing K] [Elementary K]

open Scalar

def Command.renews (s : Slice K) : Command K → Bool
  | .flatten registry | .getWaveform registry _ => (s.flatten registry).result.isOk
  | .edit .. | .nest _ => false

/--
The state of a slice before a command at the end of a path, if the command flattens this slice with success.
-/
def successes (s : Slice K) : List String → Command K → List (Slice K)
  | [], command => if command.renews s then [s] else []
  | _ :: _, _ => []

/--
The slices that can come about if no one but its owner takes notice of the changes of a slice, each with the states in which
it was flattened with success. No waveform ends before it starts.
-/
inductive Lived : List (Slice K) → Slice K → Prop
  | ofKind (name : String) (kind : SliceKind K) : Lived [] (.ofKind name kind)
  | perform {log : List (Slice K)} {s : Slice K} (path : List String) (command : Command K) (earlier : List (Slice K)) :
    Lived log s → command.Level → (∀ child, command = .nest child → Lived earlier child) →
    Lived (log ++ successes s path command) (workAt (command.perform ·) path s).state
  | acknowledge {log : List (Slice K)} {s : Slice K} : Lived log s → Lived log s.acknowledge

/--
A slice none of whose sub slices plays for longer than it lasts.
-/
def Roomy (s : Slice K) : Prop :=
  ∀ t ∈ s.subs, 0 ≤ t.duration ∧ ∀ ch w, t.flattened.get? ch = some w → w.width ≤ t.duration

def skipped (ch : ChannelId) (log : List (Slice K)) : Nat :=
  (log.reverse.takeWhile fun s => ch ∉ s.updated).length

structure Held (s : Slice K) (ch : ChannelId) (bound : K) (segments : String → Option (Waveform K))
    (durations : String → K) : Prop extends Recalls s ch segments durations where
  near : ∀ t ∈ s.subs, |durations t.name - recorded s.memo.durations t.name| ≤ bound

structure Upkept (log : List (Slice K)) (s : Slice K) : Prop where
  distinct : s.Distinct
  stocked : s.Stocked
  level : s.Level
  held : ∀ ch, ch ∉ s.memo.dirty → ∃ segments durations, Held s ch (skipped ch log * tolerance) segments durations

theorem skipped_concat (ch : ChannelId) (log : List (Slice K)) (s : Slice K) :
    skipped ch (log ++ [s]) = if ch ∈ s.updated then 0 else skipped ch log + 1 := by
  unfold skipped
  rw [List.reverse_concat, List.takeWhile_cons]
  by_cases mem : ch ∈ s.updated
  · simp [mem]
  · simp [mem]

section Untouched

variable {s : Slice K} {ch : ChannelId} {segments : String → Option (Waveform K)} {durations : String → K}

theorem exists_of_mem_subs_flatten {registry : Registry K} {t' : Slice K} (mem : t' ∈ (s.flatten registry).state.subs) :
    ∃ t ∈ s.subs, t'.renew = t.renew := by
  obtain ⟨t, found, rfl | rfl | rfl⟩ := mem_subs_flatten mem
  · exact ⟨t', found, rfl⟩
  · exact ⟨t, found, renew_flatten registry t⟩
  · exact ⟨t, found, (renew_acknowledge _).trans (renew_flatten registry t)⟩

theorem Recalls.flatten (recalls : Recalls s ch segments durations) (current : ch ∉ s.updated) (registry : Registry K) :
    Recalls (s.flatten registry).state ch segments durations := by
  constructor
  · intro t' mem _
    obtain ⟨t, found, same⟩ := mem_subs_flatten mem
    obtain ⟨unchanged, unconsumed⟩ := current_of_mem current found
    have segment := recalls.same t found unconsumed
    have kept := flattened_flatten registry unchanged
    rcases same with rfl | rfl | rfl
    · exact segment
    · rw [name_flatten, kept]
      exact segment
    · exact (congrArg segments (name_flatten registry t)).trans (segment.trans kept.symm)
  · intro other
    rw [map_eq_map_of_names (names_flatten registry s) fun name => (segments name, durations name), content_flatten,
      flattened_flatten registry current]
    exact recalls.assembled other

theorem recalls_of_not_carried (stocked : s.Stocked) (current : ch ∉ s.updated) (carried : ch ∉ s.channels)
    (durations : String → K) : Recalls s ch (fun _ => none) durations := by
  have silent := stocked.get?_eq_none current carried
  rw [mem_channels, not_or] at carried
  constructor
  · intro t mem _
    have below : t.Stocked := stocked.of_mem mem
    exact (below.get?_eq_none (current_of_mem current mem).1 fun here => carried.2 ⟨t, mem, here⟩).symm
  · intro registry
    rw [silent]
    apply assemble_of_forall_none (Option.not_isSome_iff_eq_none.mp carried.1)
    intro entry mem
    obtain ⟨t, _, rfl⟩ := List.mem_map.mp mem
    rfl

theorem not_mem_unconsumed_of_flatten_ok {registry : Registry K} (ok : (s.flatten registry).result = .ok ()) {t : Slice K}
    (mem : t ∈ (s.flatten registry).state.subs) (ch : ChannelId) : ch ∉ t.memo.unconsumed := by
  cases stale : s.isStale with
  | false =>
    rw [flatten_of_not_stale stale] at mem
    exact ((isStale_eq_false_iff.mp stale).2.2 t mem).2.1 ch
  | true =>
    obtain ⟨_, _, _, state⟩ := flatten_of_ok stale ok
    rw [state] at mem
    obtain ⟨u, _, rfl⟩ := List.mem_map.mp mem
    exact ChannelSet.not_mem_empty ch

theorem recorded_flatten {registry : Registry K} (distinct : s.Distinct) (stale : s.isStale = true)
    (ok : (s.flatten registry).result = .ok ()) {t : Slice K} (mem : t ∈ s.subs) :
    recorded (s.flatten registry).state.memo.durations t.name = t.duration := by
  obtain ⟨_, _, _, state⟩ := flatten_of_ok stale ok
  rw [state]
  have found : (t.flatten registry).state ∈ s.subs.map fun t => (t.flatten registry).state := List.mem_map_of_mem mem
  have note := recorded_durationsOf (map_name_flatten registry s.subs ▸ distinct.here) found
  rw [name_flatten, duration_flatten] at note
  exact note

end Untouched

section Steps

variable {s s' : Slice K} {ch : ChannelId} {log : List (Slice K)} {bound : K} {segments : String → Option (Waveform K)}
  {durations : String → K}

theorem Held.step (held : Held s ch bound segments durations) (measured : s'.memo.durations = s.memo.durations)
    (flattened : s'.memo.flattened = s.memo.flattened) (subs : List.Forall₂ Reports s.subs s'.subs)
    (content : ∀ registry row, assemble registry s'.content ch row = assemble registry s.content ch row) :
    Held s' ch bound segments durations where
  toRecalls := held.toRecalls.step flattened subs content
  near := by
    intro t' mem'
    obtain ⟨t, mem, reports⟩ := exists_of_mem_right subs mem'
    rw [reports.name, measured]
    exact held.near t mem

theorem upkept_ofKind (name : String) (kind : SliceKind K) : Upkept [] (ofKind name kind) where
  distinct := distinct_ofKind name kind
  stocked := stocked_ofKind name kind
  level := level_ofKind name kind
  held := by
    intro ch _
    refine ⟨fun _ => none, fun _ => 0, ⟨nofun, fun registry => ?_⟩, nofun⟩
    exact assemble_of_forall_none rfl (by simp [ofKind]) registry

theorem Upkept.step (upkept : Upkept log s) (distinct : s'.Distinct) (stocked : s'.Stocked) (level : s'.Level)
    (measured : s'.memo.durations = s.memo.durations) (flattened : s'.memo.flattened = s.memo.flattened)
    (subs : List.Forall₂ Reports s.subs s'.subs)
    (clean : ∀ ch, ch ∉ s'.memo.dirty → ch ∉ s.memo.dirty ∧ ∀ registry row,
      assemble registry s'.content ch row = assemble registry s.content ch row) : Upkept log s' where
  distinct := distinct
  stocked := stocked
  level := level
  held := by
    intro ch h
    obtain ⟨unmarked, content⟩ := clean ch h
    obtain ⟨segments, durations, held⟩ := upkept.held ch unmarked
    exact ⟨segments, durations, held.step measured flattened subs content⟩

theorem Upkept.acknowledge (upkept : Upkept log s) : Upkept log s.acknowledge := by
  refine upkept.step upkept.distinct.acknowledge upkept.stocked.acknowledge upkept.level.acknowledge rfl rfl ?_ ?_
  · exact List.forall₂_same.mpr fun t _ => .refl t
  · exact fun ch clean => ⟨clean, fun _ _ => rfl⟩

variable [IsStrictOrderedRing K]

theorem skipped_nonneg (ch : ChannelId) (log : List (Slice K)) : (0 : K) ≤ skipped ch log * tolerance :=
  mul_nonneg (Nat.cast_nonneg _) tolerance_pos.le

theorem Held.nest {child whole : Slice K} (held : Held s ch bound segments durations) (nonneg : 0 ≤ bound)
    (silent : child.memo.flattened.get? ch = none) (h : s.addSub child = .ok whole) :
    Held whole ch bound (fun name => if child.name = name then none else segments name)
      (fun name => if child.name = name then 0.0 else durations name) where
  toRecalls := held.toRecalls.nest silent h
  near := by
    have others := name_ne_of_addSub h
    rw [recorded_of_addSub h]
    obtain ⟨_, rfl⟩ := addSub_eq_ok_iff.mp h
    intro t mem
    dsimp only
    rcases List.mem_append.mp mem with mem | mem
    · rw [if_neg (others t mem), if_neg (others t mem)]
      exact held.near t mem
    · rw [List.mem_singleton.mp mem, if_pos rfl, if_pos rfl, sub_self, abs_zero]
      exact nonneg

theorem duration_near_of_current (current : ch ∉ s.updated) (carried : ch ∈ s.channels) :
    ∀ t ∈ s.subs, |t.duration - recorded s.memo.durations t.name| ≤ tolerance := by
  intro t mem
  rw [← apart_eq_false_iff]
  by_contra moved
  rw [Bool.not_eq_false] at moved
  exact current (mem_updated.mpr (.inr (.inl ⟨List.any_eq_true.mpr ⟨t, mem, moved⟩, carried⟩)))

theorem Upkept.delivers {registry : Registry K} (upkept : Upkept log s) (ok : (s.flatten registry).result = .ok ())
    (ch : ChannelId) :
    ∃ segments durations, Recalls (s.flatten registry).state ch segments durations
      ∧ ∀ t ∈ s.subs, |durations t.name - t.duration| ≤ skipped ch (log ++ [s]) * tolerance := by
  have small : (0 : K) < tolerance := tolerance_pos
  by_cases mem : ch ∈ s.updated
  · have stale : s.isStale = true := by
      by_contra fresh
      exact not_mem_updated_of_not_stale (Bool.not_eq_true _ ▸ fresh) mem
    have rebuilt := rebuild_of_flatten_ok ok mem
    rw [rebuild_eq_assemble] at rebuilt
    refine ⟨_, _, recalls_of_flatten upkept.distinct.here stale ok (assemble_ok_of_ok rebuilt), ?_⟩
    intro t found
    rw [recorded_flatten upkept.distinct stale ok found, sub_self, abs_zero]
    exact skipped_nonneg ch _
  · have clean : ch ∉ s.memo.dirty := fun dirty => mem (mem_updated.mpr (.inl dirty))
    by_cases carried : ch ∈ s.channels
    · obtain ⟨segments, durations, recalls, near⟩ := upkept.held ch clean
      refine ⟨segments, durations, recalls.flatten mem registry, ?_⟩
      intro t found
      have before := near t found
      have since := duration_near_of_current mem carried t found
      rw [abs_sub_comm] at since
      calc |durations t.name - t.duration|
        _ ≤ |durations t.name - recorded s.memo.durations t.name| + |recorded s.memo.durations t.name - t.duration| :=
          abs_sub_le _ _ _
        _ ≤ skipped ch log * tolerance + tolerance := add_le_add before since
        _ = skipped ch (log ++ [s]) * tolerance := by
          rw [skipped_concat, if_neg mem, Nat.cast_add_one]
          ring
    · -- The channel is silent all along, and so it does not matter how long the sub slices last.
      refine ⟨_, recorded (durationsOf s.subs),
        (recalls_of_not_carried upkept.stocked mem carried _).flatten mem registry, ?_⟩
      intro t found
      rw [recorded_durationsOf upkept.distinct.here found, sub_self, abs_zero]
      exact skipped_nonneg ch _

theorem Upkept.flatten_of_error {registry : Registry K} (upkept : Upkept log s) {cause : Error K}
    (failed : (s.flatten registry).result = .error cause) : Upkept log (s.flatten registry).state := by
  have distinct := upkept.distinct.congr (renew_flatten registry s).symm
  have stocked := upkept.stocked.flatten registry
  have level := upkept.level.flatten registry
  rw [Slice.flatten_of_error failed] at distinct stocked level ⊢
  refine upkept.step distinct stocked level rfl rfl (reports_flattenAll registry s.subs) ?_
  intro ch clean
  simp only [postpone, ChannelSet.mem_union, not_or] at clean
  exact ⟨clean.1, fun _ _ => rfl⟩

theorem Upkept.flatten_of_ok {registry : Registry K} (upkept : Upkept log s)
    (ok : (s.flatten registry).result = .ok ()) : Upkept (log ++ [s]) (s.flatten registry).state where
  distinct := upkept.distinct.congr (renew_flatten registry s).symm
  stocked := upkept.stocked.flatten registry
  level := upkept.level.flatten registry
  held := by
    intro ch clean
    cases stale : s.isStale with
    | false =>
      have current : ch ∉ s.updated := not_mem_updated_of_not_stale stale
      rw [flatten_of_not_stale stale] at clean ⊢
      obtain ⟨segments, durations, recalls, near⟩ := upkept.held ch clean
      refine ⟨segments, durations, recalls, fun t mem => (near t mem).trans ?_⟩
      rw [skipped_concat, if_neg current, Nat.cast_add_one]
      linarith [(tolerance_pos : (0 : K) < tolerance)]
    | true =>
      obtain ⟨segments, durations, recalls, near⟩ := upkept.delivers ok ch
      refine ⟨segments, durations, recalls, ?_⟩
      intro t' mem'
      obtain ⟨t, mem, same⟩ := exists_of_mem_subs_flatten mem'
      rw [name_eq_of_renew_eq same, recorded_flatten upkept.distinct stale ok mem]
      exact near t mem

theorem Upkept.flatten (upkept : Upkept log s) (registry : Registry K) :
    Upkept (log ++ if (s.flatten registry).result.isOk then [s] else []) (s.flatten registry).state := by
  cases result : (s.flatten registry).result with
  | error cause =>
    rw [Except.isOk, Except.toBool, if_neg (by simp), List.append_nil]
    exact upkept.flatten_of_error result
  | ok _ => exact upkept.flatten_of_ok result

theorem Upkept.perform {command : Command K} (upkept : Upkept log s) (level : command.Level)
    (below : ∀ child, command = .nest child → ∃ earlier, Upkept earlier child) :
    Upkept (log ++ successes s [] command) (command.perform s).state := by
  have distinct : (command.perform s).state.Distinct := upkept.distinct.perform fun child nested => by
    obtain ⟨_, own⟩ := below child nested
    exact own.distinct
  have stocked : (command.perform s).state.Stocked := (upkept.stocked.perform fun child nested => by
    obtain ⟨_, own⟩ := below child nested
    exact own.stocked).1
  have leveled : (command.perform s).state.Level := upkept.level.perform level
  cases command with
  | edit ch change =>
    change Upkept (log ++ []) (change.apply ch s)
    rw [List.append_nil]
    refine upkept.step distinct stocked leveled ?_ ?_ (forall₂_reports_apply ch change) ?_
    · rw [memo_apply]
      rfl
    · rw [memo_apply]
      rfl
    · intro other clean
      obtain ⟨ne, clean⟩ := clean_of_apply clean
      exact ⟨clean, assemble_apply ne change⟩
  | nest child =>
    change Upkept (log ++ []) _
    rw [List.append_nil]
    revert distinct stocked leveled
    simp only [Command.perform]
    cases h : s.addSub child with
    | error cause => exact fun _ _ _ => upkept
    | ok whole =>
      refine fun distinct stocked leveled => ⟨distinct, stocked, leveled, ?_⟩
      intro ch clean
      obtain ⟨clean, unchanged, carried⟩ := clean_of_addSub h clean
      obtain ⟨segments, durations, held⟩ := upkept.held ch clean
      obtain ⟨_, own⟩ := below child rfl
      exact ⟨_, _, held.nest (skipped_nonneg ch log) (own.stocked.get?_eq_none unchanged carried) h⟩
  | flatten registry => exact upkept.flatten registry
  | getWaveform registry ch =>
    rw [state_perform_getWaveform]
    exact upkept.flatten registry

theorem upkept_of_lived (lived : Lived log s) : Upkept log s := by
  induction lived with
  | ofKind name kind => exact upkept_ofKind name kind
  | acknowledge _ ih => exact ih.acknowledge
  | @perform log s path command earlier _ level _ ih below =>
    cases path with
    | nil => exact ih.perform level fun child nested => ⟨earlier, below child nested⟩
    | cons name rest =>
      have distinct : (workAt (command.perform ·) (name :: rest) s).state.Distinct := ih.distinct.workAt fun t own =>
        own.perform fun child nested => (below child nested).distinct
      have stocked : (workAt (command.perform ·) (name :: rest) s).state.Stocked :=
        (ih.stocked.workAt ih.distinct fun t own => own.perform fun child nested => (below child nested).stocked).1
      have leveled : (workAt (command.perform ·) (name :: rest) s).state.Level := ih.level.workAt fun t own =>
        own.perform level
      change Upkept (log ++ []) _
      rw [List.append_nil]
      revert distinct stocked leveled
      simp only [workAt]
      cases found : find? s.subs name with
      | none => exact fun _ _ _ => ih
      | some sub =>
        intro distinct stocked leveled
        refine ih.step distinct stocked leveled rfl rfl ?_ fun ch clean => ⟨clean, fun _ _ => rfl⟩
        exact reports_replace ih.distinct.here (mem_of_find? found) (reports_workAt rest sub command)

theorem Upkept.exists_assemble {registry : Registry K} (upkept : Upkept log s)
    (ok : (s.flatten registry).result = .ok ()) (ch : ChannelId) :
    ∃ durations : String → K,
      assemble registry (s.flatten registry).state.content ch
          ((s.flatten registry).state.subs.map fun t => (t.flattened.get? ch, durations t.name))
        = .ok ((s.flatten registry).state.flattened.get? ch)
      ∧ ∀ t ∈ s.subs, |durations t.name - t.duration| ≤ skipped ch (log ++ [s]) * tolerance := by
  obtain ⟨segments, durations, recalls, near⟩ := upkept.delivers ok ch
  have assembled := recalls.assembled registry
  have row : ((s.flatten registry).state.subs.map fun t => (segments t.name, durations t.name))
      = (s.flatten registry).state.subs.map fun t => (t.flattened.get? ch, durations t.name) := by
    apply List.map_congr_left
    intro t mem
    rw [recalls.same t mem (not_mem_unconsumed_of_flatten_ok ok mem ch)]
    rfl
  rw [row] at assembled
  exact ⟨durations, assembled, near⟩

theorem Upkept.arranged {registry : Registry K} (upkept : Upkept log s) (ok : (s.flatten registry).result = .ok ())
    (roomy : (s.flatten registry).state.Roomy) (ch : ChannelId) :
    Arranged (skipped ch (log ++ [s]) * (tolerance : K)) ch (s.flatten registry).state := by
  obtain ⟨durations, assembled, near⟩ := upkept.exists_assemble ok ch
  refine arranged_of_assemble ?_ assembled (skipped_nonneg ch _) ?_ (fun t mem => (roomy t mem).1)
    (upkept.level.flatten registry) fun t mem => (roomy t mem).2 ch
  · rw [channels_eq_of_renew_eq (renew_flatten registry s)]
    exact isSome_flatten upkept.stocked ok ch
  · intro t' mem'
    obtain ⟨t, mem, same⟩ := exists_of_mem_subs_flatten mem'
    rw [name_eq_of_renew_eq same, duration_eq_of_renew_eq same]
    exact near t mem

omit [IsStrictOrderedRing K] in
theorem Lived.flatten {registry : Registry K} (lived : Lived log s) (ok : (s.flatten registry).result.isOk = true) :
    Lived (log ++ [s]) (s.flatten registry).state := by
  have flat := lived.perform [] (.flatten registry) [] trivial nofun
  rw [successes, Command.renews, if_pos ok] at flat
  exact flat

omit [IsStrictOrderedRing K] in
theorem exists_lived_of_mem_flatten {registry : Registry K} (below : ∀ t ∈ s.subs, ∃ log, Lived log t) {t' : Slice K}
    (mem : t' ∈ (s.flatten registry).state.subs) : ∃ log, Lived log t' := by
  obtain ⟨t, found, same⟩ := mem_subs_flatten mem
  obtain ⟨log, lived⟩ := below t found
  have flat := lived.perform [] (.flatten registry) [] trivial nofun
  rcases same with rfl | rfl | rfl
  · exact ⟨log, lived⟩
  · exact ⟨_, flat⟩
  · exact ⟨_, flat.acknowledge⟩

omit [IsStrictOrderedRing K] in
theorem Lived.of_mem {t : Slice K} (lived : Lived log s) (mem : t ∈ s.subs) : ∃ log, Lived log t := by
  induction lived generalizing t with
  | ofKind name kind => cases mem
  | acknowledge _ ih => exact ih mem
  | @perform log s path command earlier _ level below ih _ =>
    cases path with
    | nil =>
      cases command with
      | edit ch change =>
        have kept : (change.apply ch s).subs = s.subs := subs_apply ch change
        exact ih (kept ▸ mem)
      | nest child =>
        revert mem
        simp only [workAt, Command.perform]
        cases h : s.addSub child with
        | error cause => exact ih
        | ok whole =>
          obtain ⟨_, rfl⟩ := addSub_eq_ok_iff.mp h
          intro mem
          rcases List.mem_append.mp mem with mem | mem
          · exact ih mem
          · rw [List.mem_singleton.mp mem]
            exact ⟨earlier, below child rfl⟩
      | flatten registry => exact exists_lived_of_mem_flatten (fun u found => ih found) mem
      | getWaveform registry ch =>
        simp only [workAt, state_perform_getWaveform] at mem
        exact exists_lived_of_mem_flatten (fun u found => ih found) mem
    | cons name rest =>
      revert mem
      simp only [workAt]
      cases found : find? s.subs name with
      | none => exact ih
      | some sub =>
        intro mem
        rcases mem_replace mem with rfl | mem
        · obtain ⟨log, lived⟩ := ih (mem_of_find? found)
          exact ⟨_, lived.perform rest command earlier level below⟩
        · exact ih mem

omit [IsStrictOrderedRing K] in
theorem Arranged.acknowledge {slack : K} (arranged : Arranged slack ch s) : Arranged slack ch s.acknowledge := by
  refine ⟨?_, arranged.plays⟩
  rw [channels_eq_of_renew_eq (renew_acknowledge s)]
  exact arranged.carried

/--
What flattening with success leaves in a slice, however it came about: on every channel that is carried, and on no other, it
plays what it holds itself or the segments of its sub slices when they are due, with silence that makes it as long as the
slice. Segments can be due later or earlier by one tolerance for each slice before them and each success that has left the
channel alone, so there is no difference on a channel that is rebuilt just now.
-/
theorem flatten_arranged (lived : Lived log s) {registry : Registry K} (ok : (s.flatten registry).result = .ok ())
    (roomy : (s.flatten registry).state.Roomy) (ch : ChannelId) :
    Arranged (skipped ch (log ++ [s]) * (tolerance : K)) ch (s.flatten registry).state :=
  (upkept_of_lived lived).arranged ok roomy ch

theorem exists_arranged_of_mem_flatten (lived : Lived log s) {registry : Registry K}
    (ok : (s.flatten registry).result = .ok ()) {t' : Slice K} (mem : t' ∈ (s.flatten registry).state.subs)
    (roomy : t'.Roomy) :
    ∃ t ∈ s.subs, t'.renew = t.renew ∧ ∃ log, Lived log t
      ∧ ∀ ch, Arranged (skipped ch (log ++ [t]) * (tolerance : K)) ch t' := by
  cases stale : s.isStale with
  | false =>
    rw [flatten_of_not_stale stale] at mem
    obtain ⟨log, lived⟩ := lived.of_mem mem
    have flat : t'.flatten registry = .done () t' := flatten_of_not_stale ((isStale_eq_false_iff.mp stale).2.2 t' mem).2.2
    have done : (t'.flatten registry).result = .ok () := by rw [flat]; rfl
    have arranged := (upkept_of_lived lived).arranged done
    rw [flat] at arranged
    exact ⟨t', mem, rfl, log, lived, arranged roomy⟩
  | true =>
    obtain ⟨_, _, _, state⟩ := flatten_of_ok stale ok
    rw [state] at mem
    obtain ⟨u, flat, rfl⟩ := List.mem_map.mp mem
    obtain ⟨t, found, rfl⟩ := List.mem_map.mp flat
    obtain ⟨log, lived⟩ := lived.of_mem found
    refine ⟨t, found, (renew_acknowledge _).trans (renew_flatten registry t), log, lived, fun ch => ?_⟩
    exact ((upkept_of_lived lived).arranged (flatten_subs_of_ok ok found) roomy ch).acknowledge

end Steps

section Example

def lengthen (s : Slice ℚ) : Slice ℚ :=
  (workAt (Command.perform · (.edit ⟨0⟩ (.addWaveform (.dc (9 / 10 ^ 16) 1 0)))) ["growing"] (s.flatten .empty).state).state

def duo : Slice ℚ :=
  let behind := (ofKind "behind" .flex).addWaveform ⟨1⟩ (.dc (1 / 4) 1 0)
  (Command.perform (Command.perform (ofKind "duo" .flex) (.nest (ofKind "growing" .flex))).state (.nest behind)).state

def stretched : Slice ℚ := lengthen (lengthen duo)

theorem lived_duo : Lived [] duo := by
  have quarter : (Waveform.dc (1 / 4 : ℚ) 1 0).Level := Waveform.level_dc _ _ (by norm_num)
  have behind : Lived [] ((ofKind "behind" .flex).addWaveform ⟨1⟩ (.dc (1 / 4 : ℚ) 1 0)) :=
    (Lived.ofKind "behind" .flex).perform [] (.edit ⟨1⟩ (.addWaveform _)) [] quarter nofun
  have empty : Lived [] (ofKind "duo" (.flex : SliceKind ℚ)) := .ofKind "duo" .flex
  have first := empty.perform [] (.nest (ofKind "growing" .flex)) [] (level_ofKind ..) fun child same => by
    cases same
    exact .ofKind "growing" .flex
  exact first.perform [] (.nest _) [] (upkept_of_lived behind).level fun child same => by
    cases same
    exact behind

theorem lived_lengthen {log : List (Slice ℚ)} {s : Slice ℚ} (lived : Lived log s)
    (ok : (s.flatten .empty).result.isOk = true) : Lived (log ++ [s]) (lengthen s) := by
  have sliver : (Waveform.dc (9 / 10 ^ 16 : ℚ) 1 0).Level := Waveform.level_dc _ _ (by norm_num)
  have longer := (lived.flatten ok).perform ["growing"] (.edit ⟨0⟩ (.addWaveform (.dc (9 / 10 ^ 16) 1 0))) [] sliver nofun
  rw [successes, List.append_nil] at longer
  exact longer

theorem lived_stretched : Lived [duo, lengthen duo] stretched :=
  lived_lengthen (lived_lengthen lived_duo (by decide +kernel)) (by decide +kernel)

theorem roomy_of_values {s : Slice ℚ}
    (h : ∀ t ∈ s.subs, 0 ≤ t.duration ∧ ∀ w ∈ t.flattened.values, w.width ≤ t.duration) : s.Roomy :=
  fun t mem => ⟨(h t mem).1, fun _ w here => (h t mem).2 w (Table.mem_values_of_get? here)⟩

theorem roomy_flatten_stretched : (stretched.flatten .empty).state.Roomy := roomy_of_values (by decide +kernel)

theorem flatten_stretched_arranged :
    (stretched.flatten .empty).result = .ok () ∧ skipped ⟨1⟩ [duo, lengthen duo, stretched] = 2
      ∧ ∀ ch, Arranged (skipped ch [duo, lengthen duo, stretched] * (tolerance : ℚ)) ch (stretched.flatten .empty).state := by
  have ok : (stretched.flatten .empty).result = .ok () := by
    obtain ⟨_, ok⟩ := exists_ok_of_isOk (by decide +kernel : (stretched.flatten .empty).result.isOk = true)
    exact ok
  refine ⟨ok, by decide +kernel, ?_⟩
  exact flatten_arranged lived_stretched ok roomy_flatten_stretched

def overlooked : Slice ℚ :=
  let outer := (Command.perform (ofKind "outer" .flex) (.nest (ofKind "inner" (.fixedLength 1)))).state
  let edited := (workAt (Command.perform · (.edit ⟨0⟩ (.addWaveform (.dc (1 / 2) 1 0)))) ["inner"]
    (outer.flatten .empty).state).state
  let flat := (workAt (Command.perform · (.flatten .empty)) ["inner"] edited).state
  (workAt (fun t => Outcome.done () t.acknowledge) ["inner"] flat).state

theorem made_overlooked : overlooked.Made := by
  have empty : (ofKind "outer" (.flex : SliceKind ℚ)).Made := .ofKind "outer" .flex
  have outer := empty.perform [] (.nest (ofKind "inner" (.fixedLength 1))) fun child same => by
    cases same
    exact .ofKind "inner" (.fixedLength 1)
  have edited := (outer.perform [] (.flatten .empty) nofun).perform ["inner"]
    (.edit ⟨0⟩ (.addWaveform (.dc (1 / 2) 1 0))) nofun
  exact (edited.perform ["inner"] (.flatten .empty) nofun).acknowledge ["inner"]

/--
It is not true that the segments of sub slices are always played when they are due. Nor is a channel always there that is
carried, if notice is taken of a slice by others than its owner.
-/
theorem not_arranged_exactly :
    (Lived [duo, lengthen duo] stretched ∧ (stretched.flatten .empty).result.isOk = true
        ∧ (stretched.flatten .empty).state.Roomy ∧ ¬ Arranged 0 ⟨1⟩ (stretched.flatten .empty).state)
      ∧ overlooked.Made ∧ (overlooked.flatten .empty).result.isOk = true ∧ (overlooked.flatten .empty).state.Roomy
        ∧ ⟨0⟩ ∈ overlooked.channels ∧ ((overlooked.flatten .empty).state.flattened.get? ⟨0⟩).isSome = false := by
  refine ⟨⟨lived_stretched, by decide +kernel, roomy_flatten_stretched, ?_⟩, made_overlooked, by decide +kernel,
    roomy_of_values (by decide +kernel), by decide +kernel, by decide +kernel⟩
  intro arranged
  have widths : ((stretched.flatten .empty).state.flattened.get? ⟨1⟩).map Waveform.width = some (1 / 4) := by
    decide +kernel
  have cues : (cuesFrom ⟨1⟩ 0 0 (stretched.flatten .empty).state.subs).map (fun cue => (cue.start, cue.segment.width))
      = [(9 / 5 / 10 ^ 15, 1 / 4)] := by decide +kernel
  obtain ⟨padded, here, width⟩ := Option.map_eq_some_iff.mp widths
  obtain ⟨w, padding, _, inherits⟩ := arranged.plays padded here
  have direct : (stretched.flatten .empty).state.direct? ⟨1⟩ = none :=
    Option.isNone_iff_eq_none.mp (by decide +kernel)
  have flex : setDuration? (stretched.flatten .empty).state.content.kind = none :=
    Option.isNone_iff_eq_none.mp (by decide +kernel)
  have same : padded = w := padding.none fun duration own => by
    rw [flex] at own
    cases own
  obtain ⟨pieces, cued, spread⟩ := (inherits direct).plays
  obtain ⟨cue, only, due⟩ := List.map_eq_singleton_iff.mp cues
  rw [Prod.mk.injEq] at due
  rw [only] at cued
  obtain _ | @⟨p, _, pieces, _, onCue, rest⟩ := cued
  cases rest
  -- The waveform is the segment alone, and so it begins with it.
  have finish : p.1 + p.2.width ≤ w.width := spread.within p (List.mem_singleton_self p)
  rw [onCue.segment, due.2, ← same, width] at finish
  have early := onCue.early
  rw [due.1] at early
  norm_num [tolerance] at early
  linarith

end Example

end PulseSequencer.Slice
