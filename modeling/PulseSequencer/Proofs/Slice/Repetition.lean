import PulseSequencer.Proofs.Slice.Names

/-!
This module contains that flattening a slice twice is as good as flattening it once, whether it succeeds or fails, and
that the owner of a slice learns of the same changes before and after.
-/

namespace PulseSequencer.Slice

variable {α : Type} [Scalar α]

open Scalar Outcome

section Durations

variable {s : Slice α} {subs : List (Slice α)}

@[simp]
theorem duration_acknowledge (s : Slice α) : s.acknowledge.duration = s.duration :=
  duration_eq_of_renew_eq (renew_acknowledge s)

theorem isStale_acknowledge_eq_false_iff : s.acknowledge.isStale = false ↔ s.isStale = false := by
  rw [isStale_eq_false_iff, isStale_eq_false_iff]
  rfl

theorem durationsOf_map_acknowledge (subs : List (Slice α)) : durationsOf (subs.map acknowledge) = durationsOf subs := by
  unfold durationsOf
  rw [List.foldl_map]
  simp only [duration_acknowledge]
  rfl

theorem durationsOf_map_flatten (registry : Registry α) (subs : List (Slice α)) :
    durationsOf (subs.map fun s => (s.flatten registry).state) = durationsOf subs := by
  unfold durationsOf
  rw [List.foldl_map]
  simp only [duration_flatten, name_flatten]

theorem not_resized_of_recorded [SelfNear α] {memo : Memo α} (recorded : memo.durations.get? s.name = some s.duration) :
    resized memo s = false := by
  unfold resized
  rw [recorded, Option.getD_some]
  apply SelfNear.apart_self

end Durations

section Success

variable [SelfNear α] {registry : Registry α} {s : Slice α}

theorem not_stale_of_flatten_ok (distinct : s.Distinct) (ok : (s.flatten registry).result = .ok ()) :
    (s.flatten registry).state.isStale = false := by
  induction s using induct with
  | node content memo subs ih =>
    cases stale : isStale ⟨content, memo, subs⟩ with
    | false =>
      rw [flatten_of_not_stale stale]
      exact stale
    | true =>
      obtain ⟨_, below, _, state⟩ := flatten_of_ok stale ok
      have names : ((subs.map fun t => (t.flatten registry).state).map Slice.name).Nodup := by
        rw [map_name_flatten]
        exact distinct.here
      rw [state, isStale_eq_false_iff]
      refine ⟨rfl, ChannelSet.not_mem_empty, ?_⟩
      intro t mem
      obtain ⟨u, flattened, rfl⟩ := List.mem_map.mp mem
      refine ⟨?_, ChannelSet.not_mem_empty, ?_⟩
      · apply not_resized_of_recorded
        rw [duration_acknowledge]
        exact get?_durationsOf names flattened
      · rw [isStale_acknowledge_eq_false_iff]
        obtain ⟨sub, found, rfl⟩ := List.mem_map.mp flattened
        apply ih sub found (distinct.of_mem found)
        exact flattenAll_result_eq_ok_iff.mp below sub found

theorem not_mem_updated_of_flatten_ok (distinct : s.Distinct) (ok : (s.flatten registry).result = .ok ())
    (ch : ChannelId) : ch ∉ (s.flatten registry).state.updated :=
  not_mem_updated_of_not_stale (not_stale_of_flatten_ok distinct ok)

end Success

section Failure

variable {registry : Registry α} {s : Slice α} {subs : List (Slice α)}

structure Alike (s s' : Slice α) : Prop where
  renew : s'.renew = s.renew
  changed : s'.changed = s.changed

theorem Alike.refl (s : Slice α) : Alike s s := ⟨rfl, rfl⟩

theorem any_resized_of_alike {subs subs' : List (Slice α)} (memo : Memo α) (below : List.Forall₂ Alike subs subs') :
    subs'.any (resized memo) = subs.any (resized memo) := by
  have each : subs.map (resized memo) = subs'.map (resized memo) := by
    apply map_eq_map_of_forall₂
    apply below.imp
    intro t t' alike
    unfold resized
    rw [duration_eq_of_renew_eq alike.renew, name_eq_of_renew_eq alike.renew]
  have any_eq (us : List (Slice α)) : us.any (resized memo) = (us.map (resized memo)).any id := by
    rw [List.any_map, Function.id_comp]
  rw [any_eq, ← each, ← any_eq]

theorem exists_changed_of_alike {ch : ChannelId} {subs subs' : List (Slice α)} (below : List.Forall₂ Alike subs subs') :
    (∃ t ∈ subs', ch ∈ t.changed) ↔ ∃ t ∈ subs, ch ∈ t.changed := by
  constructor
  · rintro ⟨t', mem', changed⟩
    obtain ⟨t, mem, alike⟩ := exists_of_mem_right below mem'
    exact ⟨t, mem, alike.changed ▸ changed⟩
  · rintro ⟨t, mem, changed⟩
    obtain ⟨t', mem', alike⟩ := exists_of_mem_right below.flip mem
    exact ⟨t', mem', alike.changed ▸ changed⟩

theorem mem_updated_of_alike {s' : Slice α} {ch : ChannelId} (same : s'.renew = s.renew)
    (durations : s'.memo.durations = s.memo.durations) (below : List.Forall₂ Alike s.subs s'.subs) :
    ch ∈ s'.updated
      ↔ ch ∈ s'.memo.dirty ∨ (s.subs.any (resized s.memo) = true ∧ ch ∈ s.channels) ∨ ∃ t ∈ s.subs, ch ∈ t.changed := by
  have resized_eq : resized s'.memo = resized s.memo := by
    unfold resized
    rw [durations]
  rw [mem_updated, resized_eq, any_resized_of_alike _ below, exists_changed_of_alike below, channels_eq_of_renew_eq same]

theorem alike_flattenAll (below : ∀ t ∈ subs, (t.flatten registry).state.changed = t.changed) :
    List.Forall₂ Alike subs (flattenAll registry subs).state := by
  apply forall₂_imp_of_mem flattenAll_state
  rintro t mem t' (rfl | rfl)
  · exact .refl t'
  · exact ⟨renew_flatten registry t, below t mem⟩

theorem updated_of_failure (below : ∀ t ∈ s.subs, (t.flatten registry).state.changed = t.changed)
    (state : (s.flatten registry).state
      = ⟨s.content, postpone s.memo s.updated, (flattenAll registry s.subs).state⟩) :
    (s.flatten registry).state.updated = s.updated := by
  have alike := alike_flattenAll below
  ext ch
  rw [mem_updated_of_alike (s := s) (renew_flatten registry s)]
  · rw [state]
    simp only [postpone, ChannelSet.mem_union]
    rw [mem_updated]
    grind
  · rw [state]
    rfl
  · rw [state]
    exact alike

theorem flattenAll_eq_onEach (registry : Registry α) (subs : List (Slice α)) :
    flattenAll registry subs = onEach (fun _ => flatten registry) () subs := by
  induction subs with
  | nil => rfl
  | cons s rest ih =>
    rw [flattenAll, onEach, ih]
    rcases flatten registry s with ⟨cause | _, s', events⟩
    · rfl
    · rfl

theorem repeats_flattenAll (each : ∀ s ∈ subs, Repeats (flatten registry) s) :
    Repeats (flattenAll registry) subs := by
  rw [funext (flattenAll_eq_onEach registry)]
  exact .onEach (fun s mem _ => each s mem) ()

theorem result_flatten_of_stale (registry : Registry α) (stale : s.isStale = true) :
    (flatten registry s).result = (flattenAll registry s.subs).result.bind fun _ =>
      (rebuildAll registry s.content (flattenAll registry s.subs).state s.updated.ids).map fun _ => () := by
  obtain ⟨content, memo, subs⟩ := s
  rw [flatten]
  simp only [stale, if_true]
  rcases flattenAll registry subs with ⟨cause | _, subs', events⟩
  · rfl
  · dsimp only
    cases rebuildAll registry content subs' (updated ⟨content, memo, subs⟩).ids with
    | error cause => rfl
    | ok fresh => rfl

theorem postpone_postpone (memo : Memo α) (queued : ChannelSet) :
    postpone (postpone memo queued) queued = postpone memo queued := by
  have dirty : memo.dirty ∪ queued ∪ queued = memo.dirty ∪ queued := by
    ext ch
    simp only [ChannelSet.mem_union, or_assoc, or_self]
  unfold postpone
  rw [dirty]

end Failure

section Repetition

variable [SelfNear α] {s : Slice α}

theorem changed_flatten (registry : Registry α) (distinct : s.Distinct) :
    (s.flatten registry).state.changed = s.changed := by
  induction s using induct with
  | node content memo subs ih =>
    cases stale : isStale ⟨content, memo, subs⟩ with
    | false =>
      rw [flatten_of_not_stale stale]
      rfl
    | true =>
      rcases flatten_of_stale registry stale with ⟨_, _, state, _⟩ | ⟨fresh, ok, _, _, state⟩
      · have below : ∀ t ∈ subs, (t.flatten registry).state.changed = t.changed :=
          fun t mem => ih t mem (distinct.of_mem mem)
        have updated := updated_of_failure below state
        ext ch
        rw [mem_changed, mem_changed, updated, state]
        rfl
      · have clean := not_mem_updated_of_flatten_ok distinct ok
        ext ch
        rw [mem_changed, mem_changed, or_iff_right (clean ch), state]
        simp only [commit, ChannelSet.mem_union]
        apply or_comm

theorem repeats_flatten (registry : Registry α) (distinct : s.Distinct) : Repeats (flatten registry) s := by
  induction s using induct with
  | node content memo subs ih =>
    cases stale : isStale ⟨content, memo, subs⟩ with
    | false => exact .of_done (flatten_of_not_stale stale)
    | true =>
      rcases flatten_of_stale registry stale with ⟨cause, failed, state, _⟩ | ⟨fresh, ok, _, _, state⟩
      · have all : Repeats (flattenAll registry) subs :=
          repeats_flattenAll fun t mem => ih t mem (distinct.of_mem mem)
        have below : ∀ t ∈ subs, (t.flatten registry).state.changed = t.changed :=
          fun t mem => changed_flatten registry (distinct.of_mem mem)
        have updated := updated_of_failure below state
        -- A slice that could not be flattened is left unflattened, so the second attempt does not stop at it either.
        have waiting : (flatten registry ⟨content, memo, subs⟩).state.isStale = true := by
          rw [state]
          rfl
        have result : (flatten registry (flatten registry ⟨content, memo, subs⟩).state).result = .error cause := by
          rw [result_flatten_of_stale registry waiting, updated, ← failed, result_flatten_of_stale registry stale, state]
          dsimp only
          rw [all.result, all.state]
        constructor
        · rw [result, failed]
        · rcases flatten_of_stale registry waiting with ⟨_, _, again, _⟩ | ⟨_, ok, _, _, _⟩
          · rw [again, updated, state]
            dsimp only
            rw [all.state, postpone_postpone]
          · rw [result] at ok
            cases ok
      · have still : flatten registry (flatten registry ⟨content, memo, subs⟩).state = .done () _ :=
          flatten_of_not_stale (not_stale_of_flatten_ok distinct ok)
        constructor
        · rw [still, ok]
          rfl
        · rw [still]
          rfl

end Repetition

end PulseSequencer.Slice
