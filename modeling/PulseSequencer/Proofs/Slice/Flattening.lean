import Mathlib.Data.List.Forall2
import PulseSequencer.Proofs.Slice.Layout
import PulseSequencer.Proofs.Slice.Renewal

/-!
This module contains what flattening does to a slice, said once for each of its outcomes, and what it leaves alone:
content and durations, and the waveforms of all channels that it does not report as changed.
-/

namespace PulseSequencer.Slice

variable {α : Type} [Scalar α]

section Lists

variable {β γ δ : Type} {R : β → γ → Prop} {xs : List β} {ys : List γ}

theorem exists_of_mem_right (h : List.Forall₂ R xs ys) {y : γ} (mem : y ∈ ys) : ∃ x ∈ xs, R x y := by
  induction h with
  | nil => cases mem
  | @cons x' y' xs ys hr _ ih =>
    rcases List.mem_cons.mp mem with rfl | mem
    · exact ⟨x', by simp, hr⟩
    · obtain ⟨x, found, hx⟩ := ih mem
      exact ⟨x, by simp [found], hx⟩

theorem forall₂_imp_of_mem {S : β → γ → Prop} (h : List.Forall₂ R xs ys) (step : ∀ x ∈ xs, ∀ y, R x y → S x y) :
    List.Forall₂ S xs ys := by
  induction h with
  | nil => exact .nil
  | cons hr _ ih => exact .cons (step _ (by simp) _ hr) (ih fun x mem => step x (by simp [mem]))

theorem map_eq_map_of_forall₂ {f : β → δ} {g : γ → δ} (h : List.Forall₂ (fun x y => f x = g y) xs ys) :
    xs.map f = ys.map g := by
  induction h with
  | nil => rfl
  | cons same _ ih => rw [List.map_cons, List.map_cons, same, ih]

end Lists

section Store

variable {t : Table ChannelId (Waveform α)} {fresh : List (ChannelId × Option (Waveform α))} {ch : ChannelId}

theorem store_cons (entry : ChannelId × Option (Waveform α)) :
    store t (entry :: fresh)
      = store (match entry.2 with | some w => t.insert entry.1 w | none => t.erase entry.1) fresh := rfl

theorem get?_store_of_not_mem (h : ch ∉ fresh.map (·.1)) : (store t fresh).get? ch = t.get? ch := by
  induction fresh generalizing t with
  | nil => rfl
  | cons entry rest ih =>
    obtain ⟨c, w⟩ := entry
    rw [List.map_cons, List.mem_cons, not_or] at h
    rw [store_cons, ih h.2]
    cases w with
    | none => simp [Table.get?_erase, Ne.symm h.1]
    | some w => simp [Table.get?_insert, Ne.symm h.1]

theorem get?_store_of_mem {w : Option (Waveform α)} (once : (fresh.map (·.1)).Nodup) (mem : (ch, w) ∈ fresh) :
    (store t fresh).get? ch = w := by
  induction fresh generalizing t with
  | nil => cases mem
  | cons entry rest ih =>
    rw [List.map_cons, List.nodup_cons] at once
    rw [store_cons]
    rcases List.mem_cons.mp mem with rfl | mem
    · rw [get?_store_of_not_mem once.1]
      cases w with
      | none => simp [Table.get?_erase]
      | some w => simp [Table.get?_insert]
    · exact ih once.2 mem

end Store

section Durations

variable {subs : List (Slice α)} {t : Table String α}

theorem get?_foldl_duration_of_not_mem {name : String} (h : name ∉ subs.map Slice.name) :
    (subs.foldl (fun t s => t.insert s.name s.duration) t).get? name = t.get? name := by
  induction subs generalizing t with
  | nil => rfl
  | cons s rest ih =>
    rw [List.map_cons, List.mem_cons, not_or] at h
    rw [List.foldl_cons, ih h.2, Table.get?_insert, if_neg (Ne.symm h.1)]

theorem get?_foldl_duration_of_mem {s : Slice α} (distinct : (subs.map Slice.name).Nodup) (mem : s ∈ subs) :
    (subs.foldl (fun t s => t.insert s.name s.duration) t).get? s.name = some s.duration := by
  induction subs generalizing t with
  | nil => cases mem
  | cons first rest ih =>
    rw [List.map_cons, List.nodup_cons] at distinct
    rw [List.foldl_cons]
    rcases List.mem_cons.mp mem with rfl | mem
    · rw [get?_foldl_duration_of_not_mem distinct.1, Table.get?_insert, if_pos rfl]
    · exact ih distinct.2 mem

theorem get?_durationsOf {s : Slice α} (distinct : (subs.map Slice.name).Nodup) (mem : s ∈ subs) :
    (durationsOf subs).get? s.name = some s.duration :=
  get?_foldl_duration_of_mem distinct mem

theorem get?_durationsOf_eq_none {name : String} (h : name ∉ subs.map Slice.name) :
    (durationsOf subs).get? name = none :=
  get?_foldl_duration_of_not_mem h

end Durations

section Rebuild

variable {registry : Registry α} {content : Content α} {subs : List (Slice α)} {ids : List ChannelId}
  {fresh : List (ChannelId × Option (Waveform α))}

theorem rebuildAll_eq_ok_iff :
    rebuildAll registry content subs ids = .ok fresh
      ↔ List.Forall₂ (fun ch entry => entry.1 = ch ∧ rebuild registry content subs ch = .ok entry.2) ids fresh := by
  induction ids generalizing fresh with
  | nil => simp [rebuildAll, eq_comm]
  | cons ch rest ih =>
    rw [rebuildAll]
    cases hw : rebuild registry content subs ch with
    | error cause => cases fresh <;> simp [hw]
    | ok w =>
      cases hrest : rebuildAll registry content subs rest with
      | error cause => cases fresh <;> simp [Except.map, ← ih, hrest]
      | ok later =>
        cases fresh with
        | nil => simp [Except.map]
        | cons entry later' =>
          obtain ⟨c, w'⟩ := entry
          rw [List.forall₂_cons, ← ih, hrest, hw]
          simp only [Except.map, Except.ok.injEq, List.cons.injEq, Prod.mk.injEq]
          grind

theorem keys_of_rebuildAll (h : rebuildAll registry content subs ids = .ok fresh) : fresh.map (·.1) = ids := by
  have := map_eq_map_of_forall₂ ((rebuildAll_eq_ok_iff.mp h).imp fun ch entry hr => (hr.1.symm : id ch = entry.1))
  rw [← this, List.map_id]

theorem exists_rebuildAll (h : ∀ ch ∈ ids, ∃ w, rebuild registry content subs ch = .ok w) :
    ∃ fresh, rebuildAll registry content subs ids = .ok fresh := by
  induction ids with
  | nil => exact ⟨[], rfl⟩
  | cons ch rest ih =>
    obtain ⟨w, hw⟩ := h ch (by simp)
    obtain ⟨later, hlater⟩ := ih fun c mem => h c (by simp [mem])
    refine ⟨(ch, w) :: later, ?_⟩
    rw [rebuildAll, hw, hlater]
    rfl

theorem get?_store_rebuilt (t : Table ChannelId (Waveform α)) {changed : ChannelSet}
    (h : rebuildAll registry content subs changed.ids = .ok fresh) {ch : ChannelId} (mem : ch ∈ changed) :
    rebuild registry content subs ch = .ok ((store t fresh).get? ch) := by
  have keys := keys_of_rebuildAll h
  have once : (fresh.map (·.1)).Nodup := keys ▸ changed.nodup_ids
  have found : ch ∈ fresh.map (·.1) := keys ▸ mem
  obtain ⟨⟨c, w⟩, hmem, rfl⟩ := List.mem_map.mp found
  obtain ⟨c', _, rfl, hw⟩ := exists_of_mem_right (rebuildAll_eq_ok_iff.mp h) hmem
  rw [get?_store_of_mem once hmem]
  exact hw

theorem get?_store_kept (t : Table ChannelId (Waveform α)) {changed : ChannelSet}
    (h : rebuildAll registry content subs changed.ids = .ok fresh) {ch : ChannelId} (mem : ch ∉ changed) :
    (store t fresh).get? ch = t.get? ch := by
  apply get?_store_of_not_mem
  rw [keys_of_rebuildAll h]
  exact mem

end Rebuild

section FlattenAll

variable {registry : Registry α} {subs : List (Slice α)}

theorem flattenAll_result_eq_ok_iff :
    (flattenAll registry subs).result = .ok () ↔ ∀ s ∈ subs, (flatten registry s).result = .ok () := by
  induction subs with
  | nil => simp [flattenAll, Outcome.done]
  | cons s rest ih =>
    rw [flattenAll, List.forall_mem_cons, ← ih]
    rcases h : flatten registry s with ⟨_ | _, s', events⟩ <;> simp

theorem flattenAll_state_of_ok (h : (flattenAll registry subs).result = .ok ()) :
    (flattenAll registry subs).state = subs.map fun s => (flatten registry s).state := by
  induction subs with
  | nil => rfl
  | cons s rest ih =>
    rw [flattenAll_result_eq_ok_iff, List.forall_mem_cons, ← flattenAll_result_eq_ok_iff] at h
    rw [flattenAll, List.map_cons, ← ih h.2]
    rcases hs : flatten registry s with ⟨_ | _, s', events⟩
    · simp [hs] at h
    · rfl

theorem flattenAll_state :
    List.Forall₂ (fun s s' => s' = s ∨ s' = (flatten registry s).state) subs (flattenAll registry subs).state := by
  induction subs with
  | nil => exact .nil
  | cons s rest ih =>
    rw [flattenAll]
    rcases hs : flatten registry s with ⟨_ | _, s', events⟩
    · exact .cons (.inr (by rw [hs])) (List.forall₂_same.mpr fun t _ => .inl rfl)
    · exact .cons (.inr (by rw [hs])) ih

end FlattenAll

section Outcomes

variable {registry : Registry α} {s : Slice α} {subs : List (Slice α)}

theorem flatten_of_not_stale (fresh : s.isStale = false) : flatten registry s = .done () s := by
  obtain ⟨content, memo, subs⟩ := s
  rw [flatten]
  simp [fresh]

theorem flatten_of_stale (registry : Registry α) (stale : s.isStale = true) :
    (∃ cause, (flatten registry s).result = .error cause
      ∧ (flatten registry s).state = ⟨s.content, postpone s.memo s.updated, (flattenAll registry s.subs).state⟩
      ∧ ((flattenAll registry s.subs).result = .ok () →
        rebuildAll registry s.content (flattenAll registry s.subs).state s.updated.ids = .error cause))
    ∨ (∃ fresh, (flatten registry s).result = .ok ()
      ∧ (flattenAll registry s.subs).result = .ok ()
      ∧ rebuildAll registry s.content (flattenAll registry s.subs).state s.updated.ids = .ok fresh
      ∧ (flatten registry s).state
        = ⟨s.content, commit s.memo (flattenAll registry s.subs).state s.updated fresh,
          (flattenAll registry s.subs).state.map acknowledge⟩) := by
  obtain ⟨content, memo, subs⟩ := s
  rw [flatten]
  simp only [stale, if_true]
  rcases hsubs : flattenAll registry subs with ⟨cause | _, subs', events⟩
  · exact .inl ⟨cause, rfl, rfl, nofun⟩
  · dsimp only
    cases rebuildAll registry content subs' (updated ⟨content, memo, subs⟩).ids with
    | error cause => exact .inl ⟨cause, rfl, rfl, fun _ => rfl⟩
    | ok fresh => exact .inr ⟨fresh, rfl, rfl, rfl, rfl⟩

theorem flatten_of_error {cause : Error α} (failed : (flatten registry s).result = .error cause) :
    (flatten registry s).state = ⟨s.content, postpone s.memo s.updated, (flattenAll registry s.subs).state⟩ := by
  cases stale : s.isStale with
  | false =>
    rw [flatten_of_not_stale stale] at failed
    cases failed
  | true =>
    rcases flatten_of_stale registry stale with ⟨_, _, state, _⟩ | ⟨_, ok, _, _, _⟩
    · exact state
    · rw [ok] at failed
      cases failed

theorem flatten_of_ok (stale : s.isStale = true) (ok : (flatten registry s).result = .ok ()) :
    ∃ fresh, (flattenAll registry s.subs).result = .ok ()
      ∧ rebuildAll registry s.content (s.subs.map fun t => (flatten registry t).state) s.updated.ids = .ok fresh
      ∧ (flatten registry s).state
        = ⟨s.content, commit s.memo (s.subs.map fun t => (flatten registry t).state) s.updated fresh,
          (s.subs.map fun t => (flatten registry t).state).map acknowledge⟩ := by
  rcases flatten_of_stale registry stale with ⟨_, failed, _, _⟩ | ⟨fresh, _, below, rebuilt, state⟩
  · rw [failed] at ok
    cases ok
  · rw [flattenAll_state_of_ok below] at rebuilt state
    exact ⟨fresh, below, rebuilt, state⟩

@[simp]
theorem content_flatten (registry : Registry α) (s : Slice α) : (flatten registry s).state.content = s.content := by
  cases h : s.isStale with
  | false => rw [flatten_of_not_stale h]; rfl
  | true =>
    rcases flatten_of_stale registry h with ⟨_, _, state, _⟩ | ⟨_, _, _, _, state⟩
    · rw [state]
    · rw [state]

@[simp]
theorem renew_acknowledge (s : Slice α) : s.acknowledge.renew = s.renew :=
  renew_congr rfl rfl

theorem map_renew_flattenAll (h : ∀ s ∈ subs, (flatten registry s).state.renew = s.renew) :
    (flattenAll registry subs).state.map renew = subs.map renew := by
  symm
  apply map_eq_map_of_forall₂
  apply forall₂_imp_of_mem flattenAll_state
  rintro t mem t' (rfl | rfl)
  · rfl
  · exact (h t mem).symm

@[simp]
theorem renew_flatten (registry : Registry α) (s : Slice α) : (flatten registry s).state.renew = s.renew := by
  induction s using induct with
  | node content memo subs ih =>
    cases h : isStale ⟨content, memo, subs⟩ with
    | false => rw [flatten_of_not_stale h]; rfl
    | true =>
      have below := map_renew_flattenAll ih
      rcases flatten_of_stale registry h with ⟨_, _, state, _⟩ | ⟨_, _, _, _, state⟩
      · rw [state]
        exact renew_congr rfl below
      · rw [state]
        refine renew_congr rfl ?_
        calc (((flattenAll registry subs).state.map acknowledge).map renew)
          _ = (flattenAll registry subs).state.map renew := by simp
          _ = subs.map renew := below

@[simp]
theorem duration_flatten (registry : Registry α) (s : Slice α) : (flatten registry s).state.duration = s.duration :=
  duration_eq_of_renew_eq (renew_flatten registry s)

@[simp]
theorem name_flatten (registry : Registry α) (s : Slice α) : (flatten registry s).state.name = s.name :=
  name_eq_of_renew_eq (renew_flatten registry s)

theorem map_name_acknowledge (subs : List (Slice α)) : (subs.map acknowledge).map Slice.name = subs.map Slice.name := by
  rw [List.map_map]
  rfl

theorem map_name_flatten (registry : Registry α) (subs : List (Slice α)) :
    (subs.map fun t => (flatten registry t).state).map Slice.name = subs.map Slice.name := by
  rw [List.map_map]
  exact List.map_congr_left fun t _ => name_flatten registry t

theorem names_flatten (registry : Registry α) (s : Slice α) :
    (flatten registry s).state.subs.map Slice.name = s.subs.map Slice.name :=
  names_eq_of_renew_eq (renew_flatten registry s)

theorem flattened_flatten (registry : Registry α) {ch : ChannelId} (h : ch ∉ s.updated) :
    (flatten registry s).state.memo.flattened.get? ch = s.memo.flattened.get? ch := by
  cases stale : s.isStale with
  | false => rw [flatten_of_not_stale stale]; rfl
  | true =>
    rcases flatten_of_stale registry stale with ⟨_, _, state, _⟩ | ⟨fresh, _, _, rebuilt, state⟩
    · rw [state]
      rfl
    · rw [state]
      exact get?_store_kept s.memo.flattened rebuilt h

theorem mem_unconsumed_flatten (registry : Registry α) {ch : ChannelId}
    (h : ch ∉ (flatten registry s).state.memo.unconsumed) :
    ch ∉ s.memo.unconsumed
      ∧ (flatten registry s).state.memo.flattened.get? ch = s.memo.flattened.get? ch := by
  cases stale : s.isStale with
  | false =>
    rw [flatten_of_not_stale stale] at h ⊢
    exact ⟨h, rfl⟩
  | true =>
    rcases flatten_of_stale registry stale with ⟨_, _, state, _⟩ | ⟨fresh, _, _, rebuilt, state⟩
    · rw [state] at h ⊢
      exact ⟨h, rfl⟩
    · rw [state] at h ⊢
      simp only [commit, ChannelSet.mem_union, not_or] at h
      exact ⟨h.1, get?_store_kept s.memo.flattened rebuilt h.2⟩

theorem mem_subs_flatten {t' : Slice α} (mem : t' ∈ (flatten registry s).state.subs) :
    ∃ t ∈ s.subs, t' = t ∨ t' = (flatten registry t).state ∨ t' = (flatten registry t).state.acknowledge := by
  cases stale : s.isStale with
  | false =>
    rw [flatten_of_not_stale stale] at mem
    exact ⟨t', mem, .inl rfl⟩
  | true =>
    rcases flatten_of_stale registry stale with ⟨_, _, state, _⟩ | ⟨_, _, ok, _, state⟩
    · rw [state] at mem
      obtain ⟨t, found, same⟩ := exists_of_mem_right flattenAll_state mem
      exact ⟨t, found, same.imp_right .inl⟩
    · rw [state, flattenAll_state_of_ok ok] at mem
      obtain ⟨u, found, rfl⟩ := List.mem_map.mp mem
      obtain ⟨t, below, rfl⟩ := List.mem_map.mp found
      exact ⟨t, below, .inr (.inr rfl)⟩

theorem Everywhere.acknowledge {P : Slice α → Prop} (everywhere : s.Everywhere P) (here : P s.acknowledge) :
    s.acknowledge.Everywhere P :=
  .node here fun _ mem => everywhere.of_mem mem

theorem Everywhere.flatten {P : Slice α → Prop} (registry : Registry α) (everywhere : s.Everywhere P)
    (flat : ∀ t, t.Everywhere P → P (Slice.flatten registry t).state) (noticed : ∀ t, P t → P t.acknowledge) :
    (Slice.flatten registry s).state.Everywhere P := by
  induction s using induct with
  | node content memo subs ih =>
    refine .node (flat _ everywhere) fun t' mem => ?_
    obtain ⟨t, found, same⟩ := mem_subs_flatten mem
    have below := ih t found (everywhere.of_mem found)
    rcases same with rfl | rfl | rfl
    · exact everywhere.of_mem found
    · exact below
    · exact below.acknowledge (noticed _ below.here)

section Success

variable (ok : (flatten registry s).result = .ok ())

include ok

theorem forall₂_subs_flatten :
    List.Forall₂ (fun t t' => t' = (flatten registry t).state ∨ t' = (flatten registry t).state.acknowledge)
      s.subs (flatten registry s).state.subs := by
  cases stale : s.isStale with
  | false =>
    rw [flatten_of_not_stale stale]
    refine List.forall₂_same.mpr fun t mem => .inl ?_
    rw [flatten_of_not_stale ((isStale_eq_false_iff.mp stale).2.2 t mem).2.2]
    rfl
  | true =>
    obtain ⟨_, _, _, state⟩ := flatten_of_ok stale ok
    rw [state, List.map_map]
    exact List.forall₂_map_right_iff.mpr (List.forall₂_same.mpr fun t _ => .inr rfl)

theorem flatten_subs_of_ok {t : Slice α} (mem : t ∈ s.subs) : (flatten registry t).result = .ok () := by
  cases stale : s.isStale with
  | false =>
    have fresh := ((isStale_eq_false_iff.mp stale).2.2 t mem).2.2
    rw [flatten_of_not_stale fresh]
    rfl
  | true =>
    obtain ⟨_, below, _, _⟩ := flatten_of_ok stale ok
    exact flattenAll_result_eq_ok_iff.mp below t mem

theorem rebuild_of_flatten_ok {ch : ChannelId} (mem : ch ∈ s.updated) :
    rebuild registry s.content (s.subs.map fun t => (flatten registry t).state) ch
      = .ok ((flatten registry s).state.memo.flattened.get? ch) := by
  cases stale : s.isStale with
  | false => exact absurd mem (not_mem_updated_of_not_stale stale)
  | true =>
    obtain ⟨_, _, rebuilt, state⟩ := flatten_of_ok stale ok
    rw [state]
    exact get?_store_rebuilt s.memo.flattened rebuilt mem

end Success

theorem flatten_ok_of_rebuild (subs : ∀ t ∈ s.subs, (flatten registry t).result = .ok ())
    (parts : ∀ ch ∈ s.updated, ∃ w,
      rebuild registry s.content (s.subs.map fun t => (flatten registry t).state) ch = .ok w) :
    (flatten registry s).result = .ok () := by
  cases stale : s.isStale with
  | false => rw [flatten_of_not_stale stale]; rfl
  | true =>
    have below := flattenAll_result_eq_ok_iff.mpr subs
    rcases flatten_of_stale registry stale with ⟨cause, _, _, failed⟩ | ⟨_, ok, _, _, _⟩
    · have failed := failed below
      obtain ⟨fresh, rebuilt⟩ := exists_rebuildAll parts
      rw [flattenAll_state_of_ok below, rebuilt] at failed
      cases failed
    · exact ok

end Outcomes

end PulseSequencer.Slice
