import PulseSequencer.Slice.Flatten
import PulseSequencer.Slice.Path

/-!
This module contains the tree that slices form: how to argue about all slices of a tree, what the channels of a slice
and the changes that it knows of are, and what work at the end of a path does to the slices above.
-/

namespace PulseSequencer.Slice

variable {α : Type} [Scalar α]

@[elab_as_elim]
theorem induct {motive : Slice α → Prop}
    (node : ∀ content memo subs, (∀ s ∈ subs, motive s) → motive ⟨content, memo, subs⟩) : ∀ s, motive s
  | ⟨content, memo, subs⟩ => node content memo subs fun s _ => induct node s

inductive Everywhere (P : Slice α → Prop) : Slice α → Prop
  | node {s : Slice α} : P s → (∀ t ∈ s.subs, Everywhere P t) → Everywhere P s

namespace Everywhere

variable {P Q : Slice α → Prop} {s t : Slice α}

theorem here (h : Everywhere P s) : P s := by
  cases h with
  | node here below => exact here

theorem of_mem (h : Everywhere P s) (mem : t ∈ s.subs) : Everywhere P t := by
  cases h with
  | node here below => exact below t mem

theorem imp (h : Everywhere P s) (step : ∀ t, P t → Q t) : Everywhere Q s := by
  induction h with
  | node here _ ih => exact .node (step _ here) ih

theorem follow {path : List String} (h : Everywhere P s) (found : Slice.follow path s = .ok t) : Everywhere P t := by
  induction path generalizing s with
  | nil =>
    cases found
    exact h
  | cons name rest ih =>
    simp only [Slice.follow] at found
    split at found
    · cases found
    · rename_i sub hsub
      exact ih (h.of_mem (List.mem_of_find?_eq_some hsub)) found

end Everywhere

section

variable {ch : ChannelId} {s : Slice α} {subs : List (Slice α)}

theorem mem_channelsOf : ch ∈ channelsOf subs ↔ ∃ s ∈ subs, ch ∈ s.channels := by
  induction subs with
  | nil => simp [channelsOf]
  | cons s rest ih => simp [channelsOf, ih]

theorem mem_channels : ch ∈ s.channels ↔ (s.direct? ch).isSome ∨ ∃ t ∈ s.subs, ch ∈ t.channels := by
  obtain ⟨content, memo, subs⟩ := s
  simp only [channels, ChannelSet.mem_union, ChannelSet.mem_ofList, Table.mem_keys_iff, mem_channelsOf, direct?]

theorem mem_changed : ch ∈ s.changed ↔ ch ∈ s.updated ∨ ch ∈ s.memo.unconsumed :=
  ChannelSet.mem_union

theorem mem_changedOf : ch ∈ changedOf subs ↔ ∃ s ∈ subs, ch ∈ s.changed := by
  induction subs with
  | nil => simp [changedOf]
  | cons s rest ih => simp [changedOf, ih, mem_changed]

theorem mem_updated :
    ch ∈ s.updated
      ↔ ch ∈ s.memo.dirty ∨ (s.subs.any (resized s.memo) = true ∧ ch ∈ s.channels) ∨ ∃ t ∈ s.subs, ch ∈ t.changed := by
  obtain ⟨content, memo, subs⟩ := s
  simp only [updated, ChannelSet.mem_union, mem_changedOf, or_assoc]
  cases subs.any (resized memo) <;> simp

theorem current_of_mem {t : Slice α} (current : ch ∉ s.updated) (mem : t ∈ s.subs) :
    ch ∉ t.updated ∧ ch ∉ t.memo.unconsumed := by
  rw [← not_or, ← mem_changed]
  exact fun changed => current (mem_updated.mpr (.inr (.inr ⟨t, mem, changed⟩)))

theorem anyStale_eq_false_iff {memo : Memo α} :
    anyStale memo subs = false
      ↔ ∀ t ∈ subs, resized memo t = false ∧ (∀ ch, ch ∉ t.memo.unconsumed) ∧ t.isStale = false := by
  induction subs with
  | nil => simp [anyStale]
  | cons s rest ih => simp [anyStale, ih, ← ChannelSet.isEmpty_iff, and_assoc]

theorem isStale_eq_false_iff :
    s.isStale = false
      ↔ s.memo.valid = true ∧ (∀ ch, ch ∉ s.memo.dirty)
        ∧ ∀ t ∈ s.subs, resized s.memo t = false ∧ (∀ ch, ch ∉ t.memo.unconsumed) ∧ t.isStale = false := by
  obtain ⟨content, memo, subs⟩ := s
  simp [isStale, anyStale_eq_false_iff, ← ChannelSet.isEmpty_iff, and_assoc]

theorem not_mem_updated_of_not_stale (fresh : s.isStale = false) : ch ∉ s.updated := by
  induction s using induct with
  | node content memo subs ih =>
    obtain ⟨_, clean, below⟩ := isStale_eq_false_iff.mp fresh
    rw [mem_updated]
    rintro (dirty | ⟨moved, _⟩ | ⟨t, mem, changed⟩)
    · exact clean ch dirty
    · obtain ⟨t, mem, moved⟩ := List.any_eq_true.mp moved
      rw [(below t mem).1] at moved
      cases moved
    · rcases mem_changed.mp changed with updated | unconsumed
      · exact ih t mem (below t mem).2.2 updated
      · exact (below t mem).2.1 ch unconsumed

end

section

variable {s sub : Slice α} {subs : List (Slice α)} {name : String}

theorem mem_of_find? (found : find? subs name = some sub) : sub ∈ subs :=
  List.mem_of_find?_eq_some found

theorem find?_eq_none_iff : find? subs name = none ↔ name ∉ subs.map Slice.name := by
  simp [find?]

theorem find?_of_mem (distinct : (subs.map Slice.name).Nodup) (mem : s ∈ subs) : find? subs s.name = some s := by
  induction subs with
  | nil => cases mem
  | cons first rest ih =>
    rw [List.map_cons, List.nodup_cons] at distinct
    rcases List.mem_cons.mp mem with rfl | mem
    · simp [find?]
    · have other : first.name ≠ s.name := fun same => distinct.1 (same ▸ List.mem_map_of_mem mem)
      simpa [find?, other] using ih distinct.2 mem

theorem mem_replace (h : s ∈ replace sub subs) : s = sub ∨ s ∈ subs := by
  obtain ⟨t, mem, rfl⟩ := List.mem_map.mp h
  split
  · exact .inl rfl
  · exact .inr mem

@[simp]
theorem map_name_replace (sub : Slice α) (subs : List (Slice α)) :
    (replace sub subs).map Slice.name = subs.map Slice.name := by
  simp only [replace, List.map_map]
  apply List.map_congr_left
  intro s _
  by_cases h : s.name = sub.name <;> simp [h]

theorem workAt_induct {ρ : Type} {P : Slice α → Slice α → Prop} {work : Slice α → Outcome α (Slice α) ρ}
    (refl : ∀ t, P t t)
    (above : ∀ (t sub sub' : Slice α) (name : String), find? t.subs name = some sub → P sub sub' →
      P t { t with subs := replace sub' t.subs })
    (path : List String) (s : Slice α) (target : ∀ t, follow path s = .ok t → P t (work t).state) :
    P s (workAt work path s).state := by
  induction path generalizing s with
  | nil => exact target s rfl
  | cons name rest ih =>
    simp only [workAt]
    cases found : find? s.subs name with
    | none => exact refl s
    | some sub =>
      apply above s sub _ name found
      apply ih sub
      intro t ht
      apply target
      simp only [follow, found]
      exact ht

theorem Everywhere.workAt {ρ : Type} {P : Slice α → Prop} {work : Slice α → Outcome α (Slice α) ρ} {path : List String}
    (everywhere : s.Everywhere P) (above : ∀ t sub, P t → P { t with subs := replace sub t.subs })
    (target : ∀ t, t.Everywhere P → (work t).state.Everywhere P) : (Slice.workAt work path s).state.Everywhere P := by
  refine workAt_induct (P := fun t t' => t.Everywhere P → t'.Everywhere P) (fun _ h => h) ?_ path s
    (fun t _ => target t) everywhere
  intro t sub sub' name found step everywhere
  refine .node (above t sub' everywhere.here) fun u mem => ?_
  rcases mem_replace mem with rfl | mem
  · exact step (everywhere.of_mem (mem_of_find? found))
  · exact everywhere.of_mem mem

end

end PulseSequencer.Slice
