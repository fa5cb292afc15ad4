import PulseSequencer.Proofs.Slice.Disclosure

/-!
This module contains what a slice has to rebuild after edits in it and below it: the channels that were edited and no others,
unless a sub slice lasts longer or shorter than it did.
-/

namespace PulseSequencer.Slice

variable {α : Type} [Scalar α]

structure Remarked (edits : ChannelSet) (t t' : Slice α) : Prop where
  name : t'.name = t.name
  durations : t'.memo.durations = t.memo.durations
  unconsumed : t'.memo.unconsumed = t.memo.unconsumed
  kept : ∀ ch ∈ t.memo.dirty, ch ∈ t'.memo.dirty
  dirty : ∀ ch ∈ t'.memo.dirty, ch ∈ t.memo.dirty ∨ ch ∈ edits

structure Reedited (edits : ChannelSet) (s s' : Slice α) : Prop where
  alongside : Alongside (Remarked edits) s s'
  marked : ∀ ch ∈ edits, ∃ names t, follow names s' = .ok t ∧ ch ∈ t.memo.dirty

/--
A slice that has taken notice of its sub slices as they are.
-/
def Quiet (s : Slice α) : Prop :=
  ∀ t ∈ s.subs, resized s.memo t = false ∧ ∀ ch, ch ∉ t.memo.unconsumed

section Edits

variable {edits : ChannelSet} {s s' t t' u : Slice α} {path : List String} {ch : ChannelId}

theorem Remarked.refl (edits : ChannelSet) (t : Slice α) : Remarked edits t t :=
  ⟨rfl, rfl, rfl, fun _ edited => edited, fun _ edited => .inl edited⟩

theorem remarked_apply (ch : ChannelId) (change : Edit α) (t : Slice α) :
    Remarked ((∅ : ChannelSet).insert ch) t (change.apply ch t) := by
  refine ⟨(reports_apply ch change).name, ?_, ?_, ?_, ?_⟩
  · rw [memo_apply]
    rfl
  · rw [memo_apply]
    rfl
  · intro c edited
    rw [memo_apply]
    exact ChannelSet.mem_insert.mpr (.inr edited)
  · intro c edited
    rw [memo_apply] at edited
    rcases ChannelSet.mem_insert.mp edited with rfl | edited
    · exact .inr (ChannelSet.mem_insert.mpr (.inl rfl))
    · exact .inl edited

theorem Remarked.insert (first : Remarked edits t t') (second : Remarked ((∅ : ChannelSet).insert ch) t' u) :
    Remarked (edits.insert ch) t u := by
  refine ⟨second.name.trans first.name, second.durations.trans first.durations,
    second.unconsumed.trans first.unconsumed, fun c edited => second.kept c (first.kept c edited), ?_⟩
  intro c edited
  rw [ChannelSet.mem_insert]
  rcases second.dirty c edited with before | fresh
  · rcases first.dirty c before with old | earlier
    · exact .inl old
    · exact .inr (.inr earlier)
  · exact .inr (.inl ((ChannelSet.mem_insert.mp fresh).resolve_right (ChannelSet.not_mem_empty c)))

theorem Reedited.refl (s : Slice α) : Reedited ∅ s s :=
  ⟨.refl (Remarked.refl ∅) s, fun ch edited => absurd edited (ChannelSet.not_mem_empty ch)⟩

theorem exists_follow_of_workAt {ρ : Type} {work : Slice α → Outcome α (Slice α) ρ} {b : ρ}
    (ok : (workAt work path s).result = .ok b) : ∃ t, follow path s = .ok t := by
  induction path generalizing s with
  | nil => exact ⟨s, rfl⟩
  | cons name rest ih =>
    simp only [workAt] at ok
    simp only [follow]
    split at ok
    · cases ok
    · rename_i sub found
      exact ih ok

theorem Reedited.edit (reedited : Reedited edits s s') (change : Edit α)
    (ok : (workAt (Command.perform · (.edit ch change)) path s').result = .ok ()) :
    Reedited (edits.insert ch) s (workAt (Command.perform · (.edit ch change)) path s').state := by
  have step : Alongside (Remarked ((∅ : ChannelSet).insert ch)) s'
      (workAt (Command.perform · (.edit ch change)) path s').state := by
    refine .workAt (Remarked.refl _) (fun t subs => ?_) (fun _ _ same => same.name) path s' fun t => ?_
    · exact ⟨rfl, rfl, rfl, fun _ edited => edited, fun _ edited => .inl edited⟩
    · exact .of_subs_eq (Remarked.refl _) (remarked_apply ch change t) (remarked_apply ch change t).name
        (subs_apply ch change)
  refine ⟨.trans (fun _ _ _ first (second : Remarked _ _ _) => first.insert second) reedited.alongside step, ?_⟩
  intro c mem
  rcases ChannelSet.mem_insert.mp mem with rfl | earlier
  · obtain ⟨t, found⟩ := exists_follow_of_workAt ok
    have there : follow path (workAt (Command.perform · (.edit c change)) path s').state = .ok (change.apply c t) :=
      follow_workAt_end (fun t => (remarked_apply c change t).name) found
    refine ⟨path, _, there, ?_⟩
    rw [memo_apply]
    exact ChannelSet.mem_insert.mpr (.inl rfl)
  · obtain ⟨names, t, found, edited⟩ := reedited.marked c earlier
    obtain ⟨t', there, same⟩ := step.exists_after found
    exact ⟨names, t', there, same.kept c edited⟩

theorem quiet_of_not_stale (fresh : s.isStale = false) : Quiet s := by
  intro t mem
  obtain ⟨_, _, below⟩ := isStale_eq_false_iff.mp fresh
  exact ⟨(below t mem).1, (below t mem).2.1⟩

theorem mem_updated_iff_follow (distinct : s.Distinct) (quiet : s.Everywhere Quiet) :
    ch ∈ s.updated ↔ ∃ names t, follow names s = .ok t ∧ ch ∈ t.memo.dirty := by
  have clean : ch ∉ s.updated ↔ s.Everywhere fun t => ch ∉ t.memo.dirty := by
    clear distinct
    induction s using induct with
    | node content memo subs ih =>
      have unmoved : subs.any (resized memo) = false := by
        rw [List.any_eq_false]
        intro t mem
        rw [(quiet.here t mem).1]
        exact Bool.false_ne_true
      rw [mem_updated, unmoved]
      simp only [Bool.false_eq_true, false_and, false_or, not_or, not_exists, not_and]
      constructor
      · rintro ⟨here, below⟩
        refine .node here fun t mem => (ih t mem (quiet.of_mem mem)).mp fun updated => ?_
        exact below t mem (mem_changed.mpr (.inl updated))
      · intro everywhere
        refine ⟨everywhere.here, fun t mem changed => ?_⟩
        rcases mem_changed.mp changed with updated | unconsumed
        · exact (ih t mem (quiet.of_mem mem)).mpr (everywhere.of_mem mem) updated
        · exact (quiet.here t mem).2 ch unconsumed
  rw [← not_iff_not, clean, everywhere_iff_follow distinct]
  push Not
  rfl

theorem quiet_of_alongside (distinct : s.Distinct) (alongside : Alongside (Remarked edits) s s')
    (fresh : s.Everywhere fun t => t.isStale = false) (distinct' : s'.Distinct)
    (lasting : ∀ names t t', follow names s = .ok t → follow names s' = .ok t' → t'.duration = t.duration) :
    s'.Everywhere Quiet := by
  rw [everywhere_iff_follow distinct']
  intro names t' found' u' mem'
  obtain ⟨t, found, here⟩ := alongside.exists_before found'
  have there' : follow (names ++ [u'.name]) s' = .ok u' := by
    rw [follow_append found']
    exact follow_cons_of_mem (distinct'.follow found') mem'
  obtain ⟨u, there, below⟩ := alongside.exists_before there'
  have mem : u ∈ t.subs := by
    rw [follow_append found] at there
    obtain ⟨_, mem, _, here⟩ := exists_of_follow_cons there
    cases here
    exact mem
  obtain ⟨unmoved, noticed⟩ := quiet_of_not_stale ((everywhere_iff_follow distinct).mp fresh names t found) u mem
  constructor
  · unfold resized at unmoved ⊢
    rw [lasting _ u u' there there', here.durations, below.name]
    exact unmoved
  · rw [below.unconsumed]
    exact noticed

end Edits

end PulseSequencer.Slice
