import PulseSequencer.Proofs.Slice.Names

/-!
This module contains for which channels a slice remembers a waveform: for exactly those that it carries, once no change is
left to be taken up. This does not depend on what the durations of sub slices are compared to.
-/

namespace PulseSequencer.Slice

variable {α : Type} [Scalar α]

/--
A channel that was edited in a slice or below it, or rebuilt below it, since the slice was flattened.
-/
inductive Pending (ch : ChannelId) : Slice α → Prop
  | dirty {s : Slice α} : ch ∈ s.memo.dirty → Pending ch s
  | rebuilt {s t : Slice α} : t ∈ s.subs → ch ∈ t.memo.unconsumed → Pending ch s
  | deeper {s t : Slice α} : t ∈ s.subs → Pending ch t → Pending ch s

def Marked (ch : ChannelId) (s : Slice α) : Prop := Pending ch s ∨ ch ∈ s.memo.unconsumed

def StockedHere (s : Slice α) : Prop :=
  ∀ ch, ¬ Pending ch s → ((s.memo.flattened.get? ch).isSome ↔ ch ∈ s.channels)

def Stocked : Slice α → Prop := Everywhere StockedHere

structure Announces (s s' : Slice α) : Prop where
  name : s'.name = s.name
  marked : ∀ ch, Marked ch s → Marked ch s'
  channels : ∀ ch, ¬ Marked ch s' → (ch ∈ s'.channels ↔ ch ∈ s.channels)

section Marks

variable {ch : ChannelId} {s t : Slice α}

theorem Pending.mem_updated (pending : Pending ch s) : ch ∈ s.updated := by
  induction pending with
  | dirty edited => exact Slice.mem_updated.mpr (.inl edited)
  | rebuilt mem unconsumed => exact Slice.mem_updated.mpr (.inr (.inr ⟨_, mem, mem_changed.mpr (.inr unconsumed)⟩))
  | deeper mem _ ih => exact Slice.mem_updated.mpr (.inr (.inr ⟨_, mem, mem_changed.mpr (.inl ih)⟩))

theorem Stocked.isSome_iff (stocked : s.Stocked) (current : ch ∉ s.updated) :
    (s.memo.flattened.get? ch).isSome ↔ ch ∈ s.channels :=
  stocked.here ch fun pending => current pending.mem_updated

theorem Stocked.get?_eq_none (stocked : s.Stocked) (current : ch ∉ s.updated) (carried : ch ∉ s.channels) :
    s.memo.flattened.get? ch = none := by
  apply Option.not_isSome_iff_eq_none.mp
  intro here
  exact carried ((stocked.isSome_iff current).mp here)

theorem Marked.pending (marked : Marked ch t) (mem : t ∈ s.subs) : Pending ch s := by
  rcases marked with pending | unconsumed
  · exact .deeper mem pending
  · exact .rebuilt mem unconsumed

theorem pending_iff : Pending ch s ↔ ch ∈ s.memo.dirty ∨ ∃ t ∈ s.subs, Marked ch t := by
  constructor
  · intro pending
    cases pending with
    | dirty edited => exact .inl edited
    | rebuilt mem unconsumed => exact .inr ⟨_, mem, .inr unconsumed⟩
    | deeper mem pending => exact .inr ⟨_, mem, .inl pending⟩
  · rintro (edited | ⟨t, mem, marked⟩)
    · exact .dirty edited
    · exact marked.pending mem

theorem Announces.refl (s : Slice α) : Announces s s := ⟨rfl, fun _ h => h, fun _ _ => .rfl⟩

end Marks

section Changes

variable {s s' : Slice α}

structure Altered (s s' : Slice α) : Prop where
  name : s'.name = s.name
  dirty : ∀ ch, ch ∈ s.memo.dirty → ch ∈ s'.memo.dirty
  unconsumed : s'.memo.unconsumed = s.memo.unconsumed
  flattened : s'.memo.flattened = s.memo.flattened
  direct : ∀ ch, ch ∉ s'.memo.dirty → s'.direct? ch = s.direct? ch
  old : ∀ t ∈ s.subs, ∃ t' ∈ s'.subs, Announces t t'
  new : ∀ t' ∈ s'.subs, (∃ t ∈ s.subs, Announces t t') ∨ ∀ ch ∈ t'.channels, ch ∈ s'.memo.dirty

namespace Altered

variable {ch : ChannelId} (altered : Altered s s')

include altered

theorem pending (pending : Pending ch s) : Pending ch s' := by
  rcases pending_iff.mp pending with edited | ⟨t, mem, marked⟩
  · exact .dirty (altered.dirty ch edited)
  · obtain ⟨t', mem', announces⟩ := altered.old t mem
    exact (announces.marked ch marked).pending mem'

theorem mem_channels_iff (quiet : ¬ Pending ch s') : ch ∈ s'.channels ↔ ch ∈ s.channels := by
  rw [pending_iff, not_or, not_exists] at quiet
  obtain ⟨unedited, unmarked⟩ := quiet
  rw [mem_channels, mem_channels, altered.direct ch unedited]
  apply or_congr_right
  constructor
  · rintro ⟨t', mem', carried⟩
    rcases altered.new t' mem' with ⟨t, mem, announces⟩ | fresh
    · exact ⟨t, mem, (announces.channels ch fun marked => unmarked t' ⟨mem', marked⟩).mp carried⟩
    · exact absurd (fresh ch carried) unedited
  · rintro ⟨t, mem, carried⟩
    obtain ⟨t', mem', announces⟩ := altered.old t mem
    exact ⟨t', mem', (announces.channels ch fun marked => unmarked t' ⟨mem', marked⟩).mpr carried⟩

theorem stockedHere (stocked : StockedHere s) : StockedHere s' := by
  intro ch quiet
  rw [altered.flattened, altered.mem_channels_iff quiet]
  exact stocked ch fun pending => quiet (altered.pending pending)

theorem announces : Announces s s' where
  name := altered.name
  marked := by
    rintro ch (pending | unconsumed)
    · exact .inl (altered.pending pending)
    · exact .inr (altered.unconsumed ▸ unconsumed)
  channels := fun _ unmarked => altered.mem_channels_iff fun pending => unmarked (.inl pending)

end Altered

theorem altered_apply (ch : ChannelId) (change : Edit α) : Altered s (change.apply ch s) where
  name := (reports_apply ch change).name
  dirty := by
    intro c edited
    rw [memo_apply]
    exact ChannelSet.mem_insert.mpr (.inr edited)
  unconsumed := by
    rw [memo_apply]
    rfl
  flattened := by
    rw [memo_apply]
    rfl
  direct := fun c unedited => waveforms_apply (clean_of_apply unedited).1 change
  old := by
    rw [subs_apply]
    exact fun t mem => ⟨t, mem, .refl t⟩
  new := by
    rw [subs_apply]
    exact fun t mem => .inl ⟨t, mem, .refl t⟩

theorem altered_nest {child whole : Slice α} (h : s.addSub child = .ok whole) : Altered s whole := by
  obtain ⟨_, rfl⟩ := addSub_eq_ok_iff.mp h
  refine ⟨rfl, ?_, rfl, rfl, fun _ _ => rfl, ?_, ?_⟩
  · intro ch edited
    simp only [ChannelSet.mem_union]
    exact .inl (.inl edited)
  · exact fun t mem => ⟨t, List.mem_append_left _ mem, .refl t⟩
  · intro t mem
    rcases List.mem_append.mp mem with mem | mem
    · exact .inl ⟨t, mem, .refl t⟩
    · rw [List.mem_singleton.mp mem]
      apply Or.inr
      intro ch carried
      simp only [ChannelSet.mem_union]
      exact .inr carried

theorem altered_replace {sub sub' : Slice α} (distinct : DistinctHere s) (mem : sub ∈ s.subs)
    (announces : Announces sub sub') : Altered s { s with subs := replace sub' s.subs } := by
  have states := forall₂_replace distinct mem announces.name Announces.refl announces
  refine ⟨rfl, fun _ edited => edited, rfl, rfl, fun _ _ => rfl, ?_, ?_⟩
  · intro t mem
    obtain ⟨t', mem', announces⟩ := exists_of_mem_right states.flip mem
    exact ⟨t', mem', announces⟩
  · intro t' mem'
    exact .inl (exists_of_mem_right states mem')

end Changes

section Flattening

variable {registry : Registry α} {s : Slice α}

theorem isSome_layRow {pointer : α} {track : Option (Waveform α)} {row : List (Option (Waveform α) × α)} :
    (layRow pointer track row).isSome ↔ track.isSome ∨ ∃ entry ∈ row, entry.1.isSome := by
  induction row generalizing pointer track with
  | nil => simp [layRow]
  | cons entry rest ih =>
    obtain ⟨segment, duration⟩ := entry
    simp only [layRow]
    rw [ih, List.exists_mem_cons_iff]
    cases segment with
    | none => simp
    | some segment =>
      cases track with
      | none =>
        dsimp only
        split
        · simp
        · simp
      | some track => simp

theorem isSome_of_rebuild {content : Content α} {subs : List (Slice α)} {ch : ChannelId} {w : Option (Waveform α)}
    (h : rebuild registry content subs ch = .ok w) :
    w.isSome ↔ (content.waveforms.get? ch).isSome ∨ ∃ t ∈ subs, (t.memo.flattened.get? ch).isSome := by
  have below : (layRow 0.0 none (rowOf ch subs)).isSome ↔ ∃ t ∈ subs, (t.memo.flattened.get? ch).isSome := by
    rw [isSome_layRow]
    simp [rowOf]
  rw [rebuild_eq_assemble] at h
  unfold assemble at h
  rw [← below]
  split at h
  · cases h
  · rename_i direct _
    obtain ⟨padded, _, rfl⟩ := map_eq_ok_iff.mp h
    simp [direct]
  · rename_i laid
    obtain ⟨padded, _, rfl⟩ := map_eq_ok_iff.mp h
    simp [laid]
  · rename_i direct laid
    cases h
    simp [direct, laid]

theorem isSome_flatten (stocked : s.Stocked) (ok : (s.flatten registry).result = .ok ()) (ch : ChannelId) :
    ((s.flatten registry).state.memo.flattened.get? ch).isSome ↔ ch ∈ s.channels := by
  induction s using induct with
  | node content memo subs ih =>
    by_cases mem : ch ∈ updated ⟨content, memo, subs⟩
    · have rebuilt := isSome_of_rebuild (rebuild_of_flatten_ok ok mem)
      rw [rebuilt, mem_channels]
      apply or_congr_right
      simp only [List.mem_map, exists_exists_and_eq_and]
      apply exists_congr
      intro t
      apply and_congr_right
      intro found
      exact ih t found (stocked.of_mem found) (flatten_subs_of_ok ok found)
    · rw [flattened_flatten registry mem]
      exact stocked.isSome_iff mem

theorem announces_flatten (registry : Registry α) (s : Slice α) : Announces s (s.flatten registry).state := by
  have channels := channels_eq_of_renew_eq (renew_flatten registry s)
  refine ⟨name_flatten registry s, ?_, fun ch _ => by rw [channels]⟩
  intro ch marked
  cases stale : s.isStale with
  | false =>
    rw [flatten_of_not_stale stale]
    exact marked
  | true =>
    rcases flatten_of_stale registry stale with ⟨_, _, state, _⟩ | ⟨_, _, _, _, state⟩
    · rw [state]
      rcases marked with pending | unconsumed
      · exact .inl (.dirty (ChannelSet.mem_union.mpr (.inr pending.mem_updated)))
      · exact .inr unconsumed
    · rw [state]
      rcases marked with pending | unconsumed
      · exact .inr (ChannelSet.mem_union.mpr (.inr pending.mem_updated))
      · exact .inr (ChannelSet.mem_union.mpr (.inl unconsumed))

theorem stockedHere_flatten (registry : Registry α) (stocked : s.Stocked) : StockedHere (s.flatten registry).state := by
  have channels := channels_eq_of_renew_eq (renew_flatten registry s)
  cases stale : s.isStale with
  | false =>
    rw [flatten_of_not_stale stale]
    exact stocked.here
  | true =>
    rcases flatten_of_stale registry stale with ⟨_, _, state, _⟩ | ⟨_, ok, _, _, _⟩
    · intro ch quiet
      rw [channels]
      rw [state] at quiet ⊢
      -- Everything that was pending before the failure is so after it.
      apply stocked.here ch
      intro pending
      exact quiet (.dirty (ChannelSet.mem_union.mpr (.inr pending.mem_updated)))
    · intro ch _
      rw [channels]
      exact isSome_flatten stocked ok ch

theorem StockedHere.acknowledge (stocked : StockedHere s) : StockedHere s.acknowledge := by
  intro ch quiet
  rw [channels_eq_of_renew_eq (renew_acknowledge s)]
  exact stocked ch fun pending => quiet (pending_iff.mpr (pending_iff (s := s).mp pending))

theorem Stocked.acknowledge (stocked : s.Stocked) : s.acknowledge.Stocked :=
  Everywhere.acknowledge stocked stocked.here.acknowledge

theorem Stocked.flatten (stocked : s.Stocked) (registry : Registry α) : (s.flatten registry).state.Stocked :=
  Everywhere.flatten registry stocked (fun _ stocked => stockedHere_flatten registry stocked) fun _ here => here.acknowledge

end Flattening

section Runs

variable {s : Slice α}

theorem stocked_ofKind (name : String) (kind : SliceKind α) : (ofKind name kind).Stocked := by
  refine .node ?_ nofun
  intro ch _
  rw [mem_channels]
  simp [ofKind, direct?, Memo.empty]

theorem Stocked.perform {command : Command α} (stocked : s.Stocked)
    (below : ∀ child, command = .nest child → child.Stocked) :
    (command.perform s).state.Stocked ∧ Announces s (command.perform s).state := by
  cases command with
  | edit ch change =>
    have altered := altered_apply (s := s) ch change
    exact ⟨Everywhere.apply stocked (altered.stockedHere stocked.here), altered.announces⟩
  | nest child =>
    simp only [Command.perform]
    cases h : s.addSub child with
    | error cause => exact ⟨stocked, .refl s⟩
    | ok whole =>
      have altered := altered_nest h
      exact ⟨Everywhere.nest stocked (below child rfl) h (altered.stockedHere stocked.here), altered.announces⟩
  | flatten registry => exact ⟨stocked.flatten registry, announces_flatten registry s⟩
  | getWaveform registry ch =>
    rw [state_perform_getWaveform]
    exact ⟨stocked.flatten registry, announces_flatten registry s⟩

theorem Stocked.workAt {ρ : Type} {work : Slice α → Outcome α (Slice α) ρ} {path : List String} (stocked : s.Stocked)
    (distinct : s.Distinct) (target : ∀ t, t.Stocked → (work t).state.Stocked ∧ Announces t (work t).state) :
    (Slice.workAt work path s).state.Stocked ∧ Announces s (Slice.workAt work path s).state := by
  refine workAt_induct (P := fun t t' => t.Distinct → t.Stocked → t'.Stocked ∧ Announces t t')
    (fun t _ stocked => ⟨stocked, .refl t⟩) ?_ path s (fun t _ _ => target t) distinct stocked
  intro t sub sub' name found step distinct stocked
  have mem := mem_of_find? found
  obtain ⟨below, announces⟩ := step (distinct.of_mem mem) (stocked.of_mem mem)
  have altered := altered_replace distinct.here mem announces
  refine ⟨.node (altered.stockedHere stocked.here) ?_, altered.announces⟩
  intro u mem
  rcases mem_replace mem with rfl | mem
  · exact below
  · exact stocked.of_mem mem

theorem stocked_of_reached {Calm : Slice α → Prop} (reached : Reached Calm s) : s.Distinct ∧ s.Stocked := by
  induction reached with
  | ofKind name kind => exact ⟨distinct_ofKind name kind, stocked_ofKind name kind⟩
  | perform path command _ _ _ ih below =>
    refine ⟨ih.1.workAt fun t distinct => ?_, (ih.2.workAt ih.1 fun t stocked => ?_).1⟩
    · exact distinct.perform fun child nested => (below child nested).1
    · exact stocked.perform fun child nested => (below child nested).2

end Runs

end PulseSequencer.Slice
