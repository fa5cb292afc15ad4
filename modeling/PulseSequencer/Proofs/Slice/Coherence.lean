import PulseSequencer.Proofs.Slice.Freshness

/-!
This module contains the invariant that ties the memory of a slice to its content and to its sub slices, and that every
edit and every flattening of any slice of a tree keeps it. With it the memory can be trusted as soon as no duration
has drifted within the tolerance.
-/

namespace PulseSequencer.Slice

variable {α : Type} [Scalar α]

open Scalar

def recorded (durations : Table String α) (name : String) : α :=
  (durations.get? name).getD 0.0

theorem recorded_durationsOf {slices : List (Slice α)} {s : Slice α} (distinct : (slices.map Slice.name).Nodup)
    (mem : s ∈ slices) : recorded (durationsOf slices) s.name = s.duration := by
  unfold recorded
  rw [get?_durationsOf distinct mem, Option.getD_some]

def segmentOf (ch : ChannelId) (slices : List (Slice α)) (name : String) : Option (Waveform α) :=
  (find? slices name).bind fun s => s.memo.flattened.get? ch

theorem segmentOf_name {slices : List (Slice α)} {s : Slice α} (distinct : (slices.map Slice.name).Nodup)
    (mem : s ∈ slices) (ch : ChannelId) : segmentOf ch slices s.name = s.memo.flattened.get? ch := by
  unfold segmentOf
  rw [find?_of_mem distinct mem, Option.bind_some]

theorem recorded_insert (durations : Table String α) (name other : String) (duration : α) :
    recorded (durations.insert name duration) other = if name = other then duration else recorded durations other := by
  unfold recorded
  rw [Table.get?_insert]
  split <;> rfl

/--
The comparison of the sub slices with their recorded durations finds a difference above the tolerance, where it ends, or
no difference at all.
-/
def SettledHere (s : Slice α) : Prop :=
  s.subs.any (resized s.memo) = true ∨ ∀ t ∈ s.subs, t.duration = recorded s.memo.durations t.name

def Settled : Slice α → Prop := Everywhere SettledHere

/--
Every channel that was not edited here has the waveform that it was given at the last success, when each sub slice
played a segment that is still its own unless it reports a change.
-/
structure Kept (s : Slice α) : Prop where
  distinct : (s.subs.map Slice.name).Nodup
  played : ∀ ch, ch ∉ s.memo.dirty → ∃ segments : String → Option (Waveform α),
    (∀ t ∈ s.subs, ch ∉ t.memo.unconsumed → segments t.name = t.memo.flattened.get? ch)
      ∧ ∀ registry, assemble registry s.content ch (s.subs.map fun t => (segments t.name, recorded s.memo.durations t.name))
        = .ok (s.memo.flattened.get? ch)

def Coherent : Slice α → Prop := Everywhere Kept

section Trust

variable {s : Slice α} {ch : ChannelId}

theorem flattened_eq_none (coherent : s.Coherent) (carried : ch ∉ s.channels) (unchanged : ch ∉ s.updated) :
    s.memo.flattened.get? ch = none := by
  induction s using induct with
  | node content memo subs ih =>
    rw [mem_channels, not_or] at carried
    obtain ⟨segments, same, played⟩ := coherent.here.played ch fun dirty => unchanged (mem_updated.mpr (.inl dirty))
    have silent : ∀ t ∈ subs, segments t.name = none := by
      intro t mem
      obtain ⟨current, unconsumed⟩ := current_of_mem unchanged mem
      rw [same t mem unconsumed]
      exact ih t mem (coherent.of_mem mem) (fun h => carried.2 ⟨t, mem, h⟩) current
    have nothing := played default
    rw [assemble_of_forall_none (Option.not_isSome_iff_eq_none.mp carried.1)] at nothing
    · exact (Except.ok.inj nothing).symm
    · intro entry mem
      obtain ⟨t, found, rfl⟩ := List.mem_map.mp mem
      exact silent t found

theorem soundHere_of_coherent (coherent : s.Coherent) (settled : SettledHere s) : SoundHere s := by
  intro ch unchanged registry
  have updated := unchanged
  rw [mem_updated, not_or, not_or] at updated
  obtain ⟨clean, still, _⟩ := updated
  obtain ⟨segments, same, played⟩ := coherent.here.played ch clean
  -- Either the channel would be marked if it were carried, or the recorded durations are the present ones.
  rcases settled with moved | unmoved
  · have carried : ch ∉ s.channels := fun h => still ⟨moved, h⟩
    rw [flattened_eq_none coherent carried unchanged]
    rw [mem_channels, not_or] at carried
    apply assemble_of_forall_none (Option.not_isSome_iff_eq_none.mp carried.1)
    intro entry mem
    obtain ⟨t, found, rfl⟩ := List.mem_map.mp mem
    exact flattened_eq_none (coherent.of_mem found) (fun h => carried.2 ⟨t, found, h⟩) (current_of_mem unchanged found).1
  · rw [← played registry]
    congr 1
    apply List.map_congr_left
    intro t mem
    rw [same t mem (current_of_mem unchanged mem).2, unmoved t mem]

theorem sound_of_coherent (coherent : s.Coherent) (settled : s.Settled) : s.Sound := by
  induction s using induct with
  | node content memo subs ih =>
    refine .node (soundHere_of_coherent coherent settled.here) ?_
    intro t mem
    exact ih t mem (coherent.of_mem mem) (settled.of_mem mem)

end Trust

structure Reports (s s' : Slice α) : Prop where
  name : s'.name = s.name
  kind : s'.kind = s.kind
  kept : ∀ ch, ch ∉ s'.memo.unconsumed →
    ch ∉ s.memo.unconsumed ∧ s'.memo.flattened.get? ch = s.memo.flattened.get? ch

namespace Reports

theorem refl (s : Slice α) : Reports s s := ⟨rfl, rfl, fun _ h => ⟨h, rfl⟩⟩

theorem of_memo {s s' : Slice α} (name : s'.name = s.name) (kind : s'.kind = s.kind)
    (unconsumed : s'.memo.unconsumed = s.memo.unconsumed) (flattened : s'.memo.flattened = s.memo.flattened) :
    Reports s s' := by
  refine ⟨name, kind, fun ch h => ?_⟩
  rw [unconsumed] at h
  exact ⟨h, by rw [flattened]⟩

theorem flatten (registry : Registry α) (s : Slice α) : Reports s (s.flatten registry).state := by
  refine ⟨name_flatten registry s, ?_, fun ch h => mem_unconsumed_flatten registry h⟩
  exact kind_eq_of_renew_eq (renew_flatten registry s)

end Reports

/--
Segments and durations of which a slice has made what it plays on a channel. The sub slices still have these segments
unless they report a change.
-/
structure Recalls (s : Slice α) (ch : ChannelId) (segments : String → Option (Waveform α)) (durations : String → α) :
    Prop where
  same : ∀ t ∈ s.subs, ch ∉ t.memo.unconsumed → segments t.name = t.memo.flattened.get? ch
  assembled : ∀ registry, assemble registry s.content ch (s.subs.map fun t => (segments t.name, durations t.name))
    = .ok (s.memo.flattened.get? ch)

section Steps

variable {s s' : Slice α}

theorem names_of_reports {subs subs' : List (Slice α)} (h : List.Forall₂ Reports subs subs') :
    subs'.map Slice.name = subs.map Slice.name :=
  (map_eq_map_of_forall₂ (h.imp fun _ _ r => r.name.symm)).symm

theorem map_eq_map_of_names {β : Type} {subs subs' : List (Slice α)} (names : subs'.map Slice.name = subs.map Slice.name)
    (f : String → β) : (subs'.map fun t => f t.name) = subs.map fun t => f t.name := by
  have same := congrArg (List.map f) names
  rw [List.map_map, List.map_map] at same
  exact same

theorem name_ne_of_addSub {parent child whole : Slice α} (h : parent.addSub child = .ok whole) :
    ∀ t ∈ parent.subs, child.name ≠ t.name := by
  intro t mem same
  have free := name_free_of_checkSub (addSub_eq_ok_iff.mp h).1
  rw [same] at free
  exact free (List.mem_map_of_mem mem)

theorem recorded_of_addSub {parent child whole : Slice α} (h : parent.addSub child = .ok whole) :
    recorded whole.memo.durations
      = fun name => if child.name = name then 0.0 else recorded parent.memo.durations name := by
  obtain ⟨_, rfl⟩ := addSub_eq_ok_iff.mp h
  exact funext fun name => recorded_insert ..

theorem clean_of_addSub {parent child whole : Slice α} {ch : ChannelId} (h : parent.addSub child = .ok whole)
    (clean : ch ∉ whole.memo.dirty) : ch ∉ parent.memo.dirty ∧ ch ∉ child.updated ∧ ch ∉ child.channels := by
  obtain ⟨_, rfl⟩ := addSub_eq_ok_iff.mp h
  simp only [ChannelSet.mem_union, not_or, mem_changed] at clean
  exact ⟨clean.1.1, clean.1.2.1, clean.2⟩

section Recalls

variable {ch : ChannelId} {segments : String → Option (Waveform α)} {durations : String → α}

theorem Recalls.played (recalls : Recalls s ch segments (recorded s.memo.durations)) :
    ∃ segments : String → Option (Waveform α),
      (∀ t ∈ s.subs, ch ∉ t.memo.unconsumed → segments t.name = t.memo.flattened.get? ch)
        ∧ ∀ registry, assemble registry s.content ch (s.subs.map fun t => (segments t.name, recorded s.memo.durations t.name))
          = .ok (s.memo.flattened.get? ch) :=
  ⟨segments, recalls.same, recalls.assembled⟩

theorem Recalls.step (recalls : Recalls s ch segments durations) (flattened : s'.memo.flattened = s.memo.flattened)
    (subs : List.Forall₂ Reports s.subs s'.subs)
    (content : ∀ registry row, assemble registry s'.content ch row = assemble registry s.content ch row) :
    Recalls s' ch segments durations := by
  constructor
  · intro t' mem' unreported
    obtain ⟨t, mem, reports⟩ := exists_of_mem_right subs mem'
    obtain ⟨unconsumed, waveform⟩ := reports.kept ch unreported
    rw [reports.name, waveform]
    exact recalls.same t mem unconsumed
  · intro registry
    rw [map_eq_map_of_names (names_of_reports subs) fun name => (segments name, durations name), content, flattened]
    exact recalls.assembled registry

theorem Recalls.nest [NeutralZero α] {parent child whole : Slice α} (recalls : Recalls parent ch segments durations)
    (silent : child.memo.flattened.get? ch = none) (h : parent.addSub child = .ok whole) :
    Recalls whole ch (fun name => if child.name = name then none else segments name)
      (fun name => if child.name = name then 0.0 else durations name) := by
  have others := name_ne_of_addSub h
  obtain ⟨_, rfl⟩ := addSub_eq_ok_iff.mp h
  constructor
  · intro t mem unreported
    rcases List.mem_append.mp mem with mem | mem
    · rw [if_neg (others t mem)]
      exact recalls.same t mem unreported
    · obtain rfl : t = child := by simpa using mem
      rw [if_pos rfl, silent]
  · intro registry
    have row : (parent.subs.map fun t => (if child.name = t.name then none else segments t.name,
          if child.name = t.name then 0.0 else durations t.name))
        = parent.subs.map fun t => (segments t.name, durations t.name) := by
      apply List.map_congr_left
      intro t mem
      rw [if_neg (others t mem), if_neg (others t mem)]
    rw [List.map_append, row, List.map_singleton, if_pos rfl, if_pos rfl, assemble_append_silent]
    exact recalls.assembled registry

theorem recalls_of_flatten {registry : Registry α} (distinct : (s.subs.map Slice.name).Nodup) (stale : s.isStale = true)
    (ok : (s.flatten registry).result = .ok ())
    (played : ∀ other, assemble other s.content ch (rowOf ch (s.subs.map fun t => (t.flatten registry).state))
      = .ok ((s.flatten registry).state.memo.flattened.get? ch)) :
    Recalls (s.flatten registry).state ch (segmentOf ch (s.subs.map fun t => (t.flatten registry).state))
      (recorded (s.flatten registry).state.memo.durations) := by
  obtain ⟨_, _, _, state⟩ := flatten_of_ok stale ok
  rw [state] at played ⊢
  rw [← map_name_flatten registry] at distinct
  constructor
  · intro t mem _
    obtain ⟨u, found, rfl⟩ := List.mem_map.mp mem
    exact segmentOf_name distinct found ch
  · intro other
    rw [← played other]
    congr 1
    rw [List.map_map]
    apply List.map_congr_left
    intro t mem
    exact Prod.ext (segmentOf_name distinct mem ch) (recorded_durationsOf distinct mem)

end Recalls

theorem Kept.step (kept : Kept s) (durations : s'.memo.durations = s.memo.durations)
    (flattened : s'.memo.flattened = s.memo.flattened) (subs : List.Forall₂ Reports s.subs s'.subs)
    (clean : ∀ ch, ch ∉ s'.memo.dirty → ch ∉ s.memo.dirty ∧ ∀ registry row,
      assemble registry s'.content ch row = assemble registry s.content ch row) : Kept s' := by
  refine ⟨names_of_reports subs ▸ kept.distinct, fun ch h => ?_⟩
  obtain ⟨marked, content⟩ := clean ch h
  obtain ⟨segments, same, played⟩ := kept.played ch marked
  have recalls := Recalls.step ⟨same, played⟩ flattened subs content
  rw [← durations] at recalls
  exact recalls.played

theorem Kept.nest [NeutralZero α] {parent child whole : Slice α} (kept : Kept parent) (coherent : child.Coherent)
    (h : parent.addSub child = .ok whole) : Kept whole := by
  have others := name_ne_of_addSub h
  refine ⟨?_, ?_⟩
  · obtain ⟨_, rfl⟩ := addSub_eq_ok_iff.mp h
    rw [List.map_append, List.nodup_append]
    refine ⟨kept.distinct, by simp, ?_⟩
    simpa using fun t mem => (others t mem).symm
  · intro ch clean
    obtain ⟨clean, unchanged, carried⟩ := clean_of_addSub h clean
    obtain ⟨segments, same, played⟩ := kept.played ch clean
    have recalls := Recalls.nest ⟨same, played⟩ (flattened_eq_none coherent carried unchanged) h
    rw [← recorded_of_addSub h] at recalls
    exact recalls.played

section Flatten

variable {registry : Registry α}

theorem reports_flattenAll (registry : Registry α) (subs : List (Slice α)) :
    List.Forall₂ Reports subs (flattenAll registry subs).state := by
  apply flattenAll_state.imp
  rintro t t' (rfl | rfl)
  · exact .refl t'
  · exact .flatten registry t

theorem Kept.flatten_of_error (kept : Kept s) {cause : Error α} (failed : (s.flatten registry).result = .error cause) :
    Kept (s.flatten registry).state := by
  rw [Slice.flatten_of_error failed]
  refine kept.step rfl rfl (reports_flattenAll registry s.subs) ?_
  intro ch clean
  simp only [postpone, ChannelSet.mem_union, not_or] at clean
  exact ⟨clean.1, fun _ _ => rfl⟩

theorem Kept.flatten_of_ok (kept : Kept s) (sound : SoundHere s) (stale : s.isStale = true)
    (ok : (s.flatten registry).result = .ok ()) : Kept (s.flatten registry).state := by
  constructor
  · rw [names_flatten]
    exact kept.distinct
  · intro ch _
    exact (recalls_of_flatten kept.distinct stale ok (assemble_of_flatten sound ok ch)).played

theorem Kept.flatten (kept : Kept s) (sound : SoundHere s) : Kept (s.flatten registry).state := by
  cases stale : s.isStale with
  | false =>
    rw [flatten_of_not_stale stale]
    exact kept
  | true =>
    cases result : (s.flatten registry).result with
    | error cause => exact kept.flatten_of_error result
    | ok _ => exact kept.flatten_of_ok sound stale result

theorem Coherent.acknowledge (coherent : s.Coherent) : s.acknowledge.Coherent :=
  .node ⟨coherent.here.distinct, coherent.here.played⟩ fun _ mem => coherent.of_mem mem

theorem Coherent.flatten (coherent : s.Coherent) (settled : s.Settled) : (s.flatten registry).state.Coherent := by
  induction s using induct with
  | node content memo subs ih =>
    refine .node (coherent.here.flatten (soundHere_of_coherent coherent settled.here)) ?_
    intro t' mem
    obtain ⟨t, found, same⟩ := mem_subs_flatten mem
    have flattened := ih t found (coherent.of_mem found) (settled.of_mem found)
    rcases same with rfl | rfl | rfl
    · exact coherent.of_mem found
    · exact flattened
    · exact flattened.acknowledge

end Flatten

theorem forall₂_replace {R : Slice α → Slice α → Prop} {subs : List (Slice α)} {sub sub' : Slice α}
    (distinct : (subs.map Slice.name).Nodup) (mem : sub ∈ subs) (name : sub'.name = sub.name) (refl : ∀ t, R t t)
    (step : R sub sub') : List.Forall₂ R subs (replace sub' subs) := by
  unfold replace
  rw [List.forall₂_map_right_iff, List.forall₂_same]
  intro t found
  by_cases h : t.name = sub'.name
  · have first := find?_of_mem distinct found
    rw [h, name, find?_of_mem distinct mem] at first
    obtain rfl := Option.some.inj first
    simpa [h] using step
  · simpa [h] using refl t

theorem reports_replace {subs : List (Slice α)} {sub sub' : Slice α} (distinct : (subs.map Slice.name).Nodup)
    (mem : sub ∈ subs) (reports : Reports sub sub') : List.Forall₂ Reports subs (replace sub' subs) :=
  forall₂_replace distinct mem reports.name .refl reports

theorem Coherent.workAt {ρ : Type} {work : Slice α → Outcome α (Slice α) ρ} {path : List String}
    (coherent : s.Coherent)
    (target : ∀ t, follow path s = .ok t → t.Coherent → (work t).state.Coherent ∧ Reports t (work t).state) :
    (Slice.workAt work path s).state.Coherent ∧ Reports s (Slice.workAt work path s).state := by
  refine workAt_induct (P := fun t t' => t.Coherent → t'.Coherent ∧ Reports t t') ?_ ?_ path s target coherent
  · intro t coherent
    exact ⟨coherent, .refl t⟩
  · intro t sub sub' name found step coherent
    have mem := mem_of_find? found
    obtain ⟨below, reports⟩ := step (coherent.of_mem mem)
    have subs := reports_replace coherent.here.distinct mem reports
    refine ⟨.node ?_ ?_, .of_memo rfl rfl rfl rfl⟩
    · exact coherent.here.step rfl rfl subs fun ch clean => ⟨clean, fun _ _ => rfl⟩
    · intro u mem
      rcases mem_replace mem with rfl | mem
      · exact below
      · exact coherent.of_mem mem

end Steps

end PulseSequencer.Slice
