import PulseSequencer.Proofs.Outcome
import PulseSequencer.Proofs.Slice.Tree

/-!
This module contains the slice that is built anew from the content of another one and has never been flattened. Two
slices with the same renewal say the same about the cycle, whatever they remember from flattening.
-/

namespace PulseSequencer.Slice

variable {α : Type} [Scalar α]

def unmeasured (subs : List (Slice α)) : Table String α :=
  subs.foldl (fun t s => t.insert s.name 0.0) ∅

def newMemo (s : Slice α) : Memo α :=
  ⟨s.channels, ∅, unmeasured s.subs, ∅, false⟩

mutual

def renew : Slice α → Slice α
  | ⟨content, memo, subs⟩ => ⟨content, newMemo ⟨content, memo, subs⟩, renewAll subs⟩

def renewAll : List (Slice α) → List (Slice α)
  | [] => []
  | s :: rest => renew s :: renewAll rest

end

theorem renewAll_eq_map (subs : List (Slice α)) : renewAll subs = subs.map renew := by
  induction subs with
  | nil => rfl
  | cons s rest ih => rw [renewAll, ih, List.map_cons]

theorem renew_eq (s : Slice α) : s.renew = ⟨s.content, newMemo s, s.subs.map renew⟩ := by
  obtain ⟨content, memo, subs⟩ := s
  rw [renew, renewAll_eq_map]

@[simp]
theorem content_renew (s : Slice α) : s.renew.content = s.content := by rw [renew_eq]

@[simp]
theorem memo_renew (s : Slice α) : s.renew.memo = newMemo s := by rw [renew_eq]

@[simp]
theorem subs_renew (s : Slice α) : s.renew.subs = s.subs.map renew := by rw [renew_eq]

@[simp]
theorem name_renew (s : Slice α) : s.renew.name = s.name := by simp [name]

@[simp]
theorem kind_renew (s : Slice α) : s.renew.kind = s.kind := by simp [kind]

theorem endOf_eq_foldl (start : α) (subs : List (Slice α)) :
    endOf start subs = (subs.map duration).foldl (· + ·) start := by
  induction subs generalizing start with
  | nil => rfl
  | cons s rest ih => rw [endOf, ih, List.map_cons, List.foldl_cons]

theorem channelsOf_eq_foldr (subs : List (Slice α)) : channelsOf subs = (subs.map channels).foldr (· ∪ ·) ∅ := by
  induction subs with
  | nil => rfl
  | cons s rest ih => rw [channelsOf, ih, List.map_cons, List.foldr_cons]

theorem duration_congr {s t : Slice α} (content : s.content = t.content)
    (below : s.subs.map duration = t.subs.map duration) : s.duration = t.duration := by
  obtain ⟨_, _, _⟩ := s
  obtain ⟨_, _, _⟩ := t
  cases content
  simp only [duration, endOf_eq_foldl, below]

theorem channels_congr {s t : Slice α} (content : s.content = t.content)
    (below : s.subs.map channels = t.subs.map channels) : s.channels = t.channels := by
  obtain ⟨_, _, _⟩ := s
  obtain ⟨_, _, _⟩ := t
  cases content
  simp only [channels, channelsOf_eq_foldr, below]

@[simp]
theorem duration_renew (s : Slice α) : s.renew.duration = s.duration := by
  induction s using induct with
  | node content memo subs ih =>
    apply duration_congr
    · rw [content_renew]
    · rw [subs_renew, List.map_map]
      exact List.map_congr_left ih

@[simp]
theorem channels_renew (s : Slice α) : s.renew.channels = s.channels := by
  induction s using induct with
  | node content memo subs ih =>
    apply channels_congr
    · rw [content_renew]
    · rw [subs_renew, List.map_map]
      exact List.map_congr_left ih

theorem unmeasured_map_renew (subs : List (Slice α)) : unmeasured (subs.map renew) = unmeasured subs := by
  simp [unmeasured, List.foldl_map]

theorem newMemo_renew (s : Slice α) : newMemo s.renew = newMemo s := by
  unfold newMemo
  rw [channels_renew, subs_renew, unmeasured_map_renew]

@[simp]
theorem renew_renew (s : Slice α) : s.renew.renew = s.renew := by
  induction s using induct with
  | node content memo subs ih =>
    have below : (subs.map renew).map renew = subs.map renew := by
      rw [List.map_map]
      exact List.map_congr_left ih
    rw [renew_eq (renew _), newMemo_renew, content_renew, subs_renew, below, renew_eq]

section Same

variable {s t : Slice α}

theorem content_eq_of_renew_eq (h : s.renew = t.renew) : s.content = t.content := by
  rw [← content_renew s, h, content_renew]

theorem subs_eq_of_renew_eq (h : s.renew = t.renew) : s.subs.map renew = t.subs.map renew := by
  rw [← subs_renew s, h, subs_renew]

theorem names_eq_of_renew_eq (h : s.renew = t.renew) : s.subs.map Slice.name = t.subs.map Slice.name := by
  have names (subs : List (Slice α)) : subs.map Slice.name = (subs.map renew).map Slice.name := by
    rw [List.map_map]
    exact List.map_congr_left fun u _ => (name_renew u).symm
  rw [names, subs_eq_of_renew_eq h, ← names]

theorem name_eq_of_renew_eq (h : s.renew = t.renew) : s.name = t.name := by
  rw [← name_renew s, h, name_renew]

theorem kind_eq_of_renew_eq (h : s.renew = t.renew) : s.kind = t.kind := by
  rw [← kind_renew s, h, kind_renew]

theorem duration_eq_of_renew_eq (h : s.renew = t.renew) : s.duration = t.duration := by
  rw [← duration_renew s, h, duration_renew]

theorem channels_eq_of_renew_eq (h : s.renew = t.renew) : s.channels = t.channels := by
  rw [← channels_renew s, h, channels_renew]

theorem renew_congr (content : s.content = t.content) (below : s.subs.map renew = t.subs.map renew) :
    s.renew = t.renew := by
  have channels : s.channels = t.channels := by
    apply channels_congr content
    calc s.subs.map channels
      _ = (s.subs.map renew).map Slice.channels := by simp
      _ = (t.subs.map renew).map Slice.channels := by rw [below]
      _ = t.subs.map Slice.channels := by simp
  have durations : unmeasured s.subs = unmeasured t.subs := by
    rw [← unmeasured_map_renew, below, unmeasured_map_renew]
  rw [renew_eq s, renew_eq t]
  unfold newMemo
  rw [content, below, channels, durations]

end Same

theorem mem_updated_renew {ch : ChannelId} {s : Slice α} : ch ∈ s.renew.updated ↔ ch ∈ s.channels := by
  induction s using induct with
  | node content memo subs ih =>
    rw [mem_updated, memo_renew, channels_renew]
    constructor
    · rintro (dirty | ⟨_, mem⟩ | ⟨t, mem, changed⟩)
      · exact dirty
      · exact mem
      · rw [subs_renew] at mem
        obtain ⟨sub, found, rfl⟩ := List.mem_map.mp mem
        rw [mem_changed, memo_renew] at changed
        have carried := (ih sub found).mp (changed.resolve_right (ChannelSet.not_mem_empty ch))
        exact mem_channels.mpr (.inr ⟨sub, found, carried⟩)
    · exact .inl

theorem mem_changed_renew {ch : ChannelId} {s : Slice α} : ch ∈ s.renew.changed ↔ ch ∈ s.channels := by
  rw [mem_changed, mem_updated_renew, memo_renew]
  exact or_iff_left (ChannelSet.not_mem_empty ch)

/-
The renewal of a slice is what the same edits build without any flattening in between.
-/

theorem renew_ofKind (name : String) (kind : SliceKind α) : (ofKind name kind).renew = ofKind name kind := rfl

theorem mem_channels_addWaveform {c ch : ChannelId} {s : Slice α} {w : Waveform α} :
    c ∈ (s.addWaveform ch w).channels ↔ c = ch ∨ c ∈ s.channels := by
  rw [mem_channels, mem_channels]
  simp only [direct?, addWaveform, mark, Table.get?_insertLast]
  by_cases h : ch = c
  · simp [h]
  · simp [h, Ne.symm h]

theorem renew_addWaveform (s : Slice α) (ch : ChannelId) (w : Waveform α) :
    (s.addWaveform ch w).renew = s.renew.addWaveform ch w := by
  have channels : (s.addWaveform ch w).channels = s.channels.insert ch := by
    ext c
    rw [mem_channels_addWaveform, ChannelSet.mem_insert]
  rw [renew_eq (s.addWaveform ch w), renew_eq s]
  unfold newMemo
  rw [channels]
  rfl

theorem find?_map_renew (subs : List (Slice α)) (name : String) :
    find? (subs.map renew) name = (find? subs name).map renew := by
  simp only [find?, List.find?_map, Function.comp_def, name_renew]

theorem checkSub_renew (parent child : Slice α) : checkSub parent.renew child.renew = checkSub parent child := by
  simp [checkSub, find?_map_renew, Function.comp_def]

theorem addSub_eq_ok_iff {parent child whole : Slice α} :
    parent.addSub child = .ok whole
      ↔ checkSub parent child = .ok ()
        ∧ whole = ⟨parent.content,
          ⟨parent.memo.dirty ∪ child.changed ∪ child.channels, parent.memo.unconsumed,
            parent.memo.durations.insert child.name 0.0, parent.memo.flattened, false⟩,
          parent.subs ++ [child]⟩ := by
  unfold addSub
  cases checkSub parent child with
  | error cause => simp
  | ok accepted => simp [eq_comm]

theorem Everywhere.nest {P : Slice α → Prop} {s child whole : Slice α} (everywhere : s.Everywhere P)
    (below : child.Everywhere P) (h : s.addSub child = .ok whole) (here : P whole) : whole.Everywhere P := by
  refine .node here fun t mem => ?_
  obtain ⟨_, rfl⟩ := addSub_eq_ok_iff.mp h
  rcases List.mem_append.mp mem with mem | mem
  · exact everywhere.of_mem mem
  · rw [List.mem_singleton.mp mem]
    exact below

theorem name_free_of_checkSub {parent child : Slice α} (h : checkSub parent child = .ok ()) :
    child.name ∉ parent.subs.map Slice.name := by
  rw [← find?_eq_none_iff]
  obtain ⟨_, _, h⟩ := bind_eq_ok_iff.mp h
  cases found : find? parent.subs child.name with
  | none => rfl
  | some sub => cases hk : child.kind <;> simp [hk, found] at h

theorem channels_of_addSub {parent child whole : Slice α} (h : parent.addSub child = .ok whole) :
    whole.channels = parent.channels ∪ child.channels := by
  obtain ⟨_, rfl⟩ := addSub_eq_ok_iff.mp h
  ext ch
  rw [ChannelSet.mem_union, mem_channels, mem_channels]
  simp [direct?, or_assoc, or_and_right, exists_or]

theorem renew_addSub {parent child whole : Slice α} (h : parent.addSub child = .ok whole) :
    parent.renew.addSub child.renew = .ok whole.renew := by
  have channels := channels_of_addSub h
  have changed : parent.channels ∪ child.renew.changed ∪ child.channels = parent.channels ∪ child.channels := by
    ext ch
    simp only [ChannelSet.mem_union, mem_changed_renew, or_assoc, or_self]
  obtain ⟨accepted, rfl⟩ := addSub_eq_ok_iff.mp h
  rw [addSub_eq_ok_iff, checkSub_renew]
  refine ⟨accepted, ?_⟩
  rw [renew_eq ⟨_, _, _⟩, renew_eq parent]
  unfold newMemo at *
  simp only [channels, channels_renew, changed, name_renew]
  simp [unmeasured]

end PulseSequencer.Slice
