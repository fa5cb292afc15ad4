import PulseSequencer.Handle

/-!
This module contains finite sets of channels. A set is kept as an ascending list, so sets with the same elements are
equal.
-/

namespace PulseSequencer

structure ChannelSet where
  ids : List ChannelId
  ascending : ids.Pairwise (fun a b => a.index < b.index)
deriving DecidableEq

namespace ChannelSet

def empty : ChannelSet := ⟨[], .nil⟩

instance : EmptyCollection ChannelSet := ⟨empty⟩

instance : Inhabited ChannelSet := ⟨empty⟩

instance : Membership ChannelId ChannelSet := ⟨fun s c => c ∈ s.ids⟩

instance (c : ChannelId) (s : ChannelSet) : Decidable (c ∈ s) :=
  inferInstanceAs (Decidable (c ∈ s.ids))

def isEmpty (s : ChannelSet) : Bool := s.ids.isEmpty

def size (s : ChannelSet) : Nat := s.ids.length

theorem mem_def {c : ChannelId} {s : ChannelSet} : c ∈ s ↔ c ∈ s.ids := .rfl

@[simp]
theorem not_mem_empty (c : ChannelId) : c ∉ (∅ : ChannelSet) := List.not_mem_nil

theorem isEmpty_iff {s : ChannelSet} : s.isEmpty = true ↔ ∀ c, c ∉ s := by
  simp only [isEmpty, mem_def, List.isEmpty_iff, List.eq_nil_iff_forall_not_mem]

def place (c : ChannelId) : List ChannelId → List ChannelId
  | [] => [c]
  | d :: rest =>
    if c.index < d.index then c :: d :: rest
    else if c = d then d :: rest
    else d :: place c rest

theorem mem_place {a c : ChannelId} {ids : List ChannelId} : a ∈ place c ids ↔ a = c ∨ a ∈ ids := by
  induction ids with
  | nil => simp [place]
  | cons d rest ih =>
    simp only [place]
    split
    · simp
    · split
      · rename_i h
        simp [h]
      · simp only [List.mem_cons, ih]
        grind

theorem place_ascending {c : ChannelId} {ids : List ChannelId}
    (h : ids.Pairwise (fun a b => a.index < b.index)) :
    (place c ids).Pairwise (fun a b => a.index < b.index) := by
  induction ids with
  | nil => simp [place]
  | cons d rest ih =>
    have ⟨below, tail⟩ := List.pairwise_cons.mp h
    simp only [place]
    split
    · rename_i lt
      refine List.pairwise_cons.mpr ⟨?_, h⟩
      intro a ha
      rcases List.mem_cons.mp ha with rfl | ha
      · exact lt
      · exact Nat.lt_trans lt (below a ha)
    · split
      · exact h
      · rename_i nlt ne
        refine List.pairwise_cons.mpr ⟨?_, ih tail⟩
        intro a ha
        rcases mem_place.mp ha with rfl | ha
        · have : d.index ≠ a.index := fun he => ne (by cases a; cases d; simp_all)
          omega
        · exact below a ha

def insert (c : ChannelId) (s : ChannelSet) : ChannelSet :=
  ⟨place c s.ids, place_ascending s.ascending⟩

@[simp]
theorem mem_insert {a c : ChannelId} {s : ChannelSet} : a ∈ s.insert c ↔ a = c ∨ a ∈ s := mem_place

def erase (c : ChannelId) (s : ChannelSet) : ChannelSet :=
  ⟨s.ids.filter (· != c), s.ascending.filter _⟩

@[simp]
theorem mem_erase {a c : ChannelId} {s : ChannelSet} : a ∈ s.erase c ↔ a ∈ s ∧ a ≠ c := by
  simp [erase, mem_def]

def insertAll (ids : List ChannelId) (s : ChannelSet) : ChannelSet :=
  ids.foldr insert s

@[simp]
theorem mem_insertAll {a : ChannelId} {ids : List ChannelId} {s : ChannelSet} :
    a ∈ s.insertAll ids ↔ a ∈ ids ∨ a ∈ s := by
  induction ids with
  | nil => simp [insertAll]
  | cons c rest ih => simp_all [insertAll, or_assoc]

def ofList (ids : List ChannelId) : ChannelSet := empty.insertAll ids

@[simp]
theorem mem_ofList {a : ChannelId} {ids : List ChannelId} : a ∈ ofList ids ↔ a ∈ ids := by
  simp only [ofList, mem_insertAll]
  exact or_iff_left (not_mem_empty a)

def union (s t : ChannelSet) : ChannelSet := t.insertAll s.ids

instance : Union ChannelSet := ⟨union⟩

@[simp]
theorem mem_union {a : ChannelId} {s t : ChannelSet} : a ∈ s ∪ t ↔ a ∈ s ∨ a ∈ t := mem_insertAll

theorem nodup_ids (s : ChannelSet) : s.ids.Nodup :=
  s.ascending.imp fun {a b} (below : a.index < b.index) => fun (same : a = b) =>
    Nat.lt_irrefl b.index (same ▸ below)

@[ext]
theorem ext {s t : ChannelSet} (h : ∀ c, c ∈ s ↔ c ∈ t) : s = t := by
  have same : s.ids = t.ids := by
    refine List.Perm.eq_of_pairwise ?_ s.ascending t.ascending
      ((List.perm_ext_iff_of_nodup s.nodup_ids t.nodup_ids).mpr h)
    intro a b _ _ hab hba
    omega
  cases s
  cases t
  simp_all

end ChannelSet

end PulseSequencer
