/-!
This module contains tables: finite maps that remember the order in which their keys came.
-/

namespace PulseSequencer

/--
A finite map with an order of its keys, each of which occurs once. A key that is set anew keeps its place, and the
removal of a key keeps the order of the others.
-/
structure Table (κ ν : Type) where
  entries : List (κ × ν)
  distinct : (entries.map (·.1)).Nodup
deriving Repr

namespace Table

variable {κ ν : Type}

def empty : Table κ ν := ⟨[], .nil⟩

instance : EmptyCollection (Table κ ν) := ⟨empty⟩

instance : Inhabited (Table κ ν) := ⟨empty⟩

def keys (t : Table κ ν) : List κ := t.entries.map (·.1)

def values (t : Table κ ν) : List ν := t.entries.map (·.2)

theorem nodup_keys (t : Table κ ν) : t.keys.Nodup := t.distinct

variable [DecidableEq κ]

def find? (key : κ) : List (κ × ν) → Option ν
  | [] => none
  | (k, v) :: rest => if k = key then some v else find? key rest

def get? (t : Table κ ν) (key : κ) : Option ν := find? key t.entries

def contains (t : Table κ ν) (key : κ) : Bool := (t.get? key).isSome

def put (key : κ) (value : ν) : List (κ × ν) → List (κ × ν)
  | [] => [(key, value)]
  | (k, v) :: rest => if k = key then (k, value) :: rest else (k, v) :: put key value rest

theorem mem_keys_put (key k : κ) (value : ν) (entries : List (κ × ν)) :
    k ∈ (put key value entries).map (·.1) ↔ k = key ∨ k ∈ entries.map (·.1) := by
  induction entries with
  | nil => simp [put]
  | cons e rest ih => grind [put]

theorem nodup_put (key : κ) (value : ν) {entries : List (κ × ν)} (h : (entries.map (·.1)).Nodup) :
    ((put key value entries).map (·.1)).Nodup := by
  induction entries with
  | nil => simp [put]
  | cons e rest ih => grind [put, mem_keys_put]

def insert (t : Table κ ν) (key : κ) (value : ν) : Table κ ν :=
  ⟨put key value t.entries, nodup_put key value t.distinct⟩

def erase (t : Table κ ν) (key : κ) : Table κ ν :=
  ⟨t.entries.filter (·.1 ≠ key), (List.filter_sublist.map _).nodup t.distinct⟩

theorem nodup_append_filter (key : κ) (value : ν) {entries : List (κ × ν)} (h : (entries.map (·.1)).Nodup) :
    ((entries.filter (·.1 ≠ key) ++ [(key, value)]).map (·.1)).Nodup := by
  have rest := (List.filter_sublist (p := (·.1 ≠ key)) (l := entries)).map (·.1) |>.nodup h
  rw [List.map_append, List.nodup_append]
  refine ⟨rest, by simp, ?_⟩
  grind

def insertLast (t : Table κ ν) (key : κ) (value : ν) : Table κ ν :=
  ⟨t.entries.filter (·.1 ≠ key) ++ [(key, value)], nodup_append_filter key value t.distinct⟩

@[simp]
theorem get?_empty (key : κ) : (∅ : Table κ ν).get? key = none := rfl

theorem find?_put (key k : κ) (value : ν) (entries : List (κ × ν)) :
    find? k (put key value entries) = if key = k then some value else find? k entries := by
  induction entries with
  | nil => simp [put, find?]
  | cons e rest ih => grind [put, find?]

theorem get?_insert (t : Table κ ν) (key k : κ) (value : ν) :
    (t.insert key value).get? k = if key = k then some value else t.get? k :=
  find?_put key k value t.entries

theorem find?_filter (key k : κ) (entries : List (κ × ν)) :
    find? k (entries.filter (·.1 ≠ key)) = if key = k then none else find? k entries := by
  induction entries with
  | nil => simp [find?]
  | cons e rest ih => grind [find?]

theorem get?_erase (t : Table κ ν) (key k : κ) :
    (t.erase key).get? k = if key = k then none else t.get? k :=
  find?_filter key k t.entries

theorem find?_append (k : κ) (front back : List (κ × ν)) :
    find? k (front ++ back) = (find? k front).or (find? k back) := by
  induction front with
  | nil => simp [find?]
  | cons e rest ih => grind [find?]

theorem get?_insertLast (t : Table κ ν) (key k : κ) (value : ν) :
    (t.insertLast key value).get? k = if key = k then some value else t.get? k := by
  have h := find?_filter key k t.entries
  simp only [get?, insertLast, find?_append, h]
  split <;> simp_all [find?]

theorem mem_values_of_get? {t : Table κ ν} {key : κ} {value : ν} (h : t.get? key = some value) : value ∈ t.values := by
  have found {entries : List (κ × ν)} (h : find? key entries = some value) : value ∈ entries.map (·.2) := by
    induction entries with
    | nil => cases h
    | cons e rest ih => grind [find?]
  exact found h

theorem mem_keys_iff (t : Table κ ν) (key : κ) : key ∈ t.keys ↔ (t.get? key).isSome := by
  obtain ⟨entries, distinct⟩ := t
  simp only [keys, get?]
  clear distinct
  induction entries with
  | nil => simp [find?]
  | cons e rest ih => grind [find?]

end Table

end PulseSequencer
