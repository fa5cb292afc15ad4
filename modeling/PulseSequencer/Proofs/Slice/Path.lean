import PulseSequencer.Proofs.Slice.Names

/-!
This module contains how names lead to slices. No name of a slice has a slash in it, so a path is cut into the names that
it was joined from, and sub slices have distinct names, so each of them is found where it stands.
-/

namespace PulseSequencer

theorem Text.slash_not_mem_of_isName {name : String} (named : Text.isName name = true) : '/' ∉ name.toList := by
  unfold Text.isName at named
  cases letters : name.toList with
  | nil => exact List.not_mem_nil
  | cons c rest =>
    simp only [letters, Bool.and_eq_true, List.all_eq_true] at named
    intro slash
    rcases List.mem_cons.mp slash with rfl | slash
    · exact absurd named.1 (by decide)
    · exact absurd (named.2 '/' slash) (by decide)

namespace SlicePath

theorem split_eq_splitOn (path : List Char) : split path = path.splitOn '/' := by
  induction path with
  | nil => rfl
  | cons c rest ih =>
    rw [split, ih, List.splitOn_cons_eq_if_modifyHead]
    by_cases slash : c = '/'
    · simp [slash]
    · simp only [slash, beq_iff_eq, if_false]
      cases pieces : rest.splitOn '/' with
      | nil => exact absurd pieces (List.splitOn_ne_nil '/' rest)
      | cons piece pieces => rfl

theorem names_ne_nil (path : String) : names path ≠ [] := by
  rw [names, split_eq_splitOn, ne_eq, List.map_eq_nil_iff]
  exact List.splitOn_ne_nil '/' path.toList

theorem toList_join (ns : List String) : (join ns).toList = ['/'].intercalate (ns.map String.toList) := by
  unfold join
  rw [String.toList_intercalate]
  rfl

theorem join_names (path : String) : join (names path) = path := by
  apply String.toList_injective
  rw [toList_join, names, List.map_map, split_eq_splitOn]
  simp [Function.comp_def, List.intercalate_splitOn]

theorem names_join {ns : List String} (some : ns ≠ []) (plain : ∀ n ∈ ns, '/' ∉ n.toList) : names (join ns) = ns := by
  rw [names, split_eq_splitOn, toList_join, List.splitOn_intercalate]
  · simp [Function.comp_def]
  · simpa using plain
  · simpa using some

end SlicePath

namespace Slice

variable {α : Type} [Scalar α]

/--
The slice at a position, and the names that lead to it. A position tells for each level how many slices stand before the
one that is meant or that has it below it.
-/
inductive Located : List (Slice α) → List Nat → List String → Slice α → Prop
  | stands {slices : List (Slice α)} {i : Nat} {s : Slice α} : slices[i]? = some s → Located slices [i] [s.name] s
  | deeper {slices : List (Slice α)} {i : Nat} {s t : Slice α} {position : List Nat} {names : List String} :
    slices[i]? = some s → Located s.subs position names t → Located slices (i :: position) (s.name :: names) t

def putAt (new : Slice α) : List Nat → List (Slice α) → List (Slice α)
  | [], slices => slices
  | [i], slices => slices.set i new
  | i :: position, slices => slices.modify i fun s => { s with subs := putAt new position s.subs }

/--
Slices with distinct names that paths can address, and so are all those below them.
-/
structure Addressable (slices : List (Slice α)) : Prop where
  named : ∀ s ∈ slices, Text.isName s.name = true
  distinct : (slices.map Slice.name).Nodup
  below : ∀ s ∈ slices, s.Naming (fun names => (∀ name ∈ names, Text.isName name = true) ∧ names.Nodup)

theorem accepting_names : Accepting fun names => (∀ name ∈ names, Text.isName name = true) ∧ names.Nodup := by
  rintro names name ⟨named, distinct⟩ accepted free
  refine ⟨?_, accepting_nodup names name distinct accepted free⟩
  rw [List.forall_mem_append]
  exact ⟨named, by simpa using accepted⟩

theorem addressable_subs {s : Slice α}
    (naming : s.Naming fun names => (∀ name ∈ names, Text.isName name = true) ∧ names.Nodup) : Addressable s.subs := by
  obtain ⟨named, distinct⟩ := naming.here
  refine ⟨?_, distinct, fun t below => naming.of_mem below⟩
  intro t below
  exact named t.name (List.mem_map_of_mem below)

section

variable {slices : List (Slice α)} {i j : Nat} {s t : Slice α}

theorem index_unique (distinct : (slices.map Slice.name).Nodup) (first : slices[i]? = some s)
    (second : slices[j]? = some t) (same : s.name = t.name) : i = j := by
  have bound : i < (slices.map Slice.name).length := by
    rw [List.length_map]
    exact (List.getElem?_eq_some_iff.mp first).1
  apply (List.getElem?_inj bound distinct).mp
  rw [List.getElem?_map, List.getElem?_map, first, second, Option.map_some, Option.map_some, same]

theorem replace_eq_set (distinct : (slices.map Slice.name).Nodup) (stands : slices[i]? = some s)
    (name : t.name = s.name) : replace t slices = slices.set i t := by
  apply List.ext_getElem?
  intro j
  rw [replace, List.getElem?_map, List.getElem?_set]
  split
  · rename_i same
    subst same
    have bound := (List.getElem?_eq_some_iff.mp stands).1
    rw [stands, Option.map_some, if_pos (by simp [name]), if_pos bound]
  · rename_i other
    cases there : slices[j]? with
    | none => rfl
    | some u =>
      have different : u.name ≠ t.name := fun same => other (index_unique distinct stands there (name ▸ same.symm))
      simp [different]

theorem replace_self (distinct : (slices.map Slice.name).Nodup) (stands : slices[i]? = some s) :
    replace s slices = slices := by
  obtain ⟨bound, rfl⟩ := List.getElem?_eq_some_iff.mp stands
  rw [replace_eq_set distinct stands rfl]
  exact List.set_getElem_self bound

theorem putAt_cons {position : List Nat} (some : position ≠ []) (stands : slices[i]? = .some s) :
    putAt t (i :: position) slices = slices.set i { s with subs := putAt t position s.subs } := by
  rw [putAt]
  · rw [List.modify_eq_set_getElem?, stands]
    rfl
  · exact some

end

namespace Located

variable {slices : List (Slice α)} {position position' : List Nat} {names : List String} {s t t' : Slice α}

theorem ne_nil (located : Located slices position names t) : names ≠ [] := by
  cases located <;> simp

theorem position_ne_nil (located : Located slices position names t) : position ≠ [] := by
  cases located <;> simp

theorem plain (located : Located slices position names t) (addressable : Addressable slices) :
    ∀ name ∈ names, '/' ∉ name.toList := by
  induction located with
  | stands here =>
    have named := addressable.named _ (List.mem_of_getElem? here)
    simpa using Text.slash_not_mem_of_isName named
  | deeper here _ ih =>
    have mem := List.mem_of_getElem? here
    rw [List.forall_mem_cons]
    refine ⟨Text.slash_not_mem_of_isName (addressable.named _ mem), ?_⟩
    exact ih (addressable_subs (addressable.below _ mem))

theorem unique (addressable : Addressable slices) (located : Located slices position names t)
    (located' : Located slices position' names t') : position = position' := by
  induction located generalizing position' with
  | @stands slices i s here =>
    generalize path : [s.name] = names at located'
    cases located' with
    | stands here' =>
      injection path with same
      rw [index_unique addressable.distinct here here' same]
    | deeper _ below =>
      injection path with _ nothing
      exact absurd nothing.symm below.ne_nil
  | @deeper slices i s t position names here below ih =>
    generalize path : s.name :: names = names' at located'
    cases located' with
    | stands _ =>
      injection path with _ nothing
      exact absurd nothing below.ne_nil
    | deeper here' below' =>
      injection path with same rest
      obtain rfl := index_unique addressable.distinct here here' same
      obtain rfl := Option.some_inj.mp (here.symm.trans here')
      subst rest
      rw [ih (addressable_subs (addressable.below _ (List.mem_of_getElem? here))) below']

end Located

section

variable {s t : Slice α} {position : List Nat} {names : List String} {cause : Error α}

theorem Located.follow (addressable : Addressable s.subs) (located : Located s.subs position names t) :
    Slice.follow names s = .ok t := by
  generalize below : s.subs = slices at addressable located
  induction located generalizing s with
  | @stands slices i u here =>
    have found := find?_of_mem addressable.distinct (List.mem_of_getElem? here)
    simp only [Slice.follow, below, found]
  | @deeper slices i u v position names here _ ih =>
    have mem := List.mem_of_getElem? here
    have found := find?_of_mem addressable.distinct mem
    simp only [Slice.follow, below, found]
    exact ih rfl (addressable_subs (addressable.below u mem))

theorem located_of_follow (some : names ≠ []) (found : Slice.follow names s = .ok t) :
    ∃ position, Located s.subs position names t := by
  induction names generalizing s with
  | nil => exact absurd rfl some
  | cons name rest ih =>
    simp only [Slice.follow] at found
    split at found
    · cases found
    · rename_i sub here
      have same : sub.name = name := by simpa using List.find?_some here
      subst same
      obtain ⟨i, stands⟩ := List.getElem?_of_mem (mem_of_find? here)
      cases rest with
      | nil =>
        cases found
        exact ⟨[i], .stands stands⟩
      | cons next rest =>
        obtain ⟨position, located⟩ := ih (List.cons_ne_nil next rest) found
        exact ⟨i :: position, .deeper stands located⟩

theorem follow_eq_error (missing : Slice.follow names s = .error cause) : ∃ name, cause = .unknown .slice name := by
  induction names generalizing s with
  | nil => cases missing
  | cons name rest ih =>
    simp only [Slice.follow] at missing
    split at missing
    · cases missing
      exact ⟨s.name ++ "/" ++ name, rfl⟩
    · exact ih missing

theorem Located.workAt {ρ : Type} {work : Slice α → Outcome α (Slice α) ρ} (addressable : Addressable s.subs)
    (located : Located s.subs position names t) (keeps : (work t).state.name = t.name) :
    Slice.workAt work names s
      = ⟨(work t).result, { s with subs := putAt (work t).state position s.subs }, (work t).events⟩ := by
  generalize below : s.subs = slices at addressable located
  induction located generalizing s with
  | @stands slices i u here =>
    have found := find?_of_mem addressable.distinct (List.mem_of_getElem? here)
    simp only [Slice.workAt, below, found, Outcome.mapState]
    rw [replace_eq_set addressable.distinct here keeps, putAt]
  | @deeper slices i u v position names here located ih =>
    have mem := List.mem_of_getElem? here
    have found := find?_of_mem addressable.distinct mem
    have deeper := ih keeps rfl (addressable_subs (addressable.below u mem))
    simp only [Slice.workAt, below, found, deeper, Outcome.mapState]
    rw [putAt_cons located.position_ne_nil here]
    rw [replace_eq_set addressable.distinct here (t := { u with subs := putAt (work v).state position u.subs }) rfl]

theorem workAt_of_error {ρ : Type} (addressable : Addressable s.subs) (missing : Slice.follow names s = .error cause)
    (work : Slice α → Outcome α (Slice α) ρ) : Slice.workAt work names s = .failed cause s := by
  induction names generalizing s with
  | nil => cases missing
  | cons name rest ih =>
    simp only [Slice.follow] at missing
    simp only [Slice.workAt]
    split at missing
    · cases missing
      rfl
    · rename_i sub here
      have mem := mem_of_find? here
      obtain ⟨i, stands⟩ := List.getElem?_of_mem mem
      have same : { s with subs := replace sub s.subs } = s := by
        obtain ⟨content, memo, subs⟩ := s
        exact congrArg (Slice.mk content memo) (replace_self addressable.distinct stands)
      rw [ih (addressable_subs (addressable.below sub mem)) missing]
      exact congrArg (Outcome.failed cause) same

theorem allOrNothing_workAt {ρ : Type} {work : Slice α → Outcome α (Slice α) ρ}
    (each : ∀ u, (work u).AllOrNothing u) (addressable : Addressable s.subs) (names : List String) :
    (Slice.workAt work names s).AllOrNothing s := by
  induction names generalizing s with
  | nil => exact each s
  | cons name rest ih =>
    simp only [Slice.workAt]
    split
    · exact ⟨fun _ _ => rfl, rfl⟩
    · rename_i sub here
      have mem := mem_of_find? here
      obtain ⟨i, stands⟩ := List.getElem?_of_mem mem
      have below := ih (addressable_subs (addressable.below sub mem))
      refine ⟨fun cause refused => ?_, below.silent⟩
      have same := below.unchanged cause refused
      obtain ⟨content, memo, subs⟩ := s
      simp only [Outcome.mapState, same]
      exact congrArg (Slice.mk content memo) (replace_self addressable.distinct stands)

end

end Slice

end PulseSequencer
