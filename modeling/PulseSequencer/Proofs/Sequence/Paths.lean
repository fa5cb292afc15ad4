import PulseSequencer.Proofs.Sequence.Names
import PulseSequencer.Proofs.Slice.Path

/-!
This module contains that paths address the slices of a sequence one to one, whatever was done to it.
-/

namespace PulseSequencer.Sequence

variable {α : Type} [Scalar α]

open Slice SlicePath

/--
How paths lead to the slices of a sequence: the names on the way to a slice make up its path, and work on this path is
done to the slice at that position and to no other one; no other slice has the same path; and any further text leads
nowhere.
-/
structure OneToOne (q : Sequence α) : Prop where
  resolve : ∀ {position names s}, Located q.slices position names s → q.resolve (join names) = .ok s
  workAt : ∀ {position names s}, Located q.slices position names s →
    ∀ {ρ : Type} (work : Slice α → Outcome α (Slice α) ρ), (work s).state.name = s.name →
      q.workAt (join names) work
        = ⟨(work s).result, { q with slices := putAt (work s).state position q.slices }, (work s).events⟩
  injective : ∀ {position position' names names' s s'}, Located q.slices position names s →
    Located q.slices position' names' s' → join names = join names' → position = position'
  unknown : ∀ {path}, (∀ position names s, Located q.slices position names s → path ≠ join names) →
    ∃ name, q.resolve path = .error (.unknown .slice name)
      ∧ ∀ {ρ : Type} (work : Slice α → Outcome α (Slice α) ρ), q.workAt path work = .failed (.unknown .slice name) q

section

variable {q : Sequence α} {path top : String} {rest names names' : List String} {position position' : List Nat}
  {s s' : Slice α} {cause : Error α}

theorem addressable_of_made (made : q.Made) : Addressable q.slices := by
  apply addressable_subs (s := q.whole)
  apply made.naming ⟨nofun, .nil⟩ accepting_names
  rintro names names' thinner ⟨named, distinct⟩
  exact ⟨fun name mem => named name (thinner.subset mem), thinner.nodup distinct⟩

theorem resolve_cons (cut : SlicePath.names path = top :: rest) :
    q.resolve path = (q.slice top).bind (Slice.follow rest) := by
  unfold resolve
  rw [cut]
  rfl

theorem slice_of_find? (found : find? q.slices top = some s) : q.slice top = .ok s := by
  rw [slice, found]

theorem slice_of_missing (missing : find? q.slices top = none) : q.slice top = .error (.unknown .slice top) := by
  rw [slice, missing]

theorem resolve_eq_ok_iff : q.resolve path = .ok s ↔ Slice.follow (SlicePath.names path) q.whole = .ok s := by
  obtain ⟨top, rest, cut⟩ := List.exists_cons_of_ne_nil (names_ne_nil path)
  rw [resolve_cons cut, cut]
  simp only [Slice.follow, whole]
  cases found : find? q.slices top with
  | none =>
    rw [slice_of_missing found]
    constructor
    · intro resolved
      cases resolved
    · intro followed
      cases followed
  | some u =>
    rw [slice_of_find? found]
    exact Iff.rfl

theorem resolve_eq_error (missing : q.resolve path = .error cause) : ∃ name, cause = .unknown .slice name := by
  obtain ⟨top, rest, cut⟩ := List.exists_cons_of_ne_nil (names_ne_nil path)
  rw [resolve_cons cut] at missing
  cases found : find? q.slices top with
  | none =>
    rw [slice_of_missing found] at missing
    cases missing
    exact ⟨top, rfl⟩
  | some u =>
    rw [slice_of_find? found] at missing
    exact follow_eq_error missing

theorem resolve_join (addressable : Addressable q.slices) (located : Located q.slices position names s) :
    q.resolve (join names) = .ok s := by
  rw [resolve_eq_ok_iff, names_join located.ne_nil (located.plain addressable)]
  exact located.follow addressable

theorem exists_located (found : q.resolve path = .ok s) :
    ∃ position names, Located q.slices position names s ∧ path = join names := by
  obtain ⟨position, located⟩ := located_of_follow (names_ne_nil path) (resolve_eq_ok_iff.mp found)
  exact ⟨position, SlicePath.names path, located, (join_names path).symm⟩

theorem join_injective (addressable : Addressable q.slices) (located : Located q.slices position names s)
    (located' : Located q.slices position' names' s') (same : join names = join names') : position = position' := by
  have cut := congrArg SlicePath.names same
  rw [names_join located.ne_nil (located.plain addressable), names_join located'.ne_nil (located'.plain addressable)] at cut
  subst cut
  exact located.unique addressable located'

variable {ρ : Type} (work : Slice α → Outcome α (Slice α) ρ)

theorem workAt_cons (cut : SlicePath.names path = top :: rest) : q.workAt path work = q.workIn top rest work := by
  unfold Sequence.workAt
  simp only [cut]

theorem workIn_of_find? (found : find? q.slices top = some s) :
    q.workIn top rest work
      = (Slice.workAt work rest s).mapState fun s => { q with slices := replace s q.slices } := by
  rw [workIn, slice_of_find? found]

theorem workIn_of_missing (missing : find? q.slices top = none) :
    q.workIn top rest work = .failed (.unknown .slice top) q := by
  rw [workIn, slice_of_missing missing]

theorem workAt_join (addressable : Addressable q.slices) (located : Located q.slices position names s)
    (keeps : (work s).state.name = s.name) :
    q.workAt (join names) work
      = ⟨(work s).result, { q with slices := putAt (work s).state position q.slices }, (work s).events⟩ := by
  have cut := names_join located.ne_nil (located.plain addressable)
  have done := located.workAt (s := q.whole) addressable keeps
  have found := located.follow (s := q.whole) addressable
  obtain ⟨top, rest, rfl⟩ := List.exists_cons_of_ne_nil located.ne_nil
  rw [workAt_cons work cut]
  simp only [Slice.workAt, Slice.follow, whole] at done found
  cases here : find? q.slices top with
  | none =>
    rw [here] at found
    cases found
  | some u =>
    rw [here] at done
    rw [workIn_of_find? work here]
    exact congrArg (fun o => o.mapState fun whole => { q with slices := whole.subs }) done

theorem workAt_of_error (addressable : Addressable q.slices) (missing : q.resolve path = .error cause) :
    q.workAt path work = .failed cause q := by
  obtain ⟨top, rest, cut⟩ := List.exists_cons_of_ne_nil (names_ne_nil path)
  rw [resolve_cons cut] at missing
  rw [workAt_cons work cut]
  cases found : find? q.slices top with
  | none =>
    rw [slice_of_missing found] at missing
    cases missing
    exact workIn_of_missing work found
  | some u =>
    rw [slice_of_find? found] at missing
    have mem := mem_of_find? found
    obtain ⟨i, stands⟩ := List.getElem?_of_mem mem
    rw [workIn_of_find? work found, Slice.workAt_of_error (addressable_subs (addressable.below u mem)) missing work]
    have same := replace_self addressable.distinct stands
    exact congrArg (fun slices => Outcome.failed cause { q with slices := slices }) same

end

/--
However a sequence came about, its slices and their paths correspond one to one.
-/
theorem oneToOne_of_made {q : Sequence α} (made : q.Made) : q.OneToOne := by
  have addressable := addressable_of_made made
  refine ⟨resolve_join addressable, ?_, join_injective addressable, ?_⟩
  · intro position names s located ρ work keeps
    exact workAt_join work addressable located keeps
  · intro path elsewhere
    cases outcome : q.resolve path with
    | ok s =>
      obtain ⟨position, names, located, same⟩ := exists_located outcome
      exact absurd same (elsewhere position names s located)
    | error cause =>
      obtain ⟨name, rfl⟩ := resolve_eq_error outcome
      exact ⟨name, rfl, fun work => workAt_of_error work addressable outcome⟩

def nestedPulse : Sequence Float :=
  let drive := (Slice.workAt ((Slice.Command.nest (.flex "pi")).perform ·) [] (.flex "drive")).state
  ((create .memory 1.0).perform (.addSlice drive)).perform (.atSlice "drive" ["pi"] (.nest (.flex "edge")))

theorem made_nestedPulse : nestedPulse.Made := by
  refine .perform (.atSlice "drive" ["pi"] (.nest (.flex "edge"))) ?_ (.ofKind "edge" .flex)
  refine .perform (.addSlice _) (.create .memory 1.0) ?_
  refine .perform [] (.nest (.flex "pi")) (.ofKind "drive" .flex) ?_
  rintro child ⟨⟩
  exact .ofKind "pi" .flex

theorem oneToOne_nestedPulse :
    nestedPulse.Made ∧ (nestedPulse.resolve "drive/pi/edge").isOk = true
      ∧ (nestedPulse.resolve "drive//edge").isOk = false ∧ nestedPulse.OneToOne := by
  refine ⟨made_nestedPulse, ?_, ?_, oneToOne_of_made made_nestedPulse⟩
  · decide +kernel
  · decide +kernel

end PulseSequencer.Sequence
