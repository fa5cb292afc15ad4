import PulseSequencer.Proofs.Slice.Alongside
import PulseSequencer.Proofs.Slice.Repetition

/-!
This module contains that flattening some slice of a tree hides no change from the owner of any slice, whether it succeeds or
fails.
-/

namespace PulseSequencer.Slice

variable {α : Type} [Scalar α]

open Scalar

section Owners

variable {s t sub sub' : Slice α} {name : String} {registry : Registry α}

theorem alike_replace (distinct : DistinctHere s) (found : find? s.subs name = some sub) (alike : Alike sub sub') :
    Alike s { s with subs := replace sub' s.subs } := by
  have named : sub'.name = sub.name := name_eq_of_renew_eq alike.renew
  have below : List.Forall₂ Alike s.subs (replace sub' s.subs) :=
    forall₂_replace distinct (mem_of_find? found) named .refl alike
  have same : renew { s with subs := replace sub' s.subs } = s.renew := by
    refine renew_congr rfl ?_
    symm
    exact map_eq_map_of_forall₂ (below.imp fun _ _ alike => alike.renew.symm)
  refine ⟨same, ?_⟩
  ext ch
  rw [mem_changed, mem_changed, mem_updated_of_alike same rfl below, mem_updated]

theorem alike_workAt {ρ : Type} {work : Slice α → Outcome α (Slice α) ρ} (path : List String) (distinct : s.Distinct)
    (target : ∀ t, t.Distinct → Alike t (work t).state) : Alike s (workAt work path s).state := by
  refine workAt_induct (P := fun t t' => t.Distinct → Alike t t') (fun t _ => .refl t) ?_ path s
    (fun t _ => target t) distinct
  intro t sub sub' name found below distinct
  exact alike_replace distinct.here found (below (distinct.of_mem (mem_of_find? found)))

theorem alike_flatten [SelfNear α] (registry : Registry α) (distinct : s.Distinct) :
    Alike s (s.flatten registry).state :=
  ⟨renew_flatten registry s, changed_flatten registry distinct⟩

theorem everywhere_not_stale (fresh : s.isStale = false) : s.Everywhere fun t => t.isStale = false := by
  induction s using induct with
  | node content memo subs ih =>
    refine .node fresh fun t mem => ?_
    exact ih t mem ((isStale_eq_false_iff.mp fresh).2.2 t mem).2.2

end Owners

/--
A tree before and after the slice at the end of a path was flattened.
-/
structure Disclosed (path : List String) (s : Slice α) (o : Outcome α (Slice α) Unit) : Prop where
  reported : ∀ above below u, path = above ++ below → follow above s = .ok u →
    ∃ u', follow above o.state = .ok u' ∧ u'.changed = u.changed
  kept : Alongside (fun u u' => u'.channels = u.channels ∧ u'.duration = u.duration) s o.state
  failure : ∀ cause t, o.result = .error cause → follow path s = .ok t →
    ∃ t', follow path o.state = .ok t' ∧ t'.updated = t.updated ∧ t'.flattened = t.flattened
  success : ∀ t, o.result = .ok () → follow path s = .ok t →
    ∃ t', follow path o.state = .ok t' ∧ t'.updated = ∅ ∧ t'.Everywhere fun u => u.isStale = false

variable {s t : Slice α} {path : List String}

theorem updated_of_error [SelfNear α] {registry : Registry α} {cause : Error α} (distinct : s.Distinct)
    (failed : (s.flatten registry).result = .error cause) :
    (s.flatten registry).state.updated = s.updated ∧ (s.flatten registry).state.flattened = s.flattened := by
  have state := flatten_of_error failed
  refine ⟨updated_of_failure (fun t mem => changed_flatten registry (distinct.of_mem mem)) state, ?_⟩
  rw [state]
  rfl

theorem updated_of_ok [SelfNear α] {registry : Registry α} (distinct : s.Distinct)
    (ok : (s.flatten registry).result = .ok ()) : (s.flatten registry).state.updated = ∅ := by
  ext ch
  exact iff_of_false (not_mem_updated_of_flatten_ok distinct ok ch) (ChannelSet.not_mem_empty ch)

/--
Flattening a slice hides no change from the owner of any slice. A failure leaves what the slice itself has to rebuild.
-/
theorem flatten_discloses [SelfNear α] (made : s.Made) (found : follow path s = .ok t) (registry : Registry α) :
    Disclosed path s (workAt (flatten registry ·) path s) := by
  have distinct := distinct_of_made made
  have here (u : Slice α) (followed : follow path s = .ok u) :
      u = t ∧ u.Distinct ∧ follow path (workAt (flatten registry ·) path s).state = .ok (u.flatten registry).state :=
    ⟨Except.ok.inj (followed.symm.trans found), distinct.follow followed,
      follow_workAt_end (name_flatten registry) followed⟩
  have result : (workAt (flatten registry ·) path s).result = (t.flatten registry).result := result_workAt found
  refine ⟨?_, ?_, ?_, ?_⟩
  · rintro above below u rfl followed
    refine ⟨_, follow_workAt (name_flatten registry) followed, ?_⟩
    exact (alike_workAt below (distinct.follow followed) fun v apart => alike_flatten registry apart).changed
  · have alike := alike_workAt path distinct fun v apart => alike_flatten registry apart
    refine (alongside_of_renew_eq alike.renew).imp fun u u' same => ?_
    exact ⟨channels_eq_of_renew_eq same, duration_eq_of_renew_eq same⟩
  · intro cause u failed followed
    obtain ⟨rfl, apart, reached⟩ := here u followed
    exact ⟨_, reached, updated_of_error apart (result.symm.trans failed)⟩
  · intro u ok followed
    obtain ⟨rfl, apart, reached⟩ := here u followed
    have ok := result.symm.trans ok
    exact ⟨_, reached, updated_of_ok apart ok, everywhere_not_stale (not_stale_of_flatten_ok apart ok)⟩

def crowded : Slice Float :=
  let fitting := (Command.perform (ofKind "fitting" .flex) (.edit ⟨0⟩ (.addWaveform (.dc 1.0 0.5 0.0)))).state
  let bursting := (Command.perform (ofKind "bursting" (.fixedLength 1.0)) (.edit ⟨1⟩ (.addWaveform (.dc 2.0 0.5 0.0)))).state
  let middle := (Command.perform (Command.perform (ofKind "middle" .flex) (.nest fitting)).state (.nest bursting)).state
  (Command.perform (ofKind "outer" .flex) (.nest middle)).state

theorem flatten_crowded_discloses :
    crowded.Made
      ∧ (∃ t, follow ["middle"] crowded = .ok t ∧ (t.flatten .empty).result.isOk = false
        ∧ Disclosed ["middle"] crowded (workAt (flatten .empty ·) ["middle"] crowded))
      ∧ ∃ t, follow ["middle", "fitting"] crowded = .ok t ∧ (t.flatten .empty).result.isOk = true
        ∧ Disclosed ["middle", "fitting"] crowded (workAt (flatten .empty ·) ["middle", "fitting"] crowded) := by
  have made : crowded.Made := by
    have empty (name : String) (kind : SliceKind Float) : (ofKind name kind).Made := .ofKind name kind
    have fitting := (empty "fitting" .flex).perform [] (.edit ⟨0⟩ (.addWaveform (.dc 1.0 0.5 0.0))) nofun
    have bursting := (empty "bursting" (.fixedLength 1.0)).perform [] (.edit ⟨1⟩ (.addWaveform (.dc 2.0 0.5 0.0))) nofun
    have middle := ((empty "middle" .flex).perform [] (.nest _) fun child same => by
      cases same
      exact fitting).perform [] (.nest _) fun child same => by
        cases same
        exact bursting
    exact (empty "outer" .flex).perform [] (.nest _) fun child same => by
      cases same
      exact middle
  refine ⟨made, ⟨_, rfl, by decide +kernel, ?_⟩, ⟨_, rfl, by decide +kernel, ?_⟩⟩
  · exact flatten_discloses made rfl .empty
  · exact flatten_discloses made rfl .empty

end PulseSequencer.Slice
