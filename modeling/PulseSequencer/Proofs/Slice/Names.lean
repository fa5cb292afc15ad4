import PulseSequencer.Proofs.Slice.Run

/-!
This module contains that sub slices of one slice have distinct names by which paths can address them, at any depth and
whatever was done to the slices: edits, flattening at the wrong moment, and notice taken of changes by others than the owner.
-/

namespace PulseSequencer.Slice

variable {α : Type} [Scalar α]

def Naming (P : List String → Prop) : Slice α → Prop := Everywhere fun s => P (s.subs.map Slice.name)

def Accepting (P : List String → Prop) : Prop :=
  ∀ names name, P names → Text.isName name = true → name ∉ names → P (names ++ [name])

def DistinctHere (s : Slice α) : Prop := (s.subs.map Slice.name).Nodup

def Distinct : Slice α → Prop := Everywhere DistinctHere

inductive Made : Slice α → Prop
  | ofKind (name : String) (kind : SliceKind α) : Made (.ofKind name kind)
  | perform {s : Slice α} (path : List String) (command : Command α) : Made s →
    (∀ child, command = .nest child → Made child) → Made (workAt (command.perform ·) path s).state
  | acknowledge {s : Slice α} (path : List String) : Made s →
    Made (workAt (fun t => Outcome.done () t.acknowledge) path s).state

variable {P : List String → Prop} {s t : Slice α}

omit [Scalar α] in
theorem isName_of_checkName {kind : NameKind} {name : String} (h : checkName (α := α) kind name = .ok ()) :
    Text.isName name = true := by
  unfold checkName at h
  split at h
  · assumption
  · cases h

theorem isName_of_checkSub {child : Slice α} (h : checkSub s child = .ok ()) : Text.isName child.name = true := by
  obtain ⟨_, named, _⟩ := bind_eq_ok_iff.mp h
  exact isName_of_checkName named

namespace Naming

theorem congr (naming : s.Naming P) (same : s.renew = t.renew) : t.Naming P := by
  induction s using induct generalizing t with
  | node content memo subs ih =>
    refine .node ?_ ?_
    · rw [← names_eq_of_renew_eq same]
      exact naming.here
    · intro u mem
      have renewed : u.renew ∈ subs.map renew := subs_eq_of_renew_eq same ▸ List.mem_map_of_mem mem
      obtain ⟨sub, found, same⟩ := List.mem_map.mp renewed
      exact ih sub found (naming.of_mem found) same

theorem apply (naming : s.Naming P) (ch : ChannelId) (change : Edit α) : (change.apply ch s).Naming P := by
  apply Everywhere.apply naming
  rw [subs_apply]
  exact naming.here

theorem nest {child whole : Slice α} (accepting : Accepting P) (naming : s.Naming P) (below : child.Naming P)
    (h : s.addSub child = .ok whole) : whole.Naming P := by
  apply Everywhere.nest naming below h
  obtain ⟨accepted, rfl⟩ := addSub_eq_ok_iff.mp h
  rw [List.map_append]
  apply accepting _ _ naming.here
  · exact isName_of_checkSub accepted
  · exact name_free_of_checkSub accepted

theorem perform {command : Command α} (accepting : Accepting P) (naming : s.Naming P)
    (below : ∀ child, command = .nest child → child.Naming P) : (command.perform s).state.Naming P := by
  cases command with
  | edit ch change => exact naming.apply ch change
  | nest child =>
    simp only [Command.perform]
    cases h : s.addSub child with
    | error cause => exact naming
    | ok whole => exact naming.nest accepting (below child rfl) h
  | flatten registry => exact naming.congr (renew_flatten registry s).symm
  | getWaveform registry ch =>
    rw [state_perform_getWaveform]
    exact naming.congr (renew_flatten registry s).symm

theorem workAt {ρ : Type} {work : Slice α → Outcome α (Slice α) ρ} {path : List String} (naming : s.Naming P)
    (target : ∀ t, t.Naming P → (work t).state.Naming P) : (Slice.workAt work path s).state.Naming P := by
  refine Everywhere.workAt naming ?_ target
  intro t sub here
  rw [map_name_replace]
  exact here

end Naming

theorem naming_of_made (none : P []) (accepting : Accepting P) (made : s.Made) : s.Naming P := by
  induction made with
  | ofKind name kind => exact .node none nofun
  | perform path command _ _ ih below => exact ih.workAt fun t naming => naming.perform accepting below
  | acknowledge path _ ih => exact ih.workAt fun t naming => naming.congr (renew_acknowledge t).symm

theorem accepting_nodup : Accepting List.Nodup := by
  intro names name distinct _ free
  exact List.nodup_append.mpr ⟨distinct, by simp, by grind⟩

theorem Distinct.congr (distinct : s.Distinct) (same : s.renew = t.renew) : t.Distinct :=
  Naming.congr distinct same

theorem distinct_ofKind (name : String) (kind : SliceKind α) : (ofKind name kind).Distinct :=
  .node .nil nofun

theorem Distinct.perform {command : Command α} (distinct : s.Distinct)
    (below : ∀ child, command = .nest child → child.Distinct) : (command.perform s).state.Distinct :=
  Naming.perform accepting_nodup distinct below

theorem Distinct.acknowledge (distinct : s.Distinct) : s.acknowledge.Distinct :=
  distinct.congr (renew_acknowledge s).symm

theorem Distinct.workAt {ρ : Type} {work : Slice α → Outcome α (Slice α) ρ} {path : List String}
    (distinct : s.Distinct) (target : ∀ t, t.Distinct → (work t).state.Distinct) :
    (Slice.workAt work path s).state.Distinct :=
  Naming.workAt distinct target

theorem distinct_of_made (made : s.Made) : s.Distinct :=
  naming_of_made .nil accepting_nodup made

end PulseSequencer.Slice
