import PulseSequencer.Proofs.Sequence.Compilation
import PulseSequencer.Proofs.Sequence.Run
import PulseSequencer.Proofs.Slice.Names

/-!
This module contains the sequences that can come about in any way at all, and that their slices and channels have distinct
names.
-/

namespace PulseSequencer.Sequence

variable {α : Type} [Scalar α]

open Slice

def Command.Supplied : Command α → Prop
  | .addSlice s => s.Made
  | .atSlice _ _ (.nest child) => child.Made
  | _ => True

/--
The sequences that can come about whatever commands are given, and in whatever states. Slices may take notice of changes
at any time, and not only when their owner does.
-/
inductive Made : Sequence α → Prop
  | create (driver : Driver) (cycleFrequency : α) : Made (.create driver cycleFrequency)
  | perform {q : Sequence α} (command : Command α) : Made q → command.Supplied → Made (q.perform command)
  | acknowledge {q : Sequence α} (top : String) (rest : List String) : Made q →
    Made (q.workIn top rest fun s => Outcome.done () s.acknowledge).state

def whole (q : Sequence α) : Slice α := ⟨⟨"", .flex, ∅, ∅⟩, .empty, q.slices⟩

structure Distinct (q : Sequence α) : Prop where
  slices : ∀ s ∈ q.slices, s.Distinct
  sliceNames : (q.slices.map Slice.name).Nodup
  channelNames : q.registry.channelNames.Nodup

section Naming

variable {P : List String → Prop} {q q' : Sequence α}

theorem whole_workIn {ρ : Type} (work : Slice α → Outcome α (Slice α) ρ) (top : String) (rest : List String) :
    (q.workIn top rest work).state.whole = (Slice.workAt work (top :: rest) q.whole).state := by
  unfold Sequence.workIn slice
  simp only [Slice.workAt, whole]
  cases find? q.slices top with
  | none => rfl
  | some s => rfl

theorem naming_congr (naming : q.whole.Naming P)
    (slices : q'.slices.map Slice.renew = q.slices.map Slice.renew) : q'.whole.Naming P :=
  naming.congr (renew_congr rfl slices.symm)

theorem naming_addSlice {s : Slice α} (accepting : Accepting P) (naming : q.whole.Naming P) (below : s.Naming P)
    (h : q.addSlice s = .ok q') : q'.whole.Naming P := by
  obtain ⟨_, named, _⟩ := bind_eq_ok_iff.mp h
  obtain ⟨free, rfl⟩ := addSlice_eq_ok h
  refine .node ?_ ?_
  · unfold whole
    rw [List.map_append]
    exact accepting _ _ naming.here (isName_of_checkName named) free
  · intro t mem
    rcases List.mem_append.mp mem with mem | mem
    · exact naming.of_mem mem
    · rw [List.mem_singleton.mp mem]
      exact below

theorem naming_dropSlice (thinning : ∀ names names', names'.Sublist names → P names → P names')
    (naming : q.whole.Naming P) (name : String) : (q.dropSlice name).1.whole.Naming P := by
  refine .node ?_ ?_
  · exact thinning _ _ (List.filter_sublist.map Slice.name) naming.here
  · intro s mem
    exact naming.of_mem (List.mem_of_mem_filter mem)

theorem naming_workIn {ρ : Type} {work : Slice α → Outcome α (Slice α) ρ} {top : String} {rest : List String}
    (naming : q.whole.Naming P) (target : ∀ t, t.Naming P → (work t).state.Naming P) :
    (q.workIn top rest work).state.whole.Naming P := by
  rw [whole_workIn]
  exact naming.workAt target

theorem naming_perform {command : Command α} (none : P []) (accepting : Accepting P)
    (thinning : ∀ names names', names'.Sublist names → P names → P names') (naming : q.whole.Naming P)
    (supplied : command.Supplied) : (q.perform command).whole.Naming P := by
  rcases perform_cases q command with
    kept | ⟨s, rfl, added⟩ | ⟨name, rfl⟩ | ⟨top, rest, command, rfl⟩ | rfl
  · apply naming_congr naming
    rw [kept.slices]
  · exact naming_addSlice accepting naming (naming_of_made none accepting supplied) added
  · exact naming_dropSlice thinning naming name
  · apply naming_workIn naming
    intro t below
    apply below.perform accepting
    rintro child rfl
    exact naming_of_made none accepting supplied
  · exact naming_congr naming (map_renew_compile q)

theorem Made.naming (made : q.Made) (none : P []) (accepting : Accepting P)
    (thinning : ∀ names names', names'.Sublist names → P names → P names') : q.whole.Naming P := by
  induction made with
  | create driver cycleFrequency => exact .node none nofun
  | perform command _ supplied ih => exact naming_perform none accepting thinning ih supplied
  | acknowledge top rest _ ih =>
    apply naming_workIn ih
    exact fun t naming => naming.congr (renew_acknowledge t).symm

end Naming

section Distinct

variable {q q' : Sequence α}

theorem registry_workIn {ρ : Type} (work : Slice α → Outcome α (Slice α) ρ) (top : String) (rest : List String) :
    (q.workIn top rest work).state.registry = q.registry := by
  unfold Sequence.workIn
  cases q.slice top with
  | error cause => rfl
  | ok s => rfl

theorem extends_perform (q : Sequence α) (command : Command α) :
    Registry.Extends q.registry (q.perform command).registry := by
  rcases perform_cases q command with
    kept | ⟨s, rfl, added⟩ | ⟨name, rfl⟩ | ⟨top, rest, command, rfl⟩ | rfl
  · exact kept.registry
  · obtain ⟨_, state⟩ := addSlice_eq_ok added
    rw [state]
    exact .refl q.registry
  · exact .refl q.registry
  · apply Registry.Extends.of_channelNames_eq
    exact congrArg Registry.channelNames (registry_workIn ..)
  · apply Registry.Extends.of_channelNames_eq
    exact congrArg Registry.channelNames (registry_compile q)

theorem distinct_iff : q.Distinct ↔ q.whole.Naming List.Nodup ∧ q.registry.channelNames.Nodup := by
  constructor
  · exact fun distinct => ⟨.node distinct.sliceNames distinct.slices, distinct.channelNames⟩
  · exact fun ⟨naming, channels⟩ => ⟨fun _ mem => naming.of_mem mem, naming.here, channels⟩

theorem distinct_create (driver : Driver) (cycleFrequency : α) : (create driver cycleFrequency).Distinct :=
  ⟨nofun, .nil, .nil⟩

theorem Distinct.congr (distinct : q.Distinct) (slices : q'.slices.map Slice.renew = q.slices.map Slice.renew)
    (registry : Registry.Extends q.registry q'.registry) : q'.Distinct := by
  rw [distinct_iff] at distinct ⊢
  exact ⟨naming_congr distinct.1 slices, registry.distinct distinct.2⟩

theorem Distinct.addSlice {s : Slice α} (distinct : q.Distinct) (below : s.Distinct) (h : q.addSlice s = .ok q') :
    q'.Distinct := by
  have naming := naming_addSlice accepting_nodup (distinct_iff.mp distinct).1 below h
  obtain ⟨_, rfl⟩ := addSlice_eq_ok h
  exact distinct_iff.mpr ⟨naming, distinct.channelNames⟩

theorem Distinct.workIn {ρ : Type} {work : Slice α → Outcome α (Slice α) ρ} {top : String} {rest : List String}
    (distinct : q.Distinct) (target : ∀ t, t.Distinct → (work t).state.Distinct) :
    (q.workIn top rest work).state.Distinct := by
  rw [distinct_iff] at distinct ⊢
  refine ⟨naming_workIn distinct.1 target, ?_⟩
  rw [registry_workIn]
  exact distinct.2

theorem Distinct.perform {command : Command α} (distinct : q.Distinct) (supplied : command.Supplied) :
    (q.perform command).Distinct := by
  rw [distinct_iff] at distinct ⊢
  refine ⟨?_, (extends_perform q command).distinct distinct.2⟩
  exact naming_perform .nil accepting_nodup (fun _ _ thinner distinct => thinner.nodup distinct) distinct.1 supplied

theorem distinct_of_made (made : q.Made) : q.Distinct := by
  induction made with
  | create driver cycleFrequency => exact distinct_create driver cycleFrequency
  | perform command _ supplied ih => exact ih.perform supplied
  | acknowledge top rest _ ih => exact ih.workIn fun t distinct => distinct.acknowledge

end Distinct

theorem made_onePulse : onePulse.Made := by
  refine .perform (.atSlice "drive" [] (.edit ⟨0⟩ (.addWaveform (.dc 0.25 1.0 0.0)))) ?_ trivial
  refine .perform (.addSlice (.flex "drive")) ?_ (.ofKind "drive" .flex)
  refine .perform (.linkChannel ⟨0⟩ "out" (.memory 4.0 1)) ?_ trivial
  exact .perform (.addTrigger "strobe" 0 0.0 1e-6) (.create .memory 1.0) trivial

theorem made_earlyPulse : earlyPulse.Made := by
  refine .perform (.atSlice "drive" [] (.edit ⟨0⟩ (.addWaveform (.dc 0.25 1.0 0.0)))) ?_ trivial
  refine .perform (.addSlice (.flex "drive")) ?_ (.ofKind "drive" .flex)
  refine .perform (.linkChannel ⟨0⟩ "out" (.memory 4.0 1)) ?_ trivial
  exact .perform (.addTrigger "strobe" 0 0.5 1e-6) (.create .memory 1.0) trivial

end PulseSequencer.Sequence
