import PulseSequencer.Proofs.Scalar.Machine
import PulseSequencer.Proofs.Slice.Coherence

/-!
This module contains the slices that can come about: each is built from nothing by edits and by flattening, of the slice
itself or of any slice below it, in any order. Whatever the order was, flattening yields what it yields for a slice of
the same content that was never flattened before.
-/

namespace PulseSequencer.Slice

variable {α : Type} [Scalar α]

open Scalar

inductive Edit (α : Type) [Scalar α]
  | addWaveform (w : Waveform α)
  | clearWaveform
  | setPadding (position : Padding)

def Edit.apply (ch : ChannelId) (s : Slice α) : Edit α → Slice α
  | .addWaveform w => s.addWaveform ch w
  | .clearWaveform => s.clearWaveform ch
  | .setPadding position => s.setPadding ch position

inductive Command (α : Type) [Scalar α]
  | edit (ch : ChannelId) (change : Edit α)
  | nest (child : Slice α)
  | flatten (registry : Registry α)
  | getWaveform (registry : Registry α) (ch : ChannelId)

namespace Command

def perform (s : Slice α) : Command α → Outcome α (Slice α) Unit
  | .edit ch change => .done () (change.apply ch s)
  | .nest child =>
    match s.addSub child with
    | .error cause => .failed cause s
    | .ok whole => .done () whole
  | .flatten registry => s.flatten registry
  | .getWaveform registry ch => (s.getWaveform registry ch).andThen fun _ s => .done () s

def Flattens : Command α → Prop
  | .flatten _ | .getWaveform .. => True
  | .edit .. | .nest _ => False

end Command

inductive Reached (Calm : Slice α → Prop) : Slice α → Prop
  | ofKind (name : String) (kind : SliceKind α) : Reached Calm (.ofKind name kind)
  | perform {s : Slice α} (path : List String) (command : Command α) : Reached Calm s →
    (∀ child, command = .nest child → Reached Calm child) →
    (command.Flattens → ∀ t, follow path s = .ok t → Calm t) →
    Reached Calm (workAt (command.perform ·) path s).state

section Steps

variable {s : Slice α}

theorem coherent_ofKind (name : String) (kind : SliceKind α) : (ofKind name kind).Coherent := by
  refine .node ⟨.nil, fun ch _ => ⟨fun _ => none, nofun, fun registry => ?_⟩⟩ nofun
  exact assemble_of_forall_none rfl (by simp [ofKind]) registry

theorem memo_apply (ch : ChannelId) (change : Edit α) : (change.apply ch s).memo = s.memo.mark ch := by
  cases change <;> rfl

theorem subs_apply (ch : ChannelId) (change : Edit α) : (change.apply ch s).subs = s.subs := by
  cases change <;> rfl

theorem Everywhere.apply {P : Slice α → Prop} (everywhere : s.Everywhere P) {ch : ChannelId} {change : Edit α}
    (here : P (change.apply ch s)) : (change.apply ch s).Everywhere P := by
  refine .node here ?_
  rw [subs_apply]
  exact fun _ mem => everywhere.of_mem mem

section Other

variable {ch other : ChannelId}

theorem waveforms_apply (ne : other ≠ ch) (change : Edit α) :
    (change.apply ch s).content.waveforms.get? other = s.content.waveforms.get? other := by
  cases change with
  | addWaveform w => exact (Table.get?_insertLast ..).trans (if_neg ne.symm)
  | clearWaveform => exact (Table.get?_erase ..).trans (if_neg ne.symm)
  | setPadding position => rfl

theorem padding_apply (ne : other ≠ ch) (change : Edit α) :
    (change.apply ch s).content.padding.get? other = s.content.padding.get? other := by
  cases change with
  | addWaveform w => rfl
  | clearWaveform => rfl
  | setPadding position => exact (Table.get?_insert ..).trans (if_neg ne.symm)

theorem assemble_apply (ne : other ≠ ch) (change : Edit α) (registry : Registry α)
    (row : List (Option (Waveform α) × α)) :
    assemble registry (change.apply ch s).content other row = assemble registry s.content other row := by
  refine assemble_congr ?_ ?_ (waveforms_apply ne change) (padding_apply ne change) registry row
  · cases change <;> rfl
  · cases change <;> rfl

theorem clean_of_apply {change : Edit α} (clean : other ∉ (change.apply ch s).memo.dirty) :
    other ≠ ch ∧ other ∉ s.memo.dirty := by
  rw [memo_apply] at clean
  simpa only [Memo.mark, ChannelSet.mem_insert, not_or] using clean

end Other

theorem reports_apply (ch : ChannelId) (change : Edit α) : Reports s (change.apply ch s) := by
  cases change <;> exact .of_memo rfl rfl rfl rfl

theorem forall₂_reports_apply (ch : ChannelId) (change : Edit α) : List.Forall₂ Reports s.subs (change.apply ch s).subs := by
  rw [subs_apply]
  exact List.forall₂_same.mpr fun t _ => .refl t

theorem Kept.apply (kept : Kept s) (ch : ChannelId) (change : Edit α) : Kept (change.apply ch s) := by
  refine kept.step ?_ ?_ (forall₂_reports_apply ch change) ?_
  · rw [memo_apply]
    rfl
  · rw [memo_apply]
    rfl
  · intro other clean
    obtain ⟨ne, clean⟩ := clean_of_apply clean
    exact ⟨clean, assemble_apply ne change⟩

theorem Coherent.apply (coherent : s.Coherent) (ch : ChannelId) (change : Edit α) : (change.apply ch s).Coherent :=
  Everywhere.apply coherent (coherent.here.apply ch change)

theorem Coherent.nest [NeutralZero α] {child whole : Slice α} (coherent : s.Coherent) (below : child.Coherent)
    (h : s.addSub child = .ok whole) : whole.Coherent :=
  Everywhere.nest coherent below h (coherent.here.nest below h)

theorem reports_nest {child whole : Slice α} (h : s.addSub child = .ok whole) : Reports s whole := by
  obtain ⟨_, rfl⟩ := addSub_eq_ok_iff.mp h
  exact .of_memo rfl rfl rfl rfl

theorem state_getWaveform (registry : Registry α) (ch : ChannelId) :
    (s.getWaveform registry ch).state = (s.flatten registry).state := by
  unfold getWaveform
  rw [Outcome.state_andThen]
  cases (s.flatten registry).result <;> rfl

theorem state_perform_getWaveform (registry : Registry α) (ch : ChannelId) :
    ((Command.getWaveform registry ch).perform s).state = (s.flatten registry).state := by
  unfold Command.perform
  rw [Outcome.state_andThen, ← state_getWaveform registry ch]
  cases (s.getWaveform registry ch).result <;> rfl

theorem reports_perform (s : Slice α) (command : Command α) : Reports s (command.perform s).state := by
  cases command with
  | edit ch change => exact reports_apply ch change
  | nest child =>
    simp only [Command.perform]
    cases h : s.addSub child with
    | error cause => exact .refl s
    | ok whole => exact reports_nest h
  | flatten registry => exact .flatten registry s
  | getWaveform registry ch =>
    rw [state_perform_getWaveform]
    exact .flatten registry s

theorem reports_workAt (path : List String) (s : Slice α) (command : Command α) :
    Reports s (workAt (command.perform ·) path s).state := by
  refine workAt_induct (P := Reports) .refl ?_ path s ?_
  · intro t sub sub' name _ _
    exact .of_memo rfl rfl rfl rfl
  · exact fun t _ => reports_perform t command

theorem Coherent.perform [NeutralZero α] {command : Command α} (coherent : s.Coherent)
    (below : ∀ child, command = .nest child → child.Coherent) (settled : command.Flattens → s.Settled) :
    (command.perform s).state.Coherent ∧ Reports s (command.perform s).state := by
  refine ⟨?_, reports_perform s command⟩
  cases command with
  | edit ch change => exact coherent.apply ch change
  | nest child =>
    simp only [Command.perform]
    cases h : s.addSub child with
    | error cause => exact coherent
    | ok whole => exact coherent.nest (below child rfl) h
  | flatten registry => exact coherent.flatten (settled trivial)
  | getWaveform registry ch =>
    rw [state_perform_getWaveform]
    exact coherent.flatten (settled trivial)

end Steps

theorem coherent_of_reached [NeutralZero α] {s : Slice α} (reached : Reached Settled s) : s.Coherent := by
  induction reached with
  | ofKind name kind => exact coherent_ofKind name kind
  | perform path command _ _ calm ih below =>
    refine (ih.workAt fun t found coherent => ?_).1
    exact coherent.perform below fun flattens => calm flattens t found

/--
Flattening any slice of a tree succeeds if and only if it does for the same slice without a memory, and yields the same
waveforms then. They are there already if the slice is not stale.
-/
theorem flatten_eq_flatten_renew [NeutralZero α] {s t : Slice α} {path : List String} (reached : Reached Settled s)
    (found : follow path s = .ok t) (settled : t.Settled) (registry other : Registry α) :
    ((t.flatten registry).result = .ok () ↔ (t.renew.flatten other).result = .ok ())
      ∧ ((t.flatten registry).result = .ok () → ∀ ch,
        (t.flatten registry).state.flattened.get? ch = (t.renew.flatten other).state.flattened.get? ch)
      ∧ (t.isStale = false → (t.renew.flatten other).result = .ok () ∧ ∀ ch,
        t.flattened.get? ch = (t.renew.flatten other).state.flattened.get? ch) := by
  have coherent : t.Coherent := (coherent_of_reached reached).follow found
  have sound : t.Sound := sound_of_coherent coherent settled
  have fresh : t.renew.Sound := sound_renew t
  have same : t.renew.renew = t.renew := renew_renew t
  refine ⟨⟨fun ok => ?_, fun ok => ?_⟩, fun ok => ?_, fun current => ?_⟩
  · exact (flatten_agree other sound fresh same.symm ok).1
  · exact (flatten_agree registry fresh sound same ok).1
  · exact (flatten_agree other sound fresh same.symm ok).2
  · have ok : (t.flatten registry).result = .ok () := by rw [flatten_of_not_stale current]; rfl
    have agree := flatten_agree other sound fresh same.symm ok
    refine ⟨agree.1, fun ch => ?_⟩
    have held := agree.2 ch
    rw [flatten_of_not_stale current] at held
    exact held

def pulse : Slice Float :=
  let outer := (workAt (Command.perform · (.nest (ofKind "inner" .flex))) [] (ofKind "outer" .flex)).state
  let flat := (workAt (Command.perform · (.flatten .empty)) [] outer).state
  (workAt (Command.perform · (.edit ⟨0⟩ (.addWaveform (.dc 1.0 0.5 0.0)))) ["inner"] flat).state

theorem settled_of_shallow {s : Slice Float} (shallow : ∀ t ∈ s.subs, t.subs = []) (here : SettledHere s) :
    s.Settled := by
  refine .node here fun t mem => .node (.inr ?_) ?_
  · simp [shallow t mem]
  · simp [shallow t mem]

theorem flatten_pulse_eq_flatten_renew :
    ((pulse.flatten .empty).result = .ok () ↔ (pulse.renew.flatten .empty).result = .ok ())
      ∧ ((pulse.flatten .empty).result = .ok () → ∀ ch,
        (pulse.flatten .empty).state.flattened.get? ch = (pulse.renew.flatten .empty).state.flattened.get? ch)
      ∧ (pulse.isStale = false → (pulse.renew.flatten .empty).result = .ok () ∧ ∀ ch,
        pulse.flattened.get? ch = (pulse.renew.flatten .empty).state.flattened.get? ch) := by
  have leaf (s : Slice Float) (h : s.subs.all (·.subs.isEmpty) = true) : ∀ t ∈ s.subs, t.subs = [] := by
    simpa using h
  have outer : Reached Settled (workAt (Command.perform · (.nest (ofKind "inner" .flex))) []
      (ofKind "outer" (.flex : SliceKind Float))).state := by
    refine .perform [] _ (.ofKind "outer" .flex) ?_ nofun
    intro child same
    cases same
    exact .ofKind "inner" .flex
  have flat := Reached.perform [] (.flatten .empty) outer nofun fun _ t found => by
    cases found
    exact settled_of_shallow (leaf _ (by decide +kernel)) (.inr (by decide +kernel))
  have reached : Reached Settled pulse :=
    .perform ["inner"] (.edit ⟨0⟩ (.addWaveform (.dc 1.0 0.5 0.0))) flat nofun nofun
  have settled : pulse.Settled :=
    settled_of_shallow (leaf _ (by decide +kernel)) (.inl (by decide +kernel))
  have found : follow [] pulse = .ok pulse := rfl
  exact flatten_eq_flatten_renew reached found settled .empty .empty

end PulseSequencer.Slice
