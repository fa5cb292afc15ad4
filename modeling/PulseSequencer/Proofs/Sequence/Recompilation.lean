import PulseSequencer.Proofs.Sequence.Paths
import PulseSequencer.Proofs.Sequence.Repetition
import PulseSequencer.Proofs.Slice.Edits

/-!
This module contains that a compilation takes up the channels that were edited since the last success and no others, as long
as every slice lasts as long as it did then.
-/

namespace PulseSequencer.Sequence

variable {α : Type} [Scalar α]

open Scalar Slice

/--
A sequence before and after edits of exactly these channels, each at some slice to which names lead or, with the name of the
channel, through the sequence. An edit that is refused changes nothing and is left out.
-/
inductive Edited : ChannelSet → Sequence α → Sequence α → Prop
  | none (q : Sequence α) : Edited ∅ q q
  | atSlice {edits : ChannelSet} {q r : Sequence α} {ch : ChannelId} (top : String) (rest : List String)
    (change : Edit α) : Edited edits q r → (r.workIn top rest (Command.perform · (.edit ch change))).result = .ok () →
    Edited (edits.insert ch) q (r.workIn top rest (Command.perform · (.edit ch change))).state
  | named {edits : ChannelSet} {q r r' : Sequence α} {ch : ChannelId} {path channel : String} (change : Edit α) :
    Edited edits q r → r.registry.channelId channel = .ok ch →
    r.editChannel path channel (fun s ch => change.apply ch s) = .ok r' → Edited (edits.insert ch) q r'

/--
A sequence right after a success, and the next compilation after edits of exactly these channels.
-/
structure Recompiles (edits : ChannelSet) (q r : Sequence α) : Prop where
  todo : r.recompilationSet = edits
  success : ∀ todo, r.compile.result = .ok todo → todo = edits
    ∧ (∀ ch, ch ∉ edits → r.compile.state.compiled.get? ch = q.compiled.get? ch)
    ∧ r.compile.state.devices = q.devices
  failure : ∀ cause, r.compile.result = .error cause → r.compile.state.pendingCompile = edits

section Edits

variable {edits : ChannelSet} {q r r' : Sequence α} {ch : ChannelId} {change : Edit α} {top : String} {rest : List String}

theorem workIn_of_editChannel {path channel : String} (registered : r.registry.channelId channel = .ok ch)
    (done : r.editChannel path channel (fun s ch => change.apply ch s) = .ok r') :
    ∃ top rest, (r.workIn top rest (Command.perform · (.edit ch change))).result = .ok ()
      ∧ r' = (r.workIn top rest (Command.perform · (.edit ch change))).state := by
  obtain ⟨top, rest, cut⟩ := List.exists_cons_of_ne_nil (SlicePath.names_ne_nil path)
  obtain ⟨ch', found, done⟩ := bind_eq_ok_iff.mp done
  obtain rfl := Except.ok.inj (registered.symm.trans found)
  obtain ⟨_, ok, done⟩ := bind_eq_ok_iff.mp done
  rw [workAt_cons _ cut] at ok done
  exact ⟨top, rest, ok, (Except.ok.inj done).symm⟩

theorem Edited.invariant {P : ChannelSet → Sequence α → Prop} (edited : Edited edits q r) (start : P ∅ q)
    (step : ∀ {edits r ch} (change : Edit α) {top rest}, P edits r →
      (r.workIn top rest (Command.perform · (.edit ch change))).result = .ok () →
      P (edits.insert ch) (r.workIn top rest (Command.perform · (.edit ch change))).state) : P edits r := by
  induction edited with
  | none => exact start
  | atSlice top rest change _ ok ih => exact step change (ih start) ok
  | named change _ registered done ih =>
    obtain ⟨top, rest, ok, rfl⟩ := workIn_of_editChannel registered done
    exact step change (ih start) ok

theorem workIn_eq {ρ : Type} (work : Slice α → Outcome α (Slice α) ρ) :
    ∃ slices, (q.workIn top rest work).state = { q with slices := slices } := by
  unfold Sequence.workIn
  cases q.slice top with
  | error cause => exact ⟨q.slices, rfl⟩
  | ok s => exact ⟨_, rfl⟩

theorem Edited.eq (edited : Edited edits q r) : ∃ slices, r = { q with slices := slices } := by
  refine edited.invariant (P := fun _ r => ∃ slices, r = { q with slices := slices }) ⟨q.slices, rfl⟩ ?_
  rintro _ _ ch change top rest ⟨slices, rfl⟩ _
  exact workIn_eq _

theorem Edited.made (edited : Edited edits q r) (made : q.Made) : r.Made := by
  refine edited.invariant (P := fun _ r => r.Made) made ?_
  intro _ _ ch change top rest made _
  exact made.perform (.atSlice top rest (.edit ch change)) trivial

theorem result_workIn {ρ : Type} {work : Slice α → Outcome α (Slice α) ρ} {b : ρ}
    (ok : (q.workIn top rest work).result = .ok b) : (Slice.workAt work (top :: rest) q.whole).result = .ok b := by
  unfold Sequence.workIn at ok
  unfold slice at ok
  simp only [Slice.workAt, whole]
  cases found : find? q.slices top with
  | none =>
    rw [found] at ok
    cases ok
  | some s =>
    rw [found] at ok
    exact ok

theorem Edited.whole (edited : Edited edits q r) : Reedited edits q.whole r.whole := by
  refine edited.invariant (P := fun edits r => Reedited edits q.whole r.whole) (.refl q.whole) ?_
  intro _ r ch change top rest reedited ok
  rw [whole_workIn]
  exact reedited.edit change (result_workIn ok)

end Edits

def Lasting (q r : Sequence α) : Prop :=
  ∀ path t t', q.resolve path = .ok t → r.resolve path = .ok t' → t'.duration = t.duration

section Slices

variable {edits : ChannelSet} {q r : Sequence α} {names : List String} {s s' t t' : Slice α} {ch : ChannelId}

theorem follow_top (distinct : q.Distinct) (mem : s ∈ q.slices) (names : List String) :
    Slice.follow (s.name :: names) q.whole = Slice.follow names s :=
  follow_cons_of_mem (s := q.whole) (distinct_iff.mp distinct).1 mem

theorem Lasting.follow (lasting : Lasting q r) (made : q.Made) (made' : r.Made) (some : names ≠ [])
    (found : Slice.follow names q.whole = .ok t) (found' : Slice.follow names r.whole = .ok t') :
    t'.duration = t.duration := by
  obtain ⟨_, located⟩ := located_of_follow some found
  obtain ⟨_, located'⟩ := located_of_follow some found'
  exact lasting (SlicePath.join names) t t' (resolve_join (addressable_of_made made) located)
    (resolve_join (addressable_of_made made') located')

structure Counterpart (edits : ChannelSet) (s s' : Slice α) : Prop where
  alongside : Alongside (Remarked edits) s s'
  lasting : ∀ names t t', Slice.follow names s = .ok t → Slice.follow names s' = .ok t' → t'.duration = t.duration

theorem Edited.exists_counterpart (edited : Edited edits q r) (made : q.Made) (lasting : Lasting q r)
    (mem' : s' ∈ r.slices) : ∃ s ∈ q.slices, Counterpart edits s s' := by
  have made' := edited.made made
  have here' : Slice.follow [s'.name] r.whole = .ok s' := follow_top (distinct_of_made made') mem' []
  obtain ⟨s, here, _⟩ := edited.whole.alongside.exists_before here'
  obtain ⟨_, mem, _, same⟩ := exists_of_follow_cons here
  cases same
  refine ⟨s, mem, edited.whole.alongside.follow here here', ?_⟩
  intro names t t' found found'
  rw [← follow_append here] at found
  rw [← follow_append here'] at found'
  exact lasting.follow made made' (List.cons_ne_nil _ _) found found'

theorem Counterpart.duration (counterpart : Counterpart edits s s') : s'.duration = s.duration :=
  counterpart.lasting [] s s' rfl rfl

theorem Counterpart.mem_changed_iff (counterpart : Counterpart edits s s') (distinct : s.Distinct)
    (distinct' : s'.Distinct) (fresh : s.isStale = false) (noticed : ch ∉ s.memo.unconsumed) :
    ch ∈ s'.changed ↔ ∃ names t, Slice.follow names s' = .ok t ∧ ch ∈ t.memo.dirty := by
  have quiet := quiet_of_alongside distinct counterpart.alongside (everywhere_not_stale fresh) distinct' counterpart.lasting
  rw [mem_changed, counterpart.alongside.here.unconsumed, or_iff_left noticed]
  exact mem_updated_iff_follow distinct' quiet

theorem Counterpart.mem_edits (counterpart : Counterpart edits s s') (distinct : s.Distinct) (fresh : s.isStale = false)
    (found' : Slice.follow names s' = .ok t') (edited : ch ∈ t'.memo.dirty) : ch ∈ edits := by
  obtain ⟨t, found, remarked⟩ := counterpart.alongside.exists_before found'
  have current : t.isStale = false := (everywhere_iff_follow distinct).mp (everywhere_not_stale fresh) names t found
  exact (remarked.dirty ch edited).resolve_left ((isStale_eq_false_iff.mp current).2.1 ch)

end Slices

section Compile

variable [SelfNear α] {edits : ChannelSet} {q r : Sequence α}

theorem fresh_of_success (distinct : q.Distinct) {timeline : Timeline α} (placed : q.placement.result = .ok timeline) :
    ∀ s ∈ q.compile.state.slices, s.isStale = false := by
  obtain ⟨flat, _, slices⟩ := slices_of_success placed
  rw [slices]
  intro s' mem
  obtain ⟨s, found, rfl⟩ := List.mem_map.mp mem
  exact isStale_acknowledge_eq_false_iff.mpr (not_stale_of_flatten_ok (distinct.slices s found) (flat s found))

theorem mem_touched_of_edited (made : q.Made) {timeline : Timeline α} (placed : q.placement.result = .ok timeline)
    (edited : Edited edits q.compile.state r) (lasting : Lasting q.compile.state r) (ch : ChannelId) :
    ch ∈ touched q.compile.state.durations false r.slices ↔ ch ∈ edits := by
  have made_compile : q.compile.state.Made := made.perform .compile trivial
  have distinct := distinct_of_made made_compile
  have distinct' := distinct_of_made (edited.made made_compile)
  have fresh := fresh_of_success (distinct_of_made made) placed
  have settled := settled_of_success (distinct_of_made made) placed
  have measured : ∀ s' ∈ r.slices, remeasured q.compile.state.durations s' = false := by
    intro s' mem'
    obtain ⟨s, mem, counterpart⟩ := edited.exists_counterpart made_compile lasting mem'
    apply not_remeasured_of_recorded
    rw [counterpart.alongside.here.name, counterpart.duration]
    exact (settled s mem).1
  have changed_iff {s' : Slice α} (mem' : s' ∈ r.slices) :
      ch ∈ s'.changed ↔ ∃ names t, Slice.follow names s' = .ok t ∧ ch ∈ t.memo.dirty := by
    obtain ⟨s, mem, counterpart⟩ := edited.exists_counterpart made_compile lasting mem'
    have noticed := (not_or.mp (mem_changed.not.mp ((settled s mem).2 ch))).2
    exact counterpart.mem_changed_iff (distinct.slices s mem) (distinct'.slices s' mem') (fresh s mem) noticed
  rw [mem_touched_of_measured measured]
  constructor
  · rintro ⟨s', mem', changed⟩
    obtain ⟨s, mem, counterpart⟩ := edited.exists_counterpart made_compile lasting mem'
    obtain ⟨names, t, found, dirty⟩ := (changed_iff mem').mp changed
    exact counterpart.mem_edits (distinct.slices s mem) (fresh s mem) found dirty
  · intro mem
    obtain ⟨names, t, found, dirty⟩ := edited.whole.marked ch mem
    cases names with
    | nil =>
      cases found
      exact absurd dirty (ChannelSet.not_mem_empty ch)
    | cons name names =>
      obtain ⟨s', mem', _, found⟩ := exists_of_follow_cons found
      exact ⟨s', mem', (changed_iff mem').mpr ⟨names, t, found, dirty⟩⟩

theorem recompilationSet_of_edited (made : q.Made) {timeline : Timeline α} (placed : q.placement.result = .ok timeline)
    (edited : Edited edits q.compile.state r) (lasting : Lasting q.compile.state r) : r.recompilationSet = edits := by
  have touched_iff := mem_touched_of_edited made placed edited lasting
  have unmoved := unmoved_of_success (distinct_of_made made) placed
  obtain ⟨slices, rfl⟩ := edited.eq
  ext ch
  unfold recompilationSet
  rw [pendingCompile_of_success placed, unmoved]
  simp only [ChannelSet.mem_union, ChannelSet.not_mem_empty, false_or]
  exact touched_iff ch

/--
As long as every slice lasts as long as it did at the last success, a compilation takes up the channels that were edited
since then. It leaves what the others were compiled to, and all devices.
-/
theorem compile_edited {todo : ChannelSet} (made : q.Made) (ok : q.compile.result = .ok todo)
    (edited : Edited edits q.compile.state r) (lasting : Lasting q.compile.state r) :
    Recompiles edits q.compile.state r := by
  cases placed : q.placement.result with
  | error cause =>
    rw [(compile_of_not_placed placed).1] at ok
    cases ok
  | ok timeline =>
    have edits_eq := recompilationSet_of_edited made placed edited lasting
    obtain ⟨slices, same⟩ := edited.eq
    refine ⟨edits_eq, ?_, ?_⟩
    · intro todo' ok'
      refine ⟨(compile_of_ok ok').1.trans edits_eq, ?_, ?_⟩
      · intro ch other
        have stored := compiled_compile ok' ch
        rw [edits_eq, if_neg other] at stored
        rw [stored, same]
      · rw [devices_compile, same]
    · intro cause failed
      rcases compile_cases r with ⟨_, _, _, state, _⟩ | ⟨_, ok', _⟩
      · rw [state]
        exact edits_eq
      · rw [ok'] at failed
        cases failed

end Compile

section Example

def staged : Sequence Float :=
  let described := (((create .memory 1.0).perform (.addTrigger "strobe" 0 0.0 1e-6)).perform
    (.linkChannel ⟨0⟩ "front" (.memory 4.0 1))).perform (.linkChannel ⟨0⟩ "back" (.memory 4.0 1))
  let drive := ((described.perform (.addSlice (.flex "drive"))).perform (.atSlice "drive" [] (.nest (.flex "pi")))).perform
    (.atSlice "drive" ["pi"] (.edit ⟨0⟩ (.addWaveform (.dc 0.25 1.0 0.0))))
  (drive.perform (.addSlice (.flex "probe"))).perform (.atSlice "probe" [] (.edit ⟨1⟩ (.addWaveform (.dc 0.25 1.0 0.0))))

def cleared : Sequence Float :=
  (staged.compile.state.workIn "drive" ["pi"] (Command.perform · (.edit ⟨0⟩ .clearWaveform))).state

def revised : Sequence Float :=
  cleared.accept ((cleared.addWaveform "drive/pi" "front" (.dc 0.25 0.5 0.0)).map (·, ()))

theorem made_staged : staged.Made := by
  refine .perform (.atSlice "probe" [] (.edit ⟨1⟩ (.addWaveform (.dc 0.25 1.0 0.0)))) ?_ trivial
  refine .perform (.addSlice (.flex "probe")) ?_ (.ofKind "probe" .flex)
  refine .perform (.atSlice "drive" ["pi"] (.edit ⟨0⟩ (.addWaveform (.dc 0.25 1.0 0.0)))) ?_ trivial
  refine .perform (.atSlice "drive" [] (.nest (.flex "pi"))) ?_ (.ofKind "pi" .flex)
  refine .perform (.addSlice (.flex "drive")) ?_ (.ofKind "drive" .flex)
  refine .perform (.linkChannel ⟨0⟩ "back" (.memory 4.0 1)) ?_ trivial
  refine .perform (.linkChannel ⟨0⟩ "front" (.memory 4.0 1)) ?_ trivial
  exact .perform (.addTrigger "strobe" 0 0.0 1e-6) (.create .memory 1.0) trivial

theorem lasting_of_shallow {q r : Sequence Float} (shallow : ∀ s ∈ q.slices, ∀ t ∈ s.subs, t.subs.isEmpty = true)
    (durations : ∀ s ∈ q.slices, ∀ s' ∈ r.slices, s'.name = s.name → s'.duration = s.duration
      ∧ ∀ t ∈ s.subs, ∀ t' ∈ s'.subs, t'.name = t.name → t'.duration = t.duration) : Lasting q r := by
  intro path t t' found found'
  rw [resolve_eq_ok_iff] at found found'
  obtain ⟨top, rest, cut⟩ := List.exists_cons_of_ne_nil (SlicePath.names_ne_nil path)
  rw [cut] at found found'
  obtain ⟨s, mem, named, found⟩ := exists_of_follow_cons found
  obtain ⟨s', mem', named', found'⟩ := exists_of_follow_cons found'
  obtain ⟨here, below⟩ := durations s mem s' mem' (named'.trans named.symm)
  cases rest with
  | nil =>
    cases found
    cases found'
    exact here
  | cons name rest =>
    obtain ⟨u, inside, called, found⟩ := exists_of_follow_cons found
    obtain ⟨u', inside', called', found'⟩ := exists_of_follow_cons found'
    cases rest with
    | nil =>
      cases found
      cases found'
      exact below t inside t' inside' (called'.trans called.symm)
    | cons deeper rest =>
      obtain ⟨v, none, _⟩ := exists_of_follow_cons found
      rw [List.isEmpty_iff.mp (shallow s mem u inside)] at none
      cases none

theorem compile_revised :
    staged.Made ∧ staged.compile.result.isOk = true
      ∧ Edited ((∅ : ChannelSet).insert ⟨0⟩) staged.compile.state revised ∧ revised.compile.result.isOk = true
      ∧ Recompiles ((∅ : ChannelSet).insert ⟨0⟩) staged.compile.state revised := by
  obtain ⟨todo, ok⟩ := exists_ok_of_isOk (by decide +kernel : staged.compile.result.isOk = true)
  have first : Edited ((∅ : ChannelSet).insert ⟨0⟩) staged.compile.state cleared := by
    obtain ⟨_, done⟩ := exists_ok_of_isOk (x := (staged.compile.state.workIn "drive" ["pi"]
      (Command.perform · (.edit ⟨0⟩ .clearWaveform))).result) (by decide +kernel)
    exact .atSlice "drive" ["pi"] .clearWaveform (.none _) done
  have edited : Edited ((∅ : ChannelSet).insert ⟨0⟩) staged.compile.state revised := by
    obtain ⟨r, done⟩ := exists_ok_of_isOk
      (by decide +kernel : (cleared.addWaveform "drive/pi" "front" (.dc 0.25 0.5 0.0)).isOk = true)
    have same : revised = r := by
      rw [revised, done]
      rfl
    have registered : cleared.registry.channelId "front" = .ok ⟨0⟩ := by
      have found : cleared.registry.findChannel? "front" = some ⟨0⟩ := by decide +kernel
      rw [Registry.channelId, found]
    have again := Edited.named (.addWaveform (.dc 0.25 0.5 0.0)) first registered done
    rw [← same] at again
    exact again
  refine ⟨made_staged, by decide +kernel, edited, by decide +kernel, ?_⟩
  exact compile_edited made_staged ok edited (lasting_of_shallow (by decide +kernel) (by decide +kernel))

end Example

end PulseSequencer.Sequence
