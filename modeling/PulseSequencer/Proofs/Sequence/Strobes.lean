import PulseSequencer.Proofs.Device.Trigger
import PulseSequencer.Proofs.Sequence.Names

/-!
This module contains which strobes the trigger device puts out once it is set up. There should be one for each trigger in
every cycle, but an output can have no more than one, and nothing keeps triggers from sharing an output. Of those that do,
the setup loses the strobes of all but the last, although channels are compiled against them and previews show them.
-/

namespace PulseSequencer

variable {α : Type}

namespace Registry

variable {r : Registry α} {triggers : List (Trigger α)} {t : Trigger α}

def lastOn (output : Nat) (triggers : List (Trigger α)) : Option (Trigger α) :=
  triggers.findRev? (·.output == output)

theorem lastOn_cons (output : Nat) (t : Trigger α) (rest : List (Trigger α)) :
    lastOn output (t :: rest) = (lastOn output rest).or (if t.output = output then some t else none) := by
  unfold lastOn
  rw [List.findRev?_eq_find?_reverse, List.findRev?_eq_find?_reverse, List.reverse_cons, List.find?_append,
    List.find?_singleton]
  by_cases here : t.output = output
  · rw [if_pos here, if_pos (beq_iff_eq.mpr here)]
  · rw [if_neg here, if_neg (by simpa using here)]

theorem lastOn_of_later {before after : List (Trigger α)} (split : triggers = before ++ t :: after)
    (last : ∀ u ∈ after, u.output ≠ t.output) : lastOn t.output triggers = some t := by
  have back : triggers.reverse = after.reverse ++ t :: before.reverse := by
    rw [split, List.reverse_append, List.reverse_cons, List.append_assoc, List.singleton_append]
  rw [lastOn, List.findRev?_eq_find?_reverse, List.find?_eq_some_iff_append]
  refine ⟨beq_self_eq_true _, after.reverse, before.reverse, back, ?_⟩
  intro u mem
  simpa using last u (List.mem_reverse.mp mem)

theorem lastOn_of_nodup (distinct : (triggers.map (·.output)).Nodup) (mem : t ∈ triggers) :
    lastOn t.output triggers = some t := by
  obtain ⟨before, after, split⟩ := List.append_of_mem mem
  apply lastOn_of_later split
  intro u later same
  rw [split, List.map_append, List.map_cons, List.nodup_append, List.nodup_cons] at distinct
  exact distinct.2.1.1 (same ▸ List.mem_map_of_mem later)

theorem mem_of_triggerOf {ch : ChannelId} (h : r.triggerOf ch = .ok t) : t ∈ r.triggers := by
  obtain ⟨c, _, h⟩ := bind_eq_ok_iff.mp h
  cases bound : c.trigger with
  | none =>
    rw [bound] at h
    cases h
  | some id =>
    simp only [bound, trigger] at h
    cases found : r.triggers[id.index]? with
    | none =>
      rw [found] at h
      cases h
    | some u =>
      rw [found] at h
      cases h
      exact List.mem_of_getElem? found

end Registry

namespace TriggerDevice

open Registry

variable {d : TriggerDevice α} {triggers : List (Trigger α)}

def Emits (d : TriggerDevice α) (t : Trigger α) : Prop :=
  d.delays.get? t.output = some (t.raiseAt, t.dropAfter)

def armed (d : TriggerDevice α) (triggers : List (Trigger α)) : TriggerDevice α :=
  { d with
    delays := triggers.foldl (fun delays t => delays.insert t.output (t.raiseAt, t.dropAfter)) d.delays
    calls := d.calls ++ triggers.map fun t => .setChannelDelay t.output t.raiseAt t.dropAfter }

theorem armed_nil (d : TriggerDevice α) : d.armed [] = d := by
  rw [armed, List.map_nil, List.append_nil]
  rfl

theorem armed_cons (d : TriggerDevice α) (t : Trigger α) (rest : List (Trigger α)) :
    d.armed (t :: rest) = (d.armed [t]).armed rest := by
  simp [armed]

theorem get?_delays_armed (output : Nat) :
    (d.armed triggers).delays.get? output
      = ((lastOn output triggers).map fun t => (t.raiseAt, t.dropAfter)).or (d.delays.get? output) := by
  induction triggers generalizing d with
  | nil => rfl
  | cons t rest ih =>
    have first : (d.armed [t]).delays.get? output
        = if t.output = output then some (t.raiseAt, t.dropAfter) else d.delays.get? output := Table.get?_insert ..
    rw [armed_cons, ih, first, lastOn_cons]
    -- A trigger further back on the output decides, and else this one does.
    cases lastOn output rest with
    | some u => rfl
    | none =>
      split
      · rfl
      · rfl

theorem emits_armed {t : Trigger α} (last : lastOn t.output triggers = some t) : (d.armed triggers).Emits t := by
  rw [Emits, get?_delays_armed, last]
  rfl

end TriggerDevice

namespace Sequence

variable [Scalar α] {q : Sequence α}

open Registry TriggerDevice

theorem result_of_callTrigger {ρ : Type} {name : String} {operation : Operation}
    {call : TriggerDevice α → Reply α (TriggerDevice α) ρ} {value : ρ}
    (ok : (q.callTrigger name operation call).result = .ok value) : (call q.triggerDevice).result = .ok value := by
  unfold callTrigger at ok
  dsimp only at ok
  cases h : (call q.triggerDevice).result with
  | error cause =>
    rw [h] at ok
    cases ok
  | ok _ =>
    rw [h] at ok
    cases ok
    rfl

def setDelay (t : Trigger α) (q : Sequence α) : Outcome α (Sequence α) Unit :=
  q.callTrigger t.name .setChannelDelay (·.setChannelDelay t.output t.raiseAt t.dropAfter)

theorem state_setDelay {t : Trigger α} (ok : (setDelay t q).result = .ok ()) :
    (setDelay t q).state = { q with triggerDevice := q.triggerDevice.armed [t] } :=
  congrArg (fun d => { q with triggerDevice := d }) (device_setChannelDelay (result_of_callTrigger ok))

theorem state_setDelays {triggers : List (Trigger α)} (ok : (forAll setDelay triggers q).result = .ok ()) :
    (forAll setDelay triggers q).state = { q with triggerDevice := q.triggerDevice.armed triggers } := by
  induction triggers generalizing q with
  | nil =>
    rw [armed_nil]
    rfl
  | cons t rest ih =>
    unfold forAll at ok ⊢
    obtain ⟨_, first, later⟩ := Outcome.result_andThen_eq_ok_iff.mp ok
    rw [Outcome.state_andThen_of_ok first, ih later, state_setDelay first, ← armed_cons]

theorem state_setupTrigger (ok : q.setupTrigger.result = .ok ()) :
    q.setupTrigger.state
      = { q with triggerDevice := (q.triggerDevice.setCycleFrequency q.cycleFrequency).device.armed q.registry.triggers } := by
  unfold setupTrigger at ok ⊢
  obtain ⟨_, set, later⟩ := Outcome.result_andThen_eq_ok_iff.mp ok
  obtain ⟨_, delayed, _⟩ := Outcome.result_andThen_eq_ok_iff.mp later
  rw [Outcome.state_andThen_of_ok set, Outcome.state_andThen_of_ok delayed]
  exact state_setDelays delayed

theorem device_setupTrigger (ok : q.setupTrigger.result = .ok ()) :
    q.setupTrigger.state.triggerDevice
      = armed { q.triggerDevice with
          cycleFrequency := some q.cycleFrequency
          calls := q.triggerDevice.calls ++ [.setCycleFrequency q.cycleFrequency] } q.registry.triggers := by
  rw [state_setupTrigger ok]
  unfold setupTrigger at ok
  obtain ⟨_, set, _⟩ := Outcome.result_andThen_eq_ok_iff.mp ok
  exact congrArg (armed · q.registry.triggers) (device_setCycleFrequency (result_of_callTrigger set))

/--
What is left of the strobes after a successful setup. Each trigger has its strobe, and each channel the one that it is
compiled against, as long as no two triggers share an output. A trigger that is followed by another one on its output loses
its strobe without any error.
-/
theorem setupTrigger_emits (ok : q.setupTrigger.result = .ok ()) :
    q.setupTrigger.state.triggerDevice.cycleFrequency = some q.cycleFrequency
      ∧ (∀ output, q.setupTrigger.state.triggerDevice.delays.get? output
        = ((lastOn output q.registry.triggers).map fun t => (t.raiseAt, t.dropAfter)).or
          (q.triggerDevice.delays.get? output))
      ∧ (∀ before t after, q.registry.triggers = before ++ t :: after → (∀ u ∈ after, u.output ≠ t.output) →
        q.setupTrigger.state.triggerDevice.Emits t)
      ∧ ((q.registry.triggers.map (·.output)).Nodup →
        (∀ t ∈ q.registry.triggers, q.setupTrigger.state.triggerDevice.Emits t)
          ∧ ∀ ch t, q.registry.triggerOf ch = .ok t → q.setupTrigger.state.triggerDevice.Emits t) := by
  rw [device_setupTrigger ok]
  refine ⟨rfl, fun output => get?_delays_armed output, ?_, ?_⟩
  · intro before t after split last
    exact emits_armed (lastOn_of_later split last)
  · intro distinct
    constructor
    · intro t mem
      exact emits_armed (lastOn_of_nodup distinct mem)
    · intro ch t bound
      exact emits_armed (lastOn_of_nodup distinct (mem_of_triggerOf bound))

def twoStrobes : Sequence Float :=
  ((create .memory 1.0).perform (.addTrigger "early" 0 0.25 1e-6)).perform (.addTrigger "late" 1 0.5 1e-6)

theorem setupTrigger_twoStrobes_emits :
    twoStrobes.setupTrigger.state.triggerDevice.cycleFrequency = some 1.0
      ∧ twoStrobes.setupTrigger.state.triggerDevice.Emits ⟨"early", 0, 0.25, 1e-6, []⟩
      ∧ twoStrobes.setupTrigger.state.triggerDevice.Emits ⟨"late", 1, 0.5, 1e-6, []⟩ := by
  obtain ⟨frequency, _, _, distinct⟩ := setupTrigger_emits (q := twoStrobes) rfl
  have each := (distinct (by decide +kernel)).1
  exact ⟨frequency, each _ (List.mem_of_getElem? (i := 0) rfl), each _ (List.mem_of_getElem? (i := 1) rfl)⟩

def sharedOutput : Sequence Float :=
  ((create .memory 1.0).perform (.addTrigger "early" 0 0.25 1e-6)).perform (.addTrigger "late" 0 0.5 1e-6)

theorem made_sharedOutput : sharedOutput.Made := by
  refine .perform (.addTrigger "late" 0 0.5 1e-6) ?_ trivial
  exact .perform (.addTrigger "early" 0 0.25 1e-6) (.create .memory 1.0) trivial

/--
A setup can succeed and lose a strobe.
-/
theorem not_setupTrigger_emits_all :
    ¬ ∀ q : Sequence Float, q.Made → q.setupTrigger.result = .ok () →
      q.setupTrigger.state.triggerDevice.cycleFrequency = some q.cycleFrequency
        ∧ ∀ t ∈ q.registry.triggers, q.setupTrigger.state.triggerDevice.Emits t := by
  intro every
  obtain ⟨_, emits⟩ := every sharedOutput made_sharedOutput rfl
  have first := emits ⟨"early", 0, 0.25, 1e-6, []⟩ (List.mem_of_getElem? (i := 0) rfl)
  have same := congrArg (Option.map Prod.fst) first
  revert same
  decide +kernel

end Sequence

end PulseSequencer
