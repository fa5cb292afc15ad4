import PulseSequencer.Proofs.Sequence.Hardware
import PulseSequencer.Proofs.Sequence.Names
import PulseSequencer.Proofs.Sequence.Retry
import PulseSequencer.Proofs.Sequence.Strobes

/-!
This module contains what a failing compilation leaves behind on the instruments. No channel is called in any case, but
the strobes are set up before the cycle is compiled, and so they have moved already.
-/

namespace PulseSequencer

variable {α : Type}

namespace Sequence

variable [Scalar α] {q r : Sequence α} {cause : Error α}

section Strobes

structure Strobed (q : Sequence α) (calls : List (TriggerCall α)) (r : Sequence α) : Prop where
  rest : r = { q with triggerDevice := r.triggerDevice }
  calls : r.triggerDevice.calls = q.triggerDevice.calls ++ calls

def delayCall (t : Trigger α) : TriggerCall α :=
  .setChannelDelay t.output t.raiseAt t.dropAfter

theorem strobed_setupTrigger (ok : q.setupTrigger.result = .ok ()) :
    Strobed q (.setCycleFrequency q.cycleFrequency :: q.registry.triggers.map delayCall) q.setupTrigger.state := by
  constructor
  · rw [state_setupTrigger ok]
  · rw [device_setupTrigger ok, TriggerDevice.armed, List.append_assoc]
    rfl

end Strobes

section Setup

theorem result_compile_of_strobed {calls : List (TriggerCall α)} (strobed : Strobed q calls r) :
    r.compile.result = q.compile.result := by
  rw [strobed.rest]
  have todo : recompilationSet { q with triggerDevice := r.triggerDevice } = q.recompilationSet := rfl
  have length : cycleLength { q with triggerDevice := r.triggerDevice } = q.cycleLength := rfl
  unfold compile
  rw [todo, length]
  dsimp only
  rcases placeSlices q.registry q.cycleLength q.recompilationSet ⟨0.0, ∅, []⟩ q.slices with
    ⟨cause | timeline, slices, events⟩
  · rfl
  · rfl

theorem setupChannels_of_error (failed : q.compile.result = .error cause) :
    q.setupChannels.result = .error cause ∧ q.setupChannels.state = q.compile.state := by
  unfold setupChannels
  rw [Outcome.result_andThen, Outcome.state_andThen_of_error failed, failed]
  exact ⟨rfl, rfl⟩

/--
A cycle that cannot be compiled is refused. Without the strobes no instrument is called. With the strobes the channels
are left alone, but the trigger device has been given the frequency and all delays of the refused cycle.
-/
theorem setup_of_compile_error (ready : q.setupTrigger.result = .ok ()) (failed : q.compile.result = .error cause) :
    (q.setupChannels.result = .error cause
        ∧ q.setupChannels.state.devices = q.devices
        ∧ q.setupChannels.state.triggerDevice = q.triggerDevice)
      ∧ q.setup.result = .error cause
      ∧ q.setup.state.devices = q.devices
      ∧ q.setup.state.triggerDevice.calls
        = q.triggerDevice.calls ++ .setCycleFrequency q.cycleFrequency :: q.registry.triggers.map delayCall := by
  have strobed := strobed_setupTrigger ready
  have refused : q.setupTrigger.state.compile.result = .error cause :=
    (result_compile_of_strobed strobed).trans failed
  obtain ⟨result, state⟩ := setupChannels_of_error failed
  obtain ⟨result', state'⟩ := setupChannels_of_error refused
  have setup_result : q.setup.result = .error cause := by
    unfold setup
    rw [Outcome.result_andThen, ready]
    exact result'
  have setup_state : q.setup.state = q.setupTrigger.state.compile.state := by
    unfold setup
    rw [Outcome.state_andThen_of_ok ready]
    exact state'
  refine ⟨⟨result, ?_, ?_⟩, setup_result, ?_, ?_⟩
  · rw [state, compile_state_of_error failed]
  · rw [state, compile_state_of_error failed]
  · rw [setup_state, compile_state_of_error refused, strobed.rest]
  · rw [setup_state, compile_state_of_error refused]
    exact strobed.calls

theorem setup_earlyPulse :
    ∃ cause, earlyPulse.setup.result = .error cause
      ∧ earlyPulse.setupChannels.state.triggerDevice = earlyPulse.triggerDevice
      ∧ earlyPulse.setup.state.triggerDevice.calls
        = earlyPulse.triggerDevice.calls
          ++ .setCycleFrequency earlyPulse.cycleFrequency :: earlyPulse.registry.triggers.map delayCall := by
  obtain ⟨cause, failed⟩ := exists_error_of_not_isOk (x := earlyPulse.compile.result) (by decide +kernel)
  obtain ⟨⟨_, _, kept⟩, result, _, calls⟩ := setup_of_compile_error rfl failed
  exact ⟨cause, result, kept, calls⟩

/--
It is not true that the instruments are as they were whenever a cycle is refused.
-/
theorem not_setup_validates_first :
    ¬ ∀ q : Sequence Float, q.Made → ∀ cause, q.setupTrigger.result = .ok () →
      q.setupTrigger.state.compile.result = .error cause →
        q.setup.state.triggerDevice.calls = q.triggerDevice.calls ∧ q.setup.state.devices = q.devices := by
  intro validates
  obtain ⟨cause, failed⟩ := exists_error_of_not_isOk (x := earlyPulse.setupTrigger.state.compile.result)
    (by decide +kernel)
  obtain ⟨calls, _⟩ := validates earlyPulse made_earlyPulse cause rfl failed
  have same := congrArg List.length calls
  revert same
  decide +kernel

end Setup

end Sequence

end PulseSequencer
