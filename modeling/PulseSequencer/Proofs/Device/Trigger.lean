import PulseSequencer.Device.Trigger

/-!
This module contains what the calls of the trigger device do to it if they succeed.
-/

namespace PulseSequencer.TriggerDevice

variable {α : Type} {d next : TriggerDevice α}

theorem device_attempt_of_ok {operation : Operation} {call : TriggerCall α}
    (ok : (d.attempt operation call next).result = .ok ()) :
    (d.attempt operation call next).device = { next with calls := d.calls ++ [call] } := by
  unfold attempt at ok ⊢
  cases h : d.faults.get? operation with
  | none => rfl
  | some message =>
    rw [h] at ok
    cases ok

theorem device_setCycleFrequency {frequency : α} (ok : (d.setCycleFrequency frequency).result = .ok ()) :
    (d.setCycleFrequency frequency).device
      = { d with cycleFrequency := some frequency, calls := d.calls ++ [.setCycleFrequency frequency] } :=
  device_attempt_of_ok ok

theorem device_setChannelDelay {output : Nat} {raiseAt dropAfter : α}
    (ok : (d.setChannelDelay output raiseAt dropAfter).result = .ok ()) :
    (d.setChannelDelay output raiseAt dropAfter).device
      = { d with
        delays := d.delays.insert output (raiseAt, dropAfter)
        calls := d.calls ++ [.setChannelDelay output raiseAt dropAfter] } :=
  device_attempt_of_ok ok

end PulseSequencer.TriggerDevice
