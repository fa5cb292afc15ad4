import PulseSequencer.Device.Basic

/-!
This module contains the trigger device, which puts out the strobes of a cycle.
-/

namespace PulseSequencer

inductive TriggerCall (α : Type)
  | setCycleFrequency (frequency : α)
  | setChannelDelay (output : Nat) (raiseAt dropAfter : α)
deriving Repr

structure TriggerDevice (α : Type) where
  driver : Driver
  faults : Faults
  cycleFrequency : Option α
  delays : Table Nat (α × α)
  calls : List (TriggerCall α)

namespace TriggerDevice

variable {α : Type}

def initial (driver : Driver) : TriggerDevice α := ⟨driver, ∅, none, ∅, []⟩

def arrangeFault (d : TriggerDevice α) (operation : Operation) (message : Option String) : TriggerDevice α :=
  { d with faults := d.faults.arrange operation message }

def attempt (d : TriggerDevice α) (operation : Operation) (call : TriggerCall α) (next : TriggerDevice α) :
    Reply α (TriggerDevice α) Unit :=
  match d.faults.get? operation with
  | some message => ⟨.error ⟨message⟩, d, d.driver.failureEvents message⟩
  | none => ⟨.ok (), { next with calls := d.calls ++ [call] }, []⟩

def setCycleFrequency (d : TriggerDevice α) (frequency : α) : Reply α (TriggerDevice α) Unit :=
  d.attempt .setCycleFrequency (.setCycleFrequency frequency) { d with cycleFrequency := some frequency }

def setChannelDelay (d : TriggerDevice α) (output : Nat) (raiseAt dropAfter : α) :
    Reply α (TriggerDevice α) Unit :=
  d.attempt .setChannelDelay (.setChannelDelay output raiseAt dropAfter)
    { d with delays := d.delays.insert output (raiseAt, dropAfter) }

open NumberText in
def text [NumberText α] (d : TriggerDevice α) : String :=
  let frequency := match d.cycleFrequency with
    | some frequency => "Some(" ++ record frequency ++ ")"
    | none => "None"
  let delays := d.delays.entries.map fun (output, raiseAt, dropAfter) =>
    toString output ++ ": (" ++ record raiseAt ++ ", " ++ record dropAfter ++ ")"
  "TriggerState \x7b cycle_frequency: " ++ frequency ++ ", delays: \x7b" ++ ", ".intercalate delays ++ "\x7d \x7d"

end TriggerDevice

end PulseSequencer
