import PulseSequencer.Outcome
import PulseSequencer.Table

/-!
This module contains what is common to all instruments: who implements them, how their failures are arranged, and what
they answer.
-/

namespace PulseSequencer

inductive Driver
  | memory
  | scripted
deriving DecidableEq, Repr

abbrev Faults := Table Operation String

namespace Faults

def arrange (faults : Faults) (operation : Operation) : Option String → Faults
  | some message => faults.insert operation message
  | none => faults.erase operation

end Faults

structure Reply (α δ ρ : Type) where
  result : Except DeviceError ρ
  device : δ
  events : List (Event α)

def Driver.failureEvents {α : Type} (driver : Driver) (message : String) : List (Event α) :=
  match driver with
  | .memory => []
  | .scripted => [.driverRaised message]

end PulseSequencer
