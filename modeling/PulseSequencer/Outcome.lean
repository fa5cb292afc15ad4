import PulseSequencer.Error

/-!
This module contains what an operation on a slice, an instrument or a sequence leaves behind: a result or an error, a
state, and the events worth a line in a log.
-/

namespace PulseSequencer

inductive Level
  | debug
  | info
  | warning
deriving DecidableEq, Repr

inductive Origin
  | slice
  | sequence
  | driver
deriving DecidableEq, Repr

inductive Event (α : Type)
  | sliceFlattened (slice : String) (rebuilt : Nat)
  | slicePlaced (slice channel : String) (start : α)
  | compiled (channels : Nat)
  | compileFailed (queued : Nat) (cause : Error α)
  | triggerDeviceSetUp (frequency : α)
  | programmed (channels : Nat)
  | driverWrapped (minUnit : Nat)
  | driverRaised (message : String)
  | bufferWritten (samples : Nat) (amplitude : α)
deriving Repr

namespace Event

variable {α : Type}

def level : Event α → Level
  | compileFailed .. => .warning
  | triggerDeviceSetUp .. | programmed .. => .info
  | sliceFlattened .. | slicePlaced .. | compiled .. | driverWrapped .. | driverRaised .. | bufferWritten .. => .debug

def origin : Event α → Origin
  | sliceFlattened .. => .slice
  | slicePlaced .. | compiled .. | compileFailed .. | triggerDeviceSetUp .. | programmed .. => .sequence
  | driverWrapped .. | driverRaised .. | bufferWritten .. => .driver

open NumberText in
def text [NumberText α] : Event α → String
  | sliceFlattened slice rebuilt =>
    "Flattened slice " ++ slice ++ ": " ++ toString rebuilt ++ " channel(s) rebuilt"
  | slicePlaced slice channel start =>
    "Placed slice " ++ slice ++ " on channel " ++ channel ++ " at " ++ scientific start ++ " s"
  | compiled channels => "Compiled " ++ toString channels ++ " channel(s)"
  | compileFailed queued cause =>
    "Compile failed, " ++ toString queued ++ " channel(s) queued for the next attempt: " ++ cause.message
  | triggerDeviceSetUp frequency => "Trigger device set up at " ++ plain frequency ++ " Hz"
  | programmed channels => "Programmed " ++ toString channels ++ " channel(s)"
  | driverWrapped minUnit => "Wrapped Python AWG channel, min_unit = " ++ toString minUnit
  | driverRaised message => "Python driver raised: " ++ message
  | bufferWritten samples amplitude =>
    "Writing " ++ toString samples ++ " samples, amplitude " ++ plain amplitude ++ " V"

end Event

structure Outcome (α σ ρ : Type) where
  result : Except (Error α) ρ
  state : σ
  events : List (Event α)

namespace Outcome

variable {α σ ρ τ : Type}

def done (value : ρ) (state : σ) : Outcome α σ ρ := ⟨.ok value, state, []⟩

def failed (cause : Error α) (state : σ) : Outcome α σ ρ := ⟨.error cause, state, []⟩

def andThen (first : Outcome α σ ρ) (next : ρ → σ → Outcome α σ τ) : Outcome α σ τ :=
  match first with
  | ⟨.ok value, state, events⟩ =>
    let second := next value state
    ⟨second.result, second.state, events ++ second.events⟩
  | ⟨.error cause, state, events⟩ => ⟨.error cause, state, events⟩

def mapState (o : Outcome α σ ρ) (f : σ → τ) : Outcome α τ ρ :=
  ⟨o.result, f o.state, o.events⟩

end Outcome

end PulseSequencer
