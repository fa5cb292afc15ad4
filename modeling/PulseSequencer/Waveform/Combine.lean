import PulseSequencer.Waveform.Basic
import PulseSequencer.Error

/-!
This module contains how waveforms are put one after the other and how they are multiplied by a number.
-/

namespace PulseSequencer.Waveform

variable {α : Type} [Scalar α]

def parts : Waveform α → List (Waveform α)
  | .sequence parts => parts
  | w => [w]

def ofParts (ws : List (Waveform α)) : Waveform α :=
  .sequence (ws.flatMap parts)

def concat (w next : Waveform α) : Waveform α :=
  ofParts [w, next]

def appendTo (w previous : Waveform α) : Waveform α :=
  previous.concat w

@[simp]
theorem parts_sequence (ps : List (Waveform α)) : (sequence ps).parts = ps := rfl

@[simp]
theorem parts_concat (w next : Waveform α) : (w.concat next).parts = w.parts ++ next.parts := by
  simp [concat, ofParts]

theorem concat_assoc (a b c : Waveform α) : (a.concat b).concat c = a.concat (b.concat c) := by
  simp [concat, ofParts]

mutual

def scale (factor : α) : Waveform α → Except (Error α) (Waveform α)
  | .dc width amplitude phase => .ok (.dc width (amplitude * factor) phase)
  | .sin shape => .ok (.sin (shape.scale factor))
  | .cos shape => .ok (.cos (shape.scale factor))
  | .complexExp shape => .ok (.complexExp (shape.scale factor))
  | .gaussian width amplitude => .ok (.gaussian width (amplitude * factor))
  | .sum lhs rhs =>
    match scale factor lhs, scale factor rhs with
    | .ok lhs, .ok rhs => .ok (.sum lhs rhs)
    | .error cause, _ | _, .error cause => .error cause
  | .carry lhs rhs => (scale factor lhs).map (.carry · rhs)
  | .sequence parts => (scaleAll factor parts).map ofParts
  | .iq .. => .error .scaleCalibrated
  | .real inner => (scale factor inner).map .real
  | .imag inner => (scale factor inner).map .imag

def scaleAll (factor : α) : List (Waveform α) → Except (Error α) (List (Waveform α))
  | [] => .ok []
  | part :: rest =>
    match scale factor part, scaleAll factor rest with
    | .ok part, .ok rest => .ok (part :: rest)
    | .error cause, _ | _, .error cause => .error cause

end

def negate (w : Waveform α) : Except (Error α) (Waveform α) :=
  w.scale (-1.0)

end PulseSequencer.Waveform
