import PulseSequencer.Waveform.Basic

/-!
This module contains the values of waveforms over time. The part of a sequence that plays at a time is found by
halving the list of start times.
-/

namespace PulseSequencer

/--
The number of elements at the front of an array for which a property holds, provided that it holds for none behind
them. The stretch `[base, base + size)` that holds the last of them is halved until one element is left.
-/
def countFront {β : Type} (p : β → Bool) (xs : Array β) : Nat :=
  go 0 xs.size
where
  go (base size : Nat) : Nat :=
    if _ : 1 < size then
      let half := size / 2
      go (if xs[base + half]?.any p then base + half else base) (size - half)
    else if xs[base]?.any p then base + 1 else base
  termination_by size

namespace Waveform

variable {α : Type} [Scalar α]

def plays (width t : α) : Bool :=
  0.0 ≤ t && t < width

/--
The ratio of the width of a bell to its standard deviation.
-/
def gaussianSpread : α := 4.0 * Scalar.sqrt (2.0 * Scalar.ln2)

mutual

def value (w : Waveform α) (t : α) : Complex α :=
  if plays w.width t then
    match w with
    | .dc _ amplitude phase => if phase == 0.0 then .ofReal amplitude else .ofPolar amplitude phase
    | .sin shape => .ofReal (shape.amplitude * Scalar.sin (shape.angle t))
    | .cos shape => .ofReal (shape.amplitude * Scalar.cos (shape.angle t))
    | .complexExp shape => .ofPolar shape.amplitude (shape.angle t)
    | .gaussian width amplitude =>
      let x := (t - width / 2.0) / (width / gaussianSpread)
      .ofReal (amplitude * Scalar.exp (-0.5 * x * x))
    | .sum lhs rhs => lhs.value t + rhs.value t
    | .carry lhs rhs => lhs.value t * rhs.value t
    | .sequence parts =>
      let starts := w.starts
      match countFront (· ≤ t) starts with
      | 0 => .zero
      | k + 1 => valueOfPart parts k (t - starts.getD k 0.0)
    | .iq carried arms =>
      ⟨(carried.value (t + arms.shiftI)).re * arms.scaleI, (carried.value (t + arms.shiftQ)).im * arms.scaleQ⟩
    | .real inner => .ofReal (inner.value t).re
    | .imag inner => .ofReal (inner.value t).im
  else
    .zero

def valueOfPart : List (Waveform α) → Nat → α → Complex α
  | [], _, _ => .zero
  | part :: _, 0, t => part.value t
  | _ :: rest, k + 1, t => valueOfPart rest k t

end

def realValue (w : Waveform α) (t : α) : α :=
  (w.value t).re

end Waveform

end PulseSequencer
