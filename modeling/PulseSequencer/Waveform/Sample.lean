import PulseSequencer.Grid
import PulseSequencer.Waveform.Value

/-!
This module contains the buffers that are filled with the values of a waveform on a sampling grid.
-/

namespace PulseSequencer.Waveform

variable {α : Type} [Scalar α]

def sampleCount (w : Waveform α) (rate : α) : UInt64 :=
  Grid.sampleCount w.width rate

def valuesAt (w : Waveform α) (times : Array α) : Array α :=
  times.map w.realValue

def evaluate (w : Waveform α) (times : Array α) : Array α :=
  go 0 times
where
  go (i : Nat) (buffer : Array α) : Array α :=
    if h : i < buffer.size then go (i + 1) (buffer.set i (w.realValue buffer[i])) else buffer
  termination_by buffer.size - i
  decreasing_by
    rw [Array.size_set]
    omega

def overwrite? {β : Type} (head buffer : Array β) : Option (Array β) :=
  if head.size ≤ buffer.size then some (head ++ buffer.extract head.size) else none

/--
The real parts on the grid, followed by zeros up to a multiple of the unit, if so many samples can be counted.
-/
def sample (w : Waveform α) (rate : α) (unit : UInt64) : Option (Array α) :=
  let count := w.sampleCount rate
  (Grid.alignUp count unit).bind fun length =>
  overwrite? (w.evaluate (Grid.times rate count.toNat)) (Array.replicate length.toNat 0.0)

def sampleComplex (w : Waveform α) (rate : α) (unit : UInt64) : Option (Array (Complex α)) :=
  let count := w.sampleCount rate
  (Grid.alignUp count unit).bind fun length =>
  overwrite? ((Grid.times rate count.toNat).map w.value) (Array.replicate length.toNat .zero)

def peak (samples : Array α) : α :=
  samples.foldl (fun acc v => Scalar.maximum acc (Scalar.magnitude v)) 0.0

/--
The samples divided by their peak, and the peak. Samples that are all zero stay as they are.
-/
def normalize (samples : Array α) : Array α × α :=
  let top := peak samples
  (if 0.0 < top then samples.map (· / top) else samples, top)

def normalizedSample (w : Waveform α) (rate : α) (unit : UInt64) : Option (Array α × α) :=
  (w.sample rate unit).map normalize

end PulseSequencer.Waveform
