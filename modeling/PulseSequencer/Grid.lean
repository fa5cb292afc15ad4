import PulseSequencer.Scalar

/-!
This module contains the sampling grid: how many points `i / rate` lie within a width, and how lengths are rounded up
to the granularity of a device.
-/

namespace PulseSequencer.Grid

variable {α : Type} [Scalar α]

def jitter : α := 1e-6

/--
The number of grid points `i / rate` in `[0, width)`. A product within the jitter of a whole number is that number.
-/
def sampleCount (width rate : α) : UInt64 :=
  if width ≤ 0.0 ∨ rate ≤ 0.0 then 0
  else
    let exact := width * rate
    let nearest := Scalar.round exact
    if Scalar.magnitude (exact - nearest) < jitter then Scalar.toCount nearest
    else Scalar.toCount (Scalar.ceil exact)

/--
The length rounded up to a multiple of the unit, if that is a word. A unit of zero is taken for one.
-/
def alignUp (length unit : UInt64) : Option UInt64 :=
  let unit := if unit = 0 then 1 else unit
  let groups := length / unit + if length % unit = 0 then 0 else 1
  if groups.toNat * unit.toNat < UInt64.size then some (groups * unit) else none

def time (rate : α) (i : Nat) : α := Scalar.ofCount i / rate

def times (rate : α) (n : Nat) : Array α :=
  Array.ofFn fun i : Fin n => time rate i

end PulseSequencer.Grid
