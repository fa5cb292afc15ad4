/-!
This module contains the number type that waveforms, slices and devices are computed with: a class of
operations without laws, and its instance on machine floating point. Everything else in the library is
written over the class, so that the same definitions run on `Float` and can be read over exact numbers.
-/

namespace PulseSequencer

class Scalar (α : Type) extends Add α, Sub α, Mul α, Div α, Neg α, OfScientific α, LT α, LE α, BEq α where
  decidableLT : DecidableLT α
  decidableLE : DecidableLE α
  ofCount : Nat → α
  /-- The whole part of a number as a 64-bit count: below zero and undefined give `0`, too large the last count. -/
  toCount : α → UInt64
  /-- The nearest whole number, a half going away from zero. -/
  round : α → α
  ceil : α → α
  sqrt : α → α
  exp : α → α
  sin : α → α
  cos : α → α
  pi : α
  ln2 : α
  /-- A total order on all values, used for sorting: negative zero is before zero, undefined values are outermost. -/
  totalLE : α → α → Bool

namespace Scalar

variable {α : Type} [Scalar α]

instance (a b : α) : Decidable (a < b) := decidableLT a b

instance (a b : α) : Decidable (a ≤ b) := decidableLE a b

/--
The larger of two numbers. An undefined operand yields the other one, and of two equal ones the first is kept.
-/
def maximum (a b : α) : α :=
  if a < b then b else if a == a then a else b

def magnitude (a : α) : α :=
  if a < 0.0 then -a else a

/--
Tolerance, in seconds, of every comparison of widths and durations on the cycle timeline.
-/
def tolerance : α := 1e-15

def apart (a b : α) : Bool :=
  decide (tolerance < magnitude (a - b))

/--
The key by which the bit pattern of a double sorts in the total order: negative numbers have all their bits but
the sign flipped.
-/
def sortKey (x : Float) : Int64 :=
  let bits := x.toBits.toInt64
  if bits < 0 then bits ^^^ 0x7FFFFFFFFFFFFFFF else bits

end Scalar

instance : Scalar Float where
  decidableLT := Float.decLt
  decidableLE := Float.decLe
  ofCount := Float.ofNat
  toCount := Float.toUInt64
  round := Float.round
  ceil := Float.ceil
  sqrt := Float.sqrt
  exp := Float.exp
  sin := Float.sin
  cos := Float.cos
  pi := 3.141592653589793
  ln2 := 0.6931471805599453
  totalLE a b := decide (Scalar.sortKey a ≤ Scalar.sortKey b)

end PulseSequencer
