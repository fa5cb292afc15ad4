import PulseSequencer.Scalar

/-!
This module contains the laws of arithmetic on which the upkeep of flattened and compiled waveforms rests: to add zero to
a time does not show in a gap, and no time is apart from itself. The order that triggers are sorted by has laws as well.
All of them hold of exact numbers and of machine floating point.
-/

namespace PulseSequencer.Scalar

/--
Numbers to which zero can be added without an effect on any gap above the tolerance. A negative zero may turn into a
positive one.
-/
class NeutralZero (α : Type) [Scalar α] : Prop where
  gap_add_zero (a b : α) : tolerance < a + 0.0 - b ∨ tolerance < a - b → a + 0.0 - b = a - b

/--
Numbers none of which is apart from itself, undefined ones included.
-/
class SelfNear (α : Type) [Scalar α] : Prop where
  apart_self (a : α) : apart a a = false

/--
Numbers that can be sorted by their total order, which puts no number in front of a smaller one.
-/
class TotallyOrdered (α : Type) [Scalar α] : Prop where
  total (a b : α) : totalLE a b = true ∨ totalLE b a = true
  trans {a b c : α} : totalLE a b = true → totalLE b c = true → totalLE a c = true
  not_lt {a b : α} : totalLE a b = true → ¬ b < a

end PulseSequencer.Scalar
