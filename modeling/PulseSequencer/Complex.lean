import PulseSequencer.Scalar

/-!
This module contains the complex numbers that waveforms take as values.
-/

namespace PulseSequencer

structure Complex (α : Type) where
  re : α
  im : α
deriving BEq, Repr

namespace Complex

variable {α : Type} [Scalar α]

def zero : Complex α := ⟨0.0, 0.0⟩

def ofReal (x : α) : Complex α := ⟨x, 0.0⟩

def ofPolar (radius angle : α) : Complex α :=
  ⟨radius * Scalar.cos angle, radius * Scalar.sin angle⟩

def add (z w : Complex α) : Complex α :=
  ⟨z.re + w.re, z.im + w.im⟩

def mul (z w : Complex α) : Complex α :=
  ⟨z.re * w.re - z.im * w.im, z.re * w.im + z.im * w.re⟩

instance : Add (Complex α) := ⟨add⟩
instance : Mul (Complex α) := ⟨mul⟩

@[simp]
theorem re_add (z w : Complex α) : (z + w).re = z.re + w.re := rfl

@[simp]
theorem im_add (z w : Complex α) : (z + w).im = z.im + w.im := rfl

@[simp]
theorem re_mul (z w : Complex α) : (z * w).re = z.re * w.re - z.im * w.im := rfl

@[simp]
theorem im_mul (z w : Complex α) : (z * w).im = z.re * w.im + z.im * w.re := rfl

end Complex

end PulseSequencer
