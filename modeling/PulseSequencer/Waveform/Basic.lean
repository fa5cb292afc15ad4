import PulseSequencer.Complex

/-!
This module contains waveforms: descriptions of complex-valued functions of time that vanish outside `[0, width)`.
-/

namespace PulseSequencer

/--
The shape of a periodic waveform. The frequency `omega` is an angular one, and `phase` is the angle at time zero.
-/
structure Oscillation (α : Type) where
  width : α
  amplitude : α
  omega : α
  phase : α
deriving BEq, Repr

/--
How the two arms of a modulated waveform are read off: each arm at a time of its own and with a factor of its own.
-/
structure Arms (α : Type) where
  carrierFreq : α
  amplitude : α
  shiftI : α
  shiftQ : α
  scaleI : α
  scaleQ : α
deriving BEq, Repr

/--
A waveform. Its width and the start times of its parts are kept with it, so that reading them does not walk through
what it is composed of; `width` and `starts` are their names outside of this declaration.
-/
inductive Waveform (α : Type) [Scalar α]
  | dc (width amplitude phase : α)
  | sin (shape : Oscillation α)
  | cos (shape : Oscillation α)
  | complexExp (shape : Oscillation α)
  /-- A bell around the middle of its width that has half its height over half its width. -/
  | gaussian (width amplitude : α)
  | sum (lhs rhs : Waveform α)
  /-- The pointwise product. -/
  | carry (lhs rhs : Waveform α)
  | sequence (parts : List (Waveform α))
  /-- A modulated waveform with calibrated arms: one is the real part and the other the imaginary part. -/
  | iq (carried : Waveform α) (arms : Arms α)
  | real (inner : Waveform α)
  | imag (inner : Waveform α)
with
  @[computed_field]
  keptWidth : (α : Type) → (numbers : Scalar α) → Waveform α → α
    | α, numbers, w =>
      match w with
      | .dc width _ _ | .gaussian width _ => width
      | .sin shape | .cos shape | .complexExp shape => shape.width
      | .sum lhs rhs | .carry lhs rhs => Scalar.maximum (keptWidth α numbers lhs) (keptWidth α numbers rhs)
      | .sequence parts => parts.foldl (fun start part => start + keptWidth α numbers part) 0.0
      | .iq carried _ => keptWidth α numbers carried
      | .real inner | .imag inner => keptWidth α numbers inner
  @[computed_field]
  keptStarts : (α : Type) → (numbers : Scalar α) → Waveform α → Array α
    | α, numbers, w =>
      match w with
      | .sequence parts =>
        parts.foldl (fun starts part => starts.push (starts.back?.getD 0.0 + keptWidth α numbers part)) #[0.0]
      | _ => #[]
deriving Repr, Inhabited

namespace Oscillation

variable {α : Type} [Scalar α]

def angle (shape : Oscillation α) (t : α) : α :=
  shape.omega * t + shape.phase

def scale (shape : Oscillation α) (factor : α) : Oscillation α :=
  { shape with amplitude := shape.amplitude * factor }

end Oscillation

namespace Waveform

variable {α : Type} [Scalar α]

def blank (width : α) : Waveform α := .dc width 0.0 0.0

def instant (amplitude : α) : Waveform α := .dc 0.0 amplitude 0.0

def isBlank : Waveform α → Bool
  | .dc _ amplitude _ => amplitude == 0.0
  | _ => false

def width (w : Waveform α) : α := keptWidth α inferInstance w

def endOf (start : α) : List (Waveform α) → α
  | [] => start
  | part :: rest => endOf (start + part.width) rest

def startsFrom (start : α) : List (Waveform α) → List α
  | [] => [start]
  | part :: rest => start :: startsFrom (start + part.width) rest

def starts (w : Waveform α) : Array α := keptStarts α inferInstance w

section

variable (lhs rhs inner : Waveform α)

@[simp]
theorem width_dc (width amplitude phase : α) : (dc width amplitude phase).width = width := by
  simp [Waveform.width, keptWidth]

@[simp]
theorem width_sin (shape : Oscillation α) : (sin shape).width = shape.width := by
  simp [width, keptWidth]

@[simp]
theorem width_cos (shape : Oscillation α) : (cos shape).width = shape.width := by
  simp [width, keptWidth]

@[simp]
theorem width_complexExp (shape : Oscillation α) : (complexExp shape).width = shape.width := by
  simp [width, keptWidth]

@[simp]
theorem width_gaussian (width amplitude : α) : (gaussian width amplitude).width = width := by
  simp [Waveform.width, keptWidth]

@[simp]
theorem width_sum : (sum lhs rhs).width = Scalar.maximum lhs.width rhs.width := by
  simp [width, keptWidth]

@[simp]
theorem width_carry : (carry lhs rhs).width = Scalar.maximum lhs.width rhs.width := by
  simp [width, keptWidth]

@[simp]
theorem width_iq (arms : Arms α) : (iq inner arms).width = inner.width := by
  simp [width, keptWidth]

@[simp]
theorem width_real : (real inner).width = inner.width := by
  simp [width, keptWidth]

@[simp]
theorem width_imag : (imag inner).width = inner.width := by
  simp [width, keptWidth]

end

theorem endOf_eq_foldl (start : α) (parts : List (Waveform α)) :
    endOf start parts = parts.foldl (fun start part => start + part.width) start := by
  induction parts generalizing start with
  | nil => rfl
  | cons part rest ih => simp [endOf, ih]

@[simp]
theorem width_sequence (parts : List (Waveform α)) : (sequence parts).width = endOf 0.0 parts := by
  rw [endOf_eq_foldl]
  simp [width, keptWidth]

theorem foldl_push_start (before : Array α) (start : α) (parts : List (Waveform α)) :
    parts.foldl (fun starts part => starts.push (starts.back?.getD 0.0 + part.width)) (before.push start)
      = before ++ (startsFrom start parts).toArray := by
  induction parts generalizing before start with
  | nil => simp [startsFrom]
  | cons part rest ih => simp [startsFrom, ih]

theorem starts_sequence (parts : List (Waveform α)) :
    (sequence parts).starts = (startsFrom 0.0 parts).toArray := by
  have := foldl_push_start #[] 0.0 parts
  simpa [starts, keptStarts, width] using this

/--
The nominal amplitude. A composed waveform has the amplitude one, the parts of a complex one that of the whole.
-/
def amplitude : Waveform α → α
  | .dc _ amplitude _ | .gaussian _ amplitude => amplitude
  | .sin shape | .cos shape | .complexExp shape => shape.amplitude
  | .sum .. | .carry .. | .sequence _ => 1.0
  | .iq _ arms => arms.amplitude
  | .real inner | .imag inner => inner.amplitude

mutual

def beq : Waveform α → Waveform α → Bool
  | .dc w a p, .dc w' a' p' => w == w' && a == a' && p == p'
  | .sin o, .sin o' | .cos o, .cos o' | .complexExp o, .complexExp o' => o == o'
  | .gaussian w a, .gaussian w' a' => w == w' && a == a'
  | .sum l r, .sum l' r' | .carry l r, .carry l' r' => beq l l' && beq r r'
  | .sequence ps, .sequence ps' => beqParts ps ps' && startsFrom 0.0 ps == startsFrom 0.0 ps'
  | .iq c a, .iq c' a' => beq c c' && a == a'
  | .real i, .real i' | .imag i, .imag i' => beq i i'
  | _, _ => false

def beqParts : List (Waveform α) → List (Waveform α) → Bool
  | [], [] => true
  | p :: rest, p' :: rest' => beq p p' && beqParts rest rest'
  | _, _ => false

end

instance : BEq (Waveform α) := ⟨beq⟩

end Waveform

end PulseSequencer
