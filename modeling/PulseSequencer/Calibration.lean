import PulseSequencer.Waveform.Combine

/-!
This module contains the modulation of a baseband pair onto a carrier, and the calibration record by which the pair is
distorted in advance so that an imperfect mixer puts out what was meant.
-/

namespace PulseSequencer

structure Calibration (α : Type) where
  iOffset : α
  qOffset : α
  iAmpFactor : α
  qAmpFactor : α
  iPhaseShift : α
  qPhaseShift : α
  iTimeOffset : α
  qTimeOffset : α
deriving Repr

/--
The direction in which a mixer shifts frequencies: the baseband turns with the negative carrier frequency on the way
up and with the positive one on the way down.
-/
inductive Conversion
  | up
  | down
deriving DecidableEq, Repr, Inhabited

namespace Calibration

variable {α : Type}

def ideal [Scalar α] : Calibration α :=
  ⟨0.0, 0.0, 1.0, 1.0, 0.0, 0.0, 0.0, 0.0⟩

inductive Field
  | iOffset
  | qOffset
  | iAmpFactor
  | qAmpFactor
  | iPhaseShift
  | qPhaseShift
  | iTimeOffset
  | qTimeOffset
deriving DecidableEq, Repr

namespace Field

def all : List Field :=
  [.iOffset, .qOffset, .iAmpFactor, .qAmpFactor, .iPhaseShift, .qPhaseShift, .iTimeOffset, .qTimeOffset]

def name : Field → String
  | .iOffset => "i_offset"
  | .qOffset => "q_offset"
  | .iAmpFactor => "i_amp_factor"
  | .qAmpFactor => "q_amp_factor"
  | .iPhaseShift => "i_phase_shift"
  | .qPhaseShift => "q_phase_shift"
  | .iTimeOffset => "i_time_offset"
  | .qTimeOffset => "q_time_offset"

def ofName? (name : String) : Option Field :=
  all.find? (·.name == name)

end Field

def get (c : Calibration α) : Field → α
  | .iOffset => c.iOffset
  | .qOffset => c.qOffset
  | .iAmpFactor => c.iAmpFactor
  | .qAmpFactor => c.qAmpFactor
  | .iPhaseShift => c.iPhaseShift
  | .qPhaseShift => c.qPhaseShift
  | .iTimeOffset => c.iTimeOffset
  | .qTimeOffset => c.qTimeOffset

def set (c : Calibration α) (field : Field) (value : α) : Calibration α :=
  match field with
  | .iOffset => { c with iOffset := value }
  | .qOffset => { c with qOffset := value }
  | .iAmpFactor => { c with iAmpFactor := value }
  | .qAmpFactor => { c with qAmpFactor := value }
  | .iPhaseShift => { c with iPhaseShift := value }
  | .qPhaseShift => { c with qPhaseShift := value }
  | .iTimeOffset => { c with iTimeOffset := value }
  | .qTimeOffset => { c with qTimeOffset := value }

@[simp]
theorem get_set_self (c : Calibration α) (field : Field) (value : α) : (c.set field value).get field = value := by
  cases field <;> rfl

theorem get_set_of_ne (c : Calibration α) {field other : Field} (value : α) (h : field ≠ other) :
    (c.set field value).get other = c.get other := by
  cases field <;> cases other <;> first | rfl | exact absurd rfl h

def text [NumberText α] (c : Calibration α) : String :=
  let fields := Field.all.map fun field => field.name ++ ": " ++ NumberText.record (c.get field)
  "IqCalibration \x7b " ++ ", ".intercalate fields ++ " \x7d"

end Calibration

structure CalibratedIq (α : Type) [Scalar α] where
  carried : Waveform α
  arms : Arms α

namespace CalibratedIq

variable {α : Type} [Scalar α]

def toWaveform (iq : CalibratedIq α) : Waveform α := .iq iq.carried iq.arms

def quadrature (q : Waveform α) : Waveform α :=
  q.carry (.dc q.width 1.0 (Scalar.pi / 2.0))

def baseband? : Option (Waveform α) → Option (Waveform α) → Option (Waveform α)
  | none, none => none
  | some i, none => some i
  | none, some q => some (quadrature q)
  | some i, some q => some (i.sum (quadrature q))

def angularFreq (carrierFreq : α) : α :=
  2.0 * Scalar.pi * carrierFreq

def carrier (width carrierFreq : α) (conversion : Conversion) : Waveform α :=
  let omega := angularFreq carrierFreq
  .complexExp ⟨width, 1.0, match conversion with | .up => -omega | .down => omega, 0.0⟩

/--
The arms for a record. A phase shift at the carrier frequency is a time shift, so there is nothing to correct without
a carrier.
-/
def calibrate (carrierFreq amplitude : α) (calibration : Option (Calibration α)) : Arms α :=
  let plain := ⟨carrierFreq, amplitude, 0.0, 0.0, 1.0, 1.0⟩
  match calibration with
  | none => plain
  | some record =>
    if carrierFreq == 0.0 then plain
    else
      let omega := angularFreq carrierFreq
      { plain with
        scaleI := record.iAmpFactor
        scaleQ := record.qAmpFactor
        shiftI := record.iPhaseShift / omega + record.iTimeOffset
        shiftQ := record.qPhaseShift / omega + record.qTimeOffset }

def create (carrierFreq : α) (i q : Option (Waveform α)) (calibration : Option (Calibration α))
    (conversion : Conversion) : Except (Error α) (CalibratedIq α) :=
  match baseband? i q with
  | none => .error .missingIqInput
  | some base =>
    .ok ⟨base.carry (carrier base.width carrierFreq conversion), calibrate carrierFreq base.amplitude calibration⟩

end CalibratedIq

end PulseSequencer
