import PulseSequencer.Bench
import PulseSequencer.Calibration
import PulseSequencer.Waveform.Text

/-!
This module contains a demonstration: a cycle that drives and reads out is loaded on devices in memory, and then one
pulse is stretched.
-/

namespace PulseSequencer.Demo

abbrev Pass := ExceptT (Error Float) (StateM (Sequence Float × List (Event Float)))

def apply {β : Type} (operation : Sequence Float → Outcome Float (Sequence Float) β) : Pass β := do
  let (q, log) ← get
  let o := operation q
  set (o.state, log ++ o.events)
  ExceptT.mk (pure o.result)

def update {β : Type} (operation : Sequence Float → Except (Error Float) (Sequence Float × β)) : Pass β :=
  apply fun q =>
    match operation q with
    | .ok (q, value) => .done value q
    | .error cause => .failed cause q

def edit (operation : Sequence Float → Except (Error Float) (Sequence Float)) : Pass Unit :=
  update fun q => (operation q).map (·, ())

def given {β : Type} (value : Except (Error Float) β) : Pass β :=
  ExceptT.mk (pure value)

def mixer : Calibration Float :=
  { Calibration.ideal with iOffset := 0.012, qOffset := -0.008, qAmpFactor := 0.97, qPhaseShift := 0.03 }

def pulse (width amplitude : Float) : Except (Error Float) (Waveform Float) :=
  (CalibratedIq.create 50e6 (some (.gaussian width amplitude)) none (some mixer) .up).map (·.toWaveform)

def summary (q : Sequence Float) (name : String) : List String :=
  match (q.registry.findChannel? name).bind q.devices.get? with
  | none => []
  | some device =>
    [name ++ ": " ++ toString device.state.samples.size ++ " samples, peak "
      ++ Decimal.renderFixed 3 device.state.amplitude ++ " V, offset "
      ++ Decimal.plain.render device.state.offset ++ " V"]

def addDrive (w : Waveform Float) : Pass Unit := do
  edit (·.addWaveform "drive/pi_pulse" "drive_i" w.real)
  edit (·.addWaveform "drive/pi_pulse" "drive_q" w.imag)

def lines : Pass (List String) := do
  let driveTrigger ← update (·.addTrigger "drive_trig" 1 0.0 Registry.defaultDropAfter)
  let probeTrigger ← update (·.addTrigger "probe_trig" 2 2e-6 Registry.defaultDropAfter)
  let names := ["drive_i", "drive_q", "probe"]
  for (trigger, name) in [driveTrigger, driveTrigger, probeTrigger].zip names do
    let _ ← update (·.linkChannel trigger name (.memory 1e9 16))
  let drive ← given ((Slice.flex "drive").addSub (.flex "pi_pulse"))
  edit (·.addSlice (.fixedLength "wait" 2e-6))
  edit (·.addSlice drive)
  addDrive (← given (pulse 40e-9 0.6))
  let (q, _) ← get
  let probe ← given (q.registry.channelId "probe")
  let tone : Waveform Float := .cos ⟨1e-6, 0.25, 2.0 * Scalar.pi * 20e6, 0.0⟩
  edit (·.addSlice ((Slice.fixed "readout" 4e-6 2e-6).addWaveform probe tone))
  apply (·.applyOffsets "drive_i" "drive_q" mixer.iOffset mixer.qOffset)
  let _ ← apply (·.setup)
  apply (·.runChannels)
  let (q, _) ← get
  let driveI ← given (q.registry.channelId "drive_i")
  let compiled := match q.compiled? driveI with
    | some w => w.lines
    | none => []
  edit (·.clearWaveform "drive/pi_pulse" "drive_i")
  edit (·.clearWaveform "drive/pi_pulse" "drive_q")
  addDrive (← given (pulse 80e-9 0.3))
  let count ← apply (·.setupChannels)
  return [q.triggerDevice.text] ++ names.flatMap (summary q) ++ compiled
    ++ ["reprogrammed " ++ toString count ++ " channel(s)"]

def run : Except (Error Float) (List String) × List (Event Float) :=
  let (result, _, log) := (lines.run).run (.create .memory 10e3, [])
  (result, log)

end PulseSequencer.Demo
