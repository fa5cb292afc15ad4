import PulseSequencer.Decimal.Notation
import PulseSequencer.Text.Quoted
import PulseSequencer.Text.Name

/-!
This module contains what can go wrong between the description of a cycle and its play, with the texts that say so.
-/

namespace PulseSequencer

inductive NameKind
  | channel
  | trigger
  | slice
deriving DecidableEq, Repr

def NameKind.word : NameKind → String
  | .channel => "channel"
  | .trigger => "trigger"
  | .slice => "slice"

inductive Operation
  | sampleRate
  | stop
  | run
  | setOffset
  | writeRawWaveform
  | setCycleFrequency
  | setChannelDelay
deriving DecidableEq, Repr

def Operation.name : Operation → String
  | .sampleRate => "sample_rate"
  | .stop => "stop"
  | .run => "run"
  | .setOffset => "set_offset"
  | .writeRawWaveform => "write_raw_waveform"
  | .setCycleFrequency => "set_cycle_frequency"
  | .setChannelDelay => "set_channel_delay"

structure DeviceError where
  message : String
deriving DecidableEq, Repr

/--
Why an operation was refused. What is at fault in the description is named as it was there.
-/
inductive Error (α : Type)
  | conflictingWaveform (slice channel : String)
  | fixedSliceNested (parent child : String)
  | scaleCalibrated
  | missingIqInput
  | duplicateName (kind : NameKind) (name : String) (registered : List String)
  | invalidName (kind : NameKind) (name : String)
  | preTrigger (slice channel : String) (start raiseAt : α)
  | overlap (slice channel : String) (compiledWidth available : α)
  | sliceOverflow (slice channel : String) (width duration : α)
  | cycleOverflow (slice : String) (finish cycleEnd : α)
  | unlinkedChannel (channel : String)
  | notCompiled
  | unknown (kind : NameKind) (name : String)
  | device (channel : String) (operation : Operation) (cause : DeviceError)
  /-- A number of samples is not a word. The program ends there and then, so that nothing can be done about it. -/
  | overflow
deriving Repr, Inhabited

namespace Error

variable {α : Type}

/--
Whether the description of the cycle is at fault, and not the use of the library or an instrument.
-/
def isDescription : Error α → Bool
  | conflictingWaveform .. | fixedSliceNested .. | scaleCalibrated | missingIqInput | duplicateName .. => true
  | invalidName .. | preTrigger .. | overlap .. | sliceOverflow .. | cycleOverflow .. => true
  | unlinkedChannel .. | notCompiled | unknown .. | device .. | overflow => false

def cause? : Error α → Option DeviceError
  | device _ _ cause => some cause
  | _ => none

variable [NumberText α]

open NumberText in
def message : Error α → String
  | conflictingWaveform slice channel =>
    "Waveform for channel " ++ channel ++ " defined in both slice " ++ slice ++ " and one of its sub slices"
  | fixedSliceNested parent child =>
    "Fixed slice " ++ child ++ " can not be added into slice " ++ parent ++ ": fixed slices are top-level only"
  | scaleCalibrated => "Calibrated IQ waveforms can not be scaled once the calibration is applied"
  | missingIqInput => "Calibrated IQ waveform needs at least one of the I and Q waveforms"
  | duplicateName kind name registered =>
    kind.word ++ " " ++ name ++ " already registered. Registered names are " ++ Text.quotedList registered
  | invalidName kind name =>
    "Invalid " ++ kind.word ++ " name " ++ Text.quoted name
      ++ ": expecting letters, digits and `_.:-`, not starting with a digit"
  | preTrigger slice channel start raiseAt =>
    "Waveform assigned to channel before it is triggered (slice " ++ slice ++ " starts at " ++ scientific start
      ++ " s, channel " ++ channel ++ " is triggered at " ++ scientific raiseAt ++ " s)"
  | overlap slice channel compiledWidth available =>
    "Waveform overlap detected on channel " ++ channel ++ " in slice " ++ slice
      ++ ": compiled waveform already lasts " ++ scientific compiledWidth ++ " s but the slice starts "
      ++ scientific available ++ " s after the trigger"
  | sliceOverflow slice channel width duration =>
    "Waveform of slice " ++ slice ++ " on channel " ++ channel ++ " lasts " ++ scientific width
      ++ " s, longer than the slice duration " ++ scientific duration ++ " s"
  | cycleOverflow slice finish cycleEnd =>
    "Out of range. Slice " ++ slice ++ " ends at " ++ scientific finish
      ++ " s, while each trigger cycle ends at " ++ scientific cycleEnd ++ " s"
  | unlinkedChannel channel => "Channel " ++ channel ++ " is not linked to any trigger"
  | notCompiled => "Sequence has not been compiled and programmed yet, run setup_channels() first"
  | unknown kind name => "There is no " ++ kind.word ++ " " ++ name ++ " registered"
  | device channel operation _ => "Device operation `" ++ operation.name ++ "` failed on channel " ++ channel
  | overflow => "attempt to multiply with overflow"

def fullMessage (e : Error α) : String :=
  match e.cause? with
  | none => e.message
  | some cause => e.message ++ ": " ++ cause.message

end Error

def checkName {α : Type} (kind : NameKind) (name : String) : Except (Error α) Unit :=
  if Text.isName name then .ok () else .error (.invalidName kind name)

end PulseSequencer
