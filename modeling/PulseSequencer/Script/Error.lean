import PulseSequencer.Calibration

/-!
This module contains the option words of the script interface and the errors that a script sees.
-/

namespace PulseSequencer.Script

inductive ScriptError (α : Type)
  | library (cause : Error α)
  | badConversion (word : String)
  | badPadding (word : String)
deriving Repr, Inhabited

namespace ScriptError

variable {α : Type}

def isBadValue : ScriptError α → Bool
  | library cause => cause.isDescription
  | badConversion _ | badPadding _ => true

def message [NumberText α] : ScriptError α → String
  | library cause => cause.fullMessage
  | badConversion word => "conversion must be 'up' or 'down', got '" ++ word ++ "'"
  | badPadding word => "padding must be 'before' or 'behind', got '" ++ word ++ "'"

end ScriptError

def conversionOfWord {α : Type} : String → Except (ScriptError α) Conversion
  | "up" => .ok .up
  | "down" => .ok .down
  | word => .error (.badConversion word)

end PulseSequencer.Script
