import PulseSequencer.Decimal.Notation
import PulseSequencer.Waveform.Value

/-!
This module contains the text of a waveform: a line for each node, with the operands indented below it.
-/

namespace PulseSequencer.Waveform

variable {α : Type} [Scalar α] [NumberText α]

open NumberText

def widthText (w : Waveform α) : String :=
  "width: " ++ scientific w.width ++ " s>"

def oscillationHeader (kind : String) (shape : Oscillation α) : String :=
  "<" ++ kind ++ ", amplitude: " ++ plain shape.amplitude ++ " V, omega: " ++ scientific shape.omega
    ++ " rad/s, phi: " ++ plain shape.phase ++ " rad, width: " ++ scientific shape.width ++ " s>"

def header (w : Waveform α) : String :=
  match w with
  | .dc _ amplitude phase =>
    if amplitude == 0.0 then
      "<Blank, " ++ w.widthText
    else
      "<DC, amplitude: " ++ plain amplitude ++ " V, phase: " ++ plain phase ++ " rad, " ++ w.widthText
  | .sin shape => oscillationHeader "Sin" shape
  | .cos shape => oscillationHeader "Cos" shape
  | .complexExp shape => oscillationHeader "ComplexExp" shape
  | .gaussian _ amplitude => "<Gaussian, amplitude: " ++ plain amplitude ++ " V, " ++ w.widthText
  | .sum .. => "<Sum, " ++ w.widthText
  | .carry .. => "<Carry, " ++ w.widthText
  | .sequence parts => "<Sequence, " ++ toString parts.length ++ " parts, " ++ w.widthText
  | .iq _ arms => "<CalibratedIQ, carrier: " ++ scientific arms.carrierFreq ++ " Hz, " ++ w.widthText
  | .real _ => "<Real, " ++ w.widthText
  | .imag _ => "<Imag, " ++ w.widthText

def indent (lines : List String) : List String :=
  lines.map ("  " ++ ·)

mutual

def lines (w : Waveform α) : List String :=
  match w with
  | .dc .. | .sin _ | .cos _ | .complexExp _ | .gaussian .. => [w.header]
  | .sum lhs rhs | .carry lhs rhs => w.header :: (indent lhs.lines ++ indent rhs.lines)
  | .sequence parts => w.header :: linesOfParts parts
  | .iq carried _ => w.header :: indent carried.lines
  | .real inner | .imag inner => w.header :: indent inner.lines

def linesOfParts : List (Waveform α) → List String
  | [] => []
  | part :: rest => indent part.lines ++ linesOfParts rest

end

def text (w : Waveform α) : String :=
  "\n".intercalate w.lines

end PulseSequencer.Waveform
