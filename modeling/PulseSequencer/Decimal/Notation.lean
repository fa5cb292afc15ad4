import PulseSequencer.Decimal.Shortest
import PulseSequencer.Scalar

/-!
This module contains the ways in which numbers are written: plainly, with an exponent, as a field of a record, and
with a fixed number of places.
-/

namespace PulseSequencer

namespace Decimal

structure Layout where
  isScientific : Int → Bool
  wholeTail : String

def plain : Layout := ⟨fun _ => false, ""⟩

def scientific : Layout := ⟨fun _ => true, ""⟩

/--
The layout of a field of a record: an exponent below `10 ^ -4` and from `10 ^ 16` on, and else at least one digit
after the point.
-/
def record : Layout := ⟨fun exponent => exponent < -4 || 16 ≤ exponent, ".0"⟩

namespace Digits

def renderScientific (d : Digits) : String :=
  let fraction := d.digits.drop 1
  let point := if fraction.isEmpty then "" else "."
  String.ofList (d.digits.take 1) ++ point ++ String.ofList fraction ++ "e" ++ toString d.exponent

def renderPositional (d : Digits) (wholeTail : String) : String :=
  if d.exponent < 0 then
    "0." ++ String.ofList (List.replicate ((-d.exponent).toNat - 1) '0' ++ d.digits)
  else
    let places := d.exponent.toNat + 1
    let whole := d.digits.take places ++ List.replicate (places - d.digits.length) '0'
    let fraction := d.digits.drop places
    let tail := if fraction.isEmpty then wholeTail else "." ++ String.ofList fraction
    String.ofList whole ++ tail

end Digits

def Layout.renderDigits (layout : Layout) (d : Digits) : String :=
  if layout.isScientific d.exponent then d.renderScientific else d.renderPositional layout.wholeTail

def signText (negative : Bool) : String :=
  if negative then "-" else ""

def Layout.render (layout : Layout) (x : Float) : String :=
  match Reading.ofFloat x with
  | .undefined => "NaN"
  | .infinite negative => signText negative ++ "inf"
  | .finite negative magnitude => signText negative ++ layout.renderDigits magnitude.shortest

/--
Write a double with the given number of places after the point, rounded to the nearest such number, a tie going to
the even one.
-/
def renderFixed (places : Nat) (x : Float) : String :=
  match Reading.ofFloat x with
  | .undefined => "NaN"
  | .infinite negative => signText negative ++ "inf"
  | .finite negative magnitude =>
    let scaled := (magnitude.toRatio.shift 10 places).roundEven
    let unit := Nat.pow 10 places
    let fraction := Nat.toDigits 10 (scaled % unit)
    let padded := List.replicate (places - fraction.length) '0' ++ fraction
    let tail := if places = 0 then "" else "." ++ String.ofList padded
    signText negative ++ toString (scaled / unit) ++ tail

end Decimal

/--
How the numbers of a type are written in texts meant for people. What exactly is written matters to nobody but the
reader, so statements about texts can hold for every choice.
-/
class NumberText (α : Type) where
  plain : α → String
  scientific : α → String
  record : α → String

instance : NumberText Float where
  plain := Decimal.plain.render
  scientific := Decimal.scientific.render
  record := Decimal.record.render

end PulseSequencer
