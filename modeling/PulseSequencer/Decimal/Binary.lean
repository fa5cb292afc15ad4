/-!
This module contains the exact reading of a double: a sign, and a whole number times a power of two.
-/

namespace PulseSequencer.Decimal

/--
The magnitude of a finite double, `mantissa * 2 ^ exponent`. `narrow` holds if the gap to the double below is half
the gap to the double above, which is so at a power of two.
-/
structure Binary where
  mantissa : Nat
  exponent : Int
  narrow : Bool
deriving DecidableEq, Repr

inductive Reading
  | undefined
  | infinite (negative : Bool)
  | finite (negative : Bool) (magnitude : Binary)
deriving DecidableEq, Repr

def Reading.ofBits (bits : UInt64) : Reading :=
  let negative := bits >>> 63 == 1
  let biased := ((bits >>> 52) &&& 0x7FF).toNat
  let fraction := (bits &&& 0xFFFFFFFFFFFFF).toNat
  if biased = 0x7FF then
    if fraction = 0 then .infinite negative else .undefined
  else if biased = 0 then
    .finite negative ⟨fraction, -1074, false⟩
  else
    .finite negative ⟨0x10000000000000 + fraction, biased - 1075, fraction == 0 && 1 < biased⟩

def Reading.ofFloat (x : Float) : Reading :=
  ofBits x.toBits

structure Ratio where
  num : Nat
  den : Nat
deriving DecidableEq, Repr

namespace Ratio

def shift (r : Ratio) (base : Nat) (power : Int) : Ratio :=
  ⟨r.num * base.pow power.toNat, r.den * base.pow (-power).toNat⟩

def floor (r : Ratio) : Nat :=
  r.num / r.den

/--
The place of the leading decimal digit: the greatest `e` such that `10 ^ e` is not above a positive ratio.
-/
def leadingPlace (r : Ratio) : Int :=
  if r.den ≤ r.num then
    (Nat.toDigits 10 (r.num / r.den)).length - 1
  else
    -(Nat.toDigits 10 ((r.den - 1) / r.num)).length

def roundEven (r : Ratio) : Nat :=
  let down := r.num / r.den
  let twice := 2 * (r.num % r.den)
  if r.den < twice || (r.den == twice && down % 2 == 1) then down + 1 else down

end Ratio

namespace Binary

def toRatio (x : Binary) : Ratio :=
  Ratio.shift ⟨x.mantissa, 1⟩ 2 x.exponent

end Binary

end PulseSequencer.Decimal
