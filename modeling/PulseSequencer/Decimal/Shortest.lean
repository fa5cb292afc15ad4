import PulseSequencer.Decimal.Binary

/-!
This module contains the shortest decimal digits that read back as a given double.

A decimal reads back as the double nearest to it, and as the one with the even mantissa if two are equally near. So
the decimals of a double form an interval that ends half-way to its neighbours. For one digit, two digits and so on,
the two multiples of the last place around the double are tried; the first place with a hit gives the digits.
-/

namespace PulseSequencer.Decimal

/--
Significant digits, the first of which stands for its value times `10 ^ exponent`.
-/
structure Digits where
  digits : List Char
  exponent : Int
deriving DecidableEq, Repr

namespace Digits

def zero : Digits := ⟨['0'], 0⟩

def ofCoefficient (coefficient : Nat) (place : Int) : Digits :=
  let written := Nat.toDigits 10 coefficient
  ⟨(written.reverse.dropWhile (· == '0')).reverse, place + written.length - 1⟩

end Digits

namespace Binary

/--
Whether `coefficient * 10 ^ place` reads back as `x`. Lengths are counted in quarters of the gap between `x` and the
double above it.
-/
def readsBack (x : Binary) (coefficient : Nat) (place : Int) : Bool :=
  let unit := (Ratio.mk 1 1).shift 2 (x.exponent - 2) |>.shift 10 (-place)
  let low := (4 * x.mantissa - if x.narrow then 1 else 2) * unit.num
  let high := (4 * x.mantissa + 2) * unit.num
  let point := coefficient * unit.den
  if x.mantissa % 2 = 0 then
    low ≤ point && point ≤ high
  else
    low < point && point < high

/--
The multiple of `10 ^ place` next to `x` that reads back as `x`, if there is one. Of two the nearer is taken, and the
greater one if both are equally near.
-/
def nextOnGrid? (x : Binary) (place : Int) : Option Nat :=
  let scaled := x.toRatio.shift 10 (-place)
  let down := scaled.floor
  match x.readsBack down place, x.readsBack (down + 1) place with
  | false, false => none
  | true, false => some down
  | false, true => some (down + 1)
  | true, true => some (if 2 * (scaled.num % scaled.den) < scaled.den then down else down + 1)

/--
The fewest digits that read back as `x`. Seventeen always do.
-/
def shortest (x : Binary) : Digits :=
  if x.mantissa = 0 then .zero else go 17 x.toRatio.leadingPlace
where
  go : Nat → Int → Digits
    | 0, place => .ofCoefficient (x.toRatio.shift 10 (-place)).floor place
    | fuel + 1, place =>
      match x.nextOnGrid? place with
      | some coefficient => .ofCoefficient coefficient place
      | none => go fuel (place - 1)

end Binary

end PulseSequencer.Decimal
