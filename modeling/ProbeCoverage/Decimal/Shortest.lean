import ProbeCoverage.Decimal.Binary

/-!
The shortest decimal that reads back. Of all decimals that round to a given double, take those
with the fewest digits, and of these the nearest to the double.

The reals that round to a positive double form an interval around it, whose ends belong to it when
the significand is even. For one, two, ... digits the two neighbours of the double on that decimal
grid are tested against the interval in exact arithmetic.
-/

namespace ProbeCoverage.Decimal

structure Interval where
  value : Nat
  low : Nat
  high : Nat
  denominator : Nat
  closed : Bool

/-- The interval of reals that round to `significand * 2 ^ exponent`. Below a power of two the
next double is only half a step away. -/
def Interval.around (significand : Nat) (exponent : Int) : Interval :=
  let step := exponent - 2
  let unit := if step ≥ 0 then twoTo step.toNat else 1
  let denominator := if step ≥ 0 then 1 else twoTo (-step).toNat
  let below := if significand == twoTo 52 && minExponent < exponent then 1 else 2
  { value := 4 * significand * unit
    low := (4 * significand - below) * unit
    high := (4 * significand + 2) * unit
    denominator := denominator
    closed := significand % 2 == 0 }

def digitCount (n : Nat) : Nat :=
  (Nat.toDigits 10 n).length

def leadingExponent (value denominator : Nat) : Int :=
  if denominator ≤ value then (digitCount (value / denominator) : Int) - 1
  else
    let size := digitCount (denominator / value)
    if value * tenTo (size - 1) == denominator then 1 - (size : Int) else -(size : Int)

structure Digits where
  digits : Nat
  exponent : Int
  deriving DecidableEq

def Interval.holds (interval : Interval) (candidate : Nat) (exponent : Int) : Bool :=
  let up := if exponent ≥ 0 then tenTo exponent.toNat else 1
  let down := if exponent ≥ 0 then 1 else tenTo (-exponent).toNat
  let point := candidate * up * interval.denominator
  let low := interval.low * down
  let high := interval.high * down
  if interval.closed then low ≤ point && point ≤ high else low < point && point < high

/-- The best decimal on the grid `10 ^ exponent`, if one of the value's neighbours there lies in
the interval. -/
def Interval.onGrid (interval : Interval) (exponent : Int) : Option Digits :=
  let up := if exponent ≥ 0 then tenTo exponent.toNat else 1
  let down := if exponent ≥ 0 then 1 else tenTo (-exponent).toNat
  let numerator := interval.value * down
  let unit := interval.denominator * up
  let below := numerator / unit
  let nearer := roundDiv numerator unit
  let other := if nearer == below then below + 1 else below
  if interval.holds nearer exponent then some ⟨nearer, exponent⟩
  else if interval.holds other exponent then some ⟨other, exponent⟩
  else none

def Digits.trim (fuel : Nat) (decimal : Digits) : Digits :=
  match fuel with
  | 0 => decimal
  | fuel + 1 =>
      if decimal.digits != 0 && decimal.digits % 10 == 0 then
        Digits.trim fuel ⟨decimal.digits / 10, decimal.exponent + 1⟩
      else decimal

/-- The shortest decimal that reads back as `significand * 2 ^ exponent`. Seventeen digits always
suffice. -/
def shortest (significand : Nat) (exponent : Int) : Digits :=
  let interval := Interval.around significand exponent
  let leading := leadingExponent interval.value interval.denominator
  let found := (List.range 17).findSome? fun (extra : Nat) => interval.onGrid (leading - extra)
  (found.getD ⟨0, 0⟩).trim 20

end ProbeCoverage.Decimal
