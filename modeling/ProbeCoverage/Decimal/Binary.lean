/-!
Finite doubles as exact numbers. A finite double is `significand * 2 ^ exponent` up to its sign,
and a positive rational has a nearest double, ties going to the even significand.
-/

namespace ProbeCoverage.Decimal

def twoTo (exponent : Nat) : Nat := Nat.pow 2 exponent

def tenTo (exponent : Nat) : Nat := Nat.pow 10 exponent

inductive Value where
  | nan
  | infinite (negative : Bool)
  | finite (negative : Bool) (significand : Nat) (exponent : Int)
  deriving DecidableEq

def minExponent : Int := -1074

def Value.ofFloat (x : Float) : Value :=
  let bits := x.toBits.toNat
  let negative := bits / twoTo 63 == 1
  let field : Nat := bits / twoTo 52 % twoTo 11
  let fraction : Nat := bits % twoTo 52
  if field == 2047 then
    if fraction == 0 then .infinite negative else .nan
  else if field == 0 then .finite negative fraction minExponent
  else .finite negative (twoTo 52 + fraction) ((field : Int) - 1075)

def roundDiv (numerator denominator : Nat) : Nat :=
  let quotient := numerator / denominator
  let twice := 2 * (numerator % denominator)
  if twice < denominator then quotient
  else if denominator < twice then quotient + 1
  else if quotient % 2 == 0 then quotient
  else quotient + 1

def scaledQuotient (numerator denominator : Nat) (exponent : Int) : Nat :=
  if exponent ≥ 0 then roundDiv numerator (denominator * twoTo exponent.toNat)
  else roundDiv (numerator * twoTo (-exponent).toNat) denominator

def lastBitExponent (numerator denominator : Nat) : Int :=
  let guess : Int := (numerator.log2 : Int) - denominator.log2 - 52
  let tooLarge :=
    if guess ≥ 0 then numerator < denominator * twoTo (guess.toNat + 52)
    else numerator * twoTo (-guess).toNat < denominator * twoTo 52
  max minExponent (if tooLarge then guess - 1 else guess)

def assemble (negative : Bool) (significand : Nat) (exponent : Int) : Float :=
  let sign := if negative then twoTo 63 else 0
  let (significand, exponent) :=
    if significand == twoTo 53 then (twoTo 52, exponent + 1) else (significand, exponent)
  let bits :=
    if significand < twoTo 52 then significand
    else
      let field := (exponent + 1075).toNat
      if 2047 ≤ field then 2047 * twoTo 52 else field * twoTo 52 + (significand - twoTo 52)
  Float.ofBits (UInt64.ofNat (sign + bits))

def nearest (negative : Bool) (numerator denominator : Nat) : Float :=
  if numerator == 0 then assemble negative 0 minExponent
  else
    let exponent := lastBitExponent numerator denominator
    assemble negative (scaledQuotient numerator denominator exponent) exponent

/-- The double nearest to `digits * 10 ^ exponent`. Exponents far outside the range of doubles
are decided without computing the power. -/
def ofDecimal (negative : Bool) (digits : Nat) (exponent : Int) : Float :=
  let size : Int := (Nat.toDigits 10 digits).length
  if digits == 0 || size + exponent < -400 then assemble negative 0 minExponent
  else if 400 < size + exponent then assemble negative (twoTo 52) 1000
  else if exponent ≥ 0 then nearest negative (digits * tenTo exponent.toNat) 1
  else nearest negative digits (tenTo (-exponent).toNat)

def ofNat (n : Nat) : Float :=
  nearest false n 1

end ProbeCoverage.Decimal
