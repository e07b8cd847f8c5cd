import ProbeCoverage.Decimal.Read
import ProbeCoverage.Json.Value

/-!
The numbers of a JSON text. Digits are gathered into a significand of at most 64 bits: an integer
digit that no longer fits counts as a power of ten, and from the first fraction digit that no
longer fits the fraction is cut off. The significand is rounded to a double first and then
multiplied or divided by one power of ten, so a long number may be one unit off the nearest double.
-/

namespace ProbeCoverage.Json

structure Numeral where
  negative : Bool
  whole : List Char
  fraction : Option (List Char)
  exponent : Option (Bool × List Char)

namespace Numeral

def maxSignificand : Nat := Decimal.twoTo 64 - 1

def maxExponent : Nat := Decimal.twoTo 31 - 1

def gather (significand : Nat) : List Char → Nat × List Char
  | [] => (significand, [])
  | digit :: rest =>
      let next := 10 * significand + (digit.toNat - '0'.toNat)
      if next ≤ maxSignificand then gather next rest else (significand, digit :: rest)

def powerOfTen (exponent : Nat) : Float :=
  Decimal.ofDecimal false 1 exponent

def topExponent : Nat := 308

/-- Divide by a power of ten, at most 308 places at a time. Three steps bring every significand
to zero. -/
def scaleDown : Nat → Float → Nat → Float
  | 0, _, _ => 0
  | steps + 1, value, places =>
      if places ≤ topExponent then value / powerOfTen places
      else if value == 0 then value
      else scaleDown steps (value / powerOfTen topExponent) (places - topExponent)

def scale (significand : Nat) (exponent : Int) : Option Float :=
  let value := Decimal.ofNat significand
  if exponent < 0 then some (scaleDown 4 value exponent.natAbs)
  else if exponent ≤ topExponent then
    let scaled := value * powerOfTen exponent.toNat
    if scaled.isInf then none else some scaled
  else if significand == 0 then some value
  else none

def signed (negative : Bool) : Option Float → Number
  | some value => .float (if negative then -value else value)
  | none => .outOfRange

def exponentOf (digits : List Char) : Option Nat :=
  let value := Decimal.foldDigits 0 digits
  if value ≤ maxExponent then some value else none

def toFloat (numeral : Numeral) : Number :=
  let (significand, beyond) := gather 0 numeral.whole
  let fraction := numeral.fraction.getD []
  let (significand, cutOff) := gather significand fraction
  let shift : Int := (beyond.length : Int) - ((fraction.length - cutOff.length : Nat) : Int)
  match numeral.exponent with
  | none => signed numeral.negative (scale significand shift)
  | some (down, digits) =>
      match exponentOf digits with
      | some exponent =>
          let exponent : Int := if down then -exponent else exponent
          signed numeral.negative (scale significand (shift + exponent))
      | none =>
          if significand == 0 || down then signed numeral.negative (some 0) else .outOfRange

def toNumber (numeral : Numeral) : Number :=
  if numeral.fraction.isSome || numeral.exponent.isSome then numeral.toFloat
  else
    let value := Decimal.foldDigits 0 numeral.whole
    if !numeral.negative then
      if value ≤ maxSignificand then .int value else numeral.toFloat
    else if 0 < value && value ≤ Decimal.twoTo 63 then .int (-value)
    else numeral.toFloat

def takeDigits (text : List Char) : Option (List Char × List Char) :=
  match text.takeWhile Char.isDigit with
  | [] => none
  | digits => some (digits, text.dropWhile Char.isDigit)

def takeExponent (text : List Char) : Option (Option (Bool × List Char) × List Char) :=
  match text with
  | mark :: rest =>
      if mark == 'e' || mark == 'E' then do
        let (down, rest) := Decimal.takeSign rest
        let (digits, rest) ← takeDigits rest
        pure (some (down, digits), rest)
      else some (none, text)
  | [] => some (none, text)

def takeFraction (text : List Char) : Option (Option (List Char) × List Char) :=
  match text with
  | '.' :: rest => (takeDigits rest).map fun (digits, rest) => (some digits, rest)
  | _ => some (none, text)

def take (text : List Char) : Option (Numeral × List Char) := do
  let (negative, unsigned) :=
    match text with
    | '-' :: rest => (true, rest)
    | _ => (false, text)
  let (whole, rest) ← takeDigits unsigned
  if whole.head? == some '0' && whole.length != 1 then none
  else
    let (fraction, rest) ← takeFraction rest
    let (exponent, rest) ← takeExponent rest
    pure ({ negative, whole, fraction, exponent }, rest)

end Numeral

end ProbeCoverage.Json
