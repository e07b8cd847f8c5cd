import ProbeCoverage.Decimal.Binary

/-!
Numbers written as words. An integer word is an optional sign and ASCII digits, within 64 bits. A
float word is an optional sign and then digits with an optional point (at least one digit), an
optional exponent, or one of the names of infinity and of the non-number in any letter case.
-/

namespace ProbeCoverage.Decimal

def foldDigits (seed : Nat) (digits : List Char) : Nat :=
  digits.foldl (fun value c => 10 * value + (c.toNat - '0'.toNat)) seed

def takeSign : List Char → Bool × List Char
  | '-' :: rest => (true, rest)
  | '+' :: rest => (false, rest)
  | word => (false, word)

def fitsInt64 (n : Int) : Bool :=
  -(twoTo 63 : Int) ≤ n && n < twoTo 63

def readInt (word : List Char) : Option Int :=
  let (negative, digits) := takeSign word
  if digits.isEmpty || !digits.all Char.isDigit then none
  else
    let magnitude : Int := foldDigits 0 digits
    let value := if negative then -magnitude else magnitude
    if fitsInt64 value then some value else none

def readExponent : List Char → Option Int
  | [] => some 0
  | mark :: rest =>
      if mark == 'e' || mark == 'E' then
        let (negative, digits) := takeSign rest
        if digits.isEmpty || !digits.all Char.isDigit then none
        else
          let magnitude : Int := foldDigits 0 digits
          some (if negative then -magnitude else magnitude)
      else none

def readDigits (negative : Bool) (word : List Char) : Option Float :=
  let whole := word.takeWhile Char.isDigit
  let rest := word.dropWhile Char.isDigit
  let (fraction, rest) :=
    match rest with
    | '.' :: tail => (tail.takeWhile Char.isDigit, tail.dropWhile Char.isDigit)
    | _ => ([], rest)
  if whole.isEmpty && fraction.isEmpty then none
  else
    (readExponent rest).map fun exponent =>
      ofDecimal negative (foldDigits (foldDigits 0 whole) fraction)
        (exponent - (fraction.length : Int))

def notANumber : Float :=
  Float.ofBits 0x7ff8000000000000

def infinity (negative : Bool) : Float :=
  assemble negative (twoTo 52) 1000

def readFloat (word : List Char) : Option Float :=
  let (negative, rest) := takeSign word
  match String.ofList (rest.map Char.toLower) with
  | "inf" | "infinity" => some (infinity negative)
  | "nan" => some notANumber
  | _ => readDigits negative rest

end ProbeCoverage.Decimal
