import ProbeCoverage.Decimal.Shortest

/-!
Texts of doubles: positional text for messages, the text of JSON numbers, and text with one
decimal place.
-/

namespace ProbeCoverage.Decimal

def natText (n : Nat) : String :=
  String.ofList (Nat.toDigits 10 n)

def zeros (count : Nat) : String :=
  String.ofList (List.replicate count '0')

def Digits.positional (decimal : Digits) : String :=
  let text := natText decimal.digits
  if decimal.exponent ≥ 0 then text ++ zeros decimal.exponent.toNat
  else
    let places := (-decimal.exponent).toNat
    let size := text.length
    if places < size then
      String.ofList (text.toList.take (size - places)) ++ "." ++
        String.ofList (text.toList.drop (size - places))
    else "0." ++ zeros (places - size) ++ text

/-- A decimal as a JSON number: positional from `1e-5` up to sixteen places before the point, with
`.0` after a whole number, otherwise with an exponent. -/
def Digits.json (decimal : Digits) : String :=
  let text := natText decimal.digits
  let size := text.length
  let point : Int := size + decimal.exponent
  if 0 ≤ decimal.exponent && point ≤ 16 then decimal.positional ++ ".0"
  else if -5 < point && point ≤ 16 then decimal.positional
  else
    let mantissa :=
      if size == 1 then text
      else String.ofList (text.toList.take 1) ++ "." ++ String.ofList (text.toList.drop 1)
    mantissa ++ "e" ++ (if point - 1 < 0 then "-" else "") ++ natText (point - 1).natAbs

def signText (negative : Bool) : String :=
  if negative then "-" else ""

def text (x : Float) : String :=
  match Value.ofFloat x with
  | .nan => "NaN"
  | .infinite negative => signText negative ++ "inf"
  | .finite negative significand exponent =>
      signText negative ++
        (if significand == 0 then "0" else (shortest significand exponent).positional)

def jsonText (x : Float) : String :=
  match Value.ofFloat x with
  | .nan | .infinite _ => "null"
  | .finite negative significand exponent =>
      signText negative ++ (if significand == 0 then "0.0" else (shortest significand exponent).json)

/-- A double with one decimal place. The exact value is rounded, a half going to the even digit. -/
def onePlace (x : Float) : String :=
  match Value.ofFloat x with
  | .nan => "NaN"
  | .infinite negative => signText negative ++ "inf"
  | .finite negative significand exponent =>
      let tenths := scaledQuotient (10 * significand) 1 (-exponent)
      signText negative ++ natText (tenths / 10) ++ "." ++ natText (tenths % 10)

end ProbeCoverage.Decimal
