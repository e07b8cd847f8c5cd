import ProbeCoverage.Text.Bytes

/-!
Styled texts for a terminal. A style is switched on before the text and everything is switched off
behind it; where the text itself switches everything off, the style is switched on again.
-/

namespace ProbeCoverage.Report

inductive Colour where
  | red
  | green
  | yellow
  | blue
  | cyan
  deriving DecidableEq, Repr

def Colour.code : Colour → String
  | .red => "31"
  | .green => "32"
  | .yellow => "33"
  | .blue => "34"
  | .cyan => "36"

structure Style where
  bold : Bool := false
  dimmed : Bool := false
  colour : Option Colour := none
  deriving DecidableEq, Repr

namespace Style

def coloured (colour : Colour) : Style := { colour := some colour }

def strong (colour : Colour) : Style := { bold := true, colour := some colour }

def heavy : Style := { bold := true }

def faint : Style := { dimmed := true }

def codes (style : Style) : List String :=
  (if style.bold then ["1"] else []) ++ (if style.dimmed then ["2"] else []) ++
    (style.colour.map Colour.code).toList

def reset : List Char := ['\x1b', '[', '0', 'm']

def switchOn (style : Style) : List Char :=
  '\x1b' :: '[' :: (";".intercalate style.codes).toList ++ ['m']

def restore (again : List Char) : List Char → List Char
  | '\x1b' :: '[' :: '0' :: 'm' :: rest => reset ++ again ++ restore again rest
  | c :: rest => c :: restore again rest
  | [] => []

def apply (style : Style) (colours : Bool) (text : String) : String :=
  if colours && !style.codes.isEmpty then
    String.ofList (style.switchOn ++ restore style.switchOn text.toList ++ reset)
  else text

end Style

end ProbeCoverage.Report
