import ProbeCoverage.Coverage.File

/-!
Source texts with coverage marks: in front of each line how often it ran, and below a line that
ran only in part an `x` under each byte that never ran.
-/

namespace ProbeCoverage.Report

open Coverage (ByteState FileCoverage)

inductive Gutter where
  /-- Nothing executable starts on the line. -/
  | blank
  | missed
  | count (executions : Nat)
  deriving DecidableEq, Repr

namespace Gutter

def ofCount : Option Nat → Gutter
  | none => .blank
  | some 0 => .missed
  | some (executions + 1) => .count (executions + 1)

def text : Gutter → String
  | .blank => ""
  | .missed => "#>X"
  | .count executions => Decimal.natText executions

end Gutter

structure AnnotatedLine where
  gutter : Gutter
  text : String
  markers : Option String
  deriving DecidableEq, Repr

def markerOf : ByteState → Char
  | .missed => 'x'
  | _ => ' '

def trimEnd (text : List Char) : List Char :=
  (text.reverse.dropWhile (· == ' ')).reverse

def markersOf (gutter : Gutter) (states : List ByteState) : Option String :=
  let marks := states.map markerOf
  if gutter != .missed && marks.contains 'x' then some (String.ofList (trimEnd marks)) else none

def annotateLines : List (List Char) → List (Option Nat) → List ByteState → List AnnotatedLine
  | [], _, _ => []
  | line :: rest, counts, states =>
      let gutter := Gutter.ofCount counts.head?.join
      let size := Text.byteCount line
      { gutter, text := String.ofList line, markers := markersOf gutter (states.take size) } ::
        annotateLines rest counts.tail (states.drop (size + 1))

def annotate (source : String) (coverage : FileCoverage) : List AnnotatedLine :=
  annotateLines (Text.lines source.toList) coverage.lines coverage.bytes

def padLeft (width : Nat) (text : String) : String :=
  String.ofList (List.replicate (width - text.length) ' ') ++ text

def padRight (width : Nat) (text : String) : String :=
  text ++ String.ofList (List.replicate (width - text.length) ' ')

def gutterWidth : Nat := 5

def AnnotatedLine.render (line : AnnotatedLine) : String :=
  padLeft gutterWidth line.gutter.text ++ " | " ++ line.text ++ "\n" ++
    match line.markers with
    | some markers => padLeft gutterWidth "" ++ " | " ++ markers ++ "\n"
    | none => ""

def renderAnnotated (source : String) (coverage : FileCoverage) : String :=
  String.join ((annotate source coverage).map AnnotatedLine.render)

end ProbeCoverage.Report
