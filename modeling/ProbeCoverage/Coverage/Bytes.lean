import ProbeCoverage.Coverage.Summary
import ProbeCoverage.Text.Bytes

/-!
Coverage by byte and by line of a source text.
-/

namespace ProbeCoverage.Coverage

inductive ByteState where
  /-- Blank, comment, or text that is never executed by itself. -/
  | ignored
  | executed
  | missed
  deriving DecidableEq, Repr

def isBlankByte (byte : UInt8) : Bool :=
  byte == 32 || byte == 9 || byte == 10 || byte == 12 || byte == 13

def NodeCoverage.marks (node : NodeCoverage) (offset : Nat) : Bool :=
  node.wasExecuted.isSome && node.properRange.any fun range => range.holds offset

def NodeCoverage.byteState (node : NodeCoverage) : ByteState :=
  match node.wasExecuted with
  | some true => .executed
  | some false => .missed
  | none => .ignored

/-- The state of the byte at an offset. The last node that marks it decides; nodes are given with
the last one first. -/
def byteState (lastFirst : List NodeCoverage) (offset : Nat) (byte : UInt8) : ByteState :=
  if isBlankByte byte then .ignored
  else
    match lastFirst.find? fun node => node.marks offset with
    | some node => node.byteState
    | none => .ignored

def byteStates (source : List Char) (nodes : List NodeCoverage) : List ByteState :=
  let lastFirst := nodes.reverse
  (Text.bytes source).zipIdx.map fun (byte, offset) => byteState lastFirst offset byte

def lineCount (source : List Char) : Nat :=
  (Text.lines source).length

structure LineMark where
  line : Nat
  executions : Nat
  deriving DecidableEq, Repr

def lineState (marks : List LineMark) (line : Nat) : Option Nat :=
  ((marks.filter fun mark => mark.line == line).map LineMark.executions).max?

def lineStates (source : List Char) (marks : List LineMark) : List (Option Nat) :=
  (List.range (lineCount source)).map (lineState marks)

/-- The lines that hold a missed byte, each once and in order. `listed` tells whether the current
line was listed before. -/
def linesMissing (line : Nat) (listed : Bool) : List (UInt8 × ByteState) → List Nat
  | [] => []
  | (byte, state) :: rest =>
      if byte = 10 then linesMissing (line + 1) false rest
      else if state = .missed && !listed then line :: linesMissing line true rest
      else linesMissing line listed rest

def partialLines (source : List Char) (states : List ByteState) : List Nat :=
  linesMissing 0 false ((Text.bytes source).zip states)

def dropPartial (partialOnes : List Nat) (lines : List (Option Nat)) : List (Option Nat) :=
  lines.zipIdx.map fun (count, line) => if partialOnes.contains line then some 0 else count

end ProbeCoverage.Coverage
