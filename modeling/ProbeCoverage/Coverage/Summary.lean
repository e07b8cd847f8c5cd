import ProbeCoverage.Cover.Lookup
import ProbeCoverage.Flow.Survey

/-!
Coverage of single nodes, and summaries: how many nodes could have run and how many did, in all and
by tag, the share of the executed ones with a grade, and whether it reaches a threshold.
-/

namespace ProbeCoverage.Coverage

open Ast (Span)
open Cover (ByteRange)
open ProbeCoverage.Flow (Counts)

structure NodeCoverage where
  number : Nat
  tag : String
  span : Option Span
  executable : Bool
  /-- Missing where the node is not executable, or lies in a call that is to be ignored. -/
  wasExecuted : Option Bool
  counts : Counts
  properRange : List ByteRange
  deriving DecidableEq, Repr

def NodeCoverage.isMissed (node : NodeCoverage) : Bool :=
  node.wasExecuted == some false

structure TagCount where
  executed : Nat
  executable : Nat
  deriving DecidableEq, Repr

def TagCount.plus (first second : TagCount) : TagCount :=
  ⟨first.executed + second.executed, first.executable + second.executable⟩

/-- Counts by tag. Tags are in increasing order and none is repeated. -/
abbrev Breakdown := List (String × TagCount)

namespace Breakdown

def add (tag : String) (count : TagCount) : Breakdown → Breakdown
  | [] => [(tag, count)]
  | (first, total) :: rest =>
      if tag = first then (first, total.plus count) :: rest
      else if tag < first then (tag, count) :: (first, total) :: rest
      else (first, total) :: add tag count rest

def addNode (breakdown : Breakdown) (node : NodeCoverage) : Breakdown :=
  match node.wasExecuted with
  | some executed => add node.tag ⟨if executed then 1 else 0, 1⟩ breakdown
  | none => breakdown

def ofNodes (nodes : List NodeCoverage) : Breakdown :=
  nodes.foldl addNode []

def plus (first second : Breakdown) : Breakdown :=
  second.foldl (fun breakdown entry => add entry.1 entry.2 breakdown) first

def executed (breakdown : Breakdown) : Nat :=
  breakdown.foldl (fun total entry => total + entry.2.executed) 0

def executable (breakdown : Breakdown) : Nat :=
  breakdown.foldl (fun total entry => total + entry.2.executable) 0

end Breakdown

inductive Grade where
  | a
  | b
  | c
  | d
  | f
  deriving DecidableEq, Repr

namespace Grade

def text : Grade → String
  | .a => "A"
  | .b => "B"
  | .c => "C"
  | .d => "D"
  | .f => "F"

def ofPercent (percent : Float) : Grade :=
  if percent ≥ 90 then .a
  else if percent ≥ 75 then .b
  else if percent ≥ 50 then .c
  else if percent ≥ 25 then .d
  else .f

end Grade

def percentOf (executed executable : Nat) : Float :=
  if executable = 0 then 100
  else Float.ofNat executed * 100 / Float.ofNat executable

structure Summary where
  executable : Nat
  executed : Nat
  percent : Float
  grade : Grade
  breakdown : Breakdown
  passed : Bool
  threshold : Option Float

namespace Summary

/-- The summary of a breakdown. Without a threshold every share passes. -/
def ofBreakdown (breakdown : Breakdown) (threshold : Option Float) : Summary :=
  let executable := breakdown.executable
  let executed := breakdown.executed
  let percent := percentOf executed executable
  { executable, executed, percent, grade := .ofPercent percent, breakdown
    passed := threshold.all fun least => percent ≥ least, threshold }

def ofNodes (nodes : List NodeCoverage) (threshold : Option Float) : Summary :=
  ofBreakdown (.ofNodes nodes) threshold

def merge (summaries : List Summary) (threshold : Option Float) : Summary :=
  ofBreakdown (summaries.foldl (fun total summary => total.plus summary.breakdown) []) threshold

def missed (summary : Summary) : Nat :=
  summary.executable - summary.executed

end Summary

end ProbeCoverage.Coverage
