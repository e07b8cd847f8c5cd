import ProbeCoverage.Config.Check
import ProbeCoverage.Cover.Build
import ProbeCoverage.Coverage.Bytes
import ProbeCoverage.Coverage.Summary
import ProbeCoverage.Instrument.Splice

/-!
A covered file: its source, its tree, the instrumented text, and the coverage that the hits of a
run give.
-/

namespace ProbeCoverage.Coverage

open Cover (BuildError CoverTree)
open ProbeCoverage.Flow (Answers View)
open Probe (Hits)

structure CoveredFile where
  path : String
  source : String
  tree : CoverTree

structure FileCoverage where
  path : String
  nodes : List NodeCoverage
  /-- Executions by line; missing where no executable node starts. -/
  lines : List (Option Nat)
  bytes : List ByteState
  summary : Summary

namespace FileCoverage

def uncoveredLines (coverage : FileCoverage) : List Nat :=
  coverage.lines.zipIdx.filterMap fun (count, line) =>
    if count = some 0 then some (line + 1) else none

def missedNodes (coverage : FileCoverage) : List NodeCoverage :=
  coverage.nodes.filter NodeCoverage.isMissed

end FileCoverage

def isIgnoredCall (config : Config) (cell : Cover.Cell) : Bool :=
  (cell.kind == .call || cell.kind == .blockCall) &&
    (cell.text? 1).any config.ignoresMethod

/-- Which nodes are to be ignored: calls of certain methods with everything below them. Parents
come before their children. -/
def ignoredFlags (config : Config) (cells : List Cover.Cell) : Array Bool :=
  cells.foldl (fun flags cell =>
    let inherited := cell.parent.any fun parent => (flags[parent]?).getD false
    flags.push (inherited || isIgnoredCall config cell)) #[]

structure Finding where
  node : NodeCoverage
  mark : Option LineMark

/-- The coverage of a node. An ignored node is never asked whether it was executed. -/
def finding (tree : CoverTree) (cell : Cover.Cell) (ignored : Bool) (answers : Answers) :
    Except Flow.Error Finding :=
  match answers.counts with
  | .error error => .error error
  | .ok counts =>
      match if ignored then .ok none else answers.wasExecuted cell.kind with
      | .error error => .error error
      | .ok wasExecuted =>
          let node : NodeCoverage :=
            { number := cell.number, tag := cell.tag, span := cell.span
              executable := cell.kind.isExecutable, wasExecuted, counts
              properRange := tree.properRange cell.number }
          match wasExecuted, cell.span with
          | some _, some span =>
              match answers.execution with
              | .error error => .error error
              | .ok executions => .ok { node, mark := some ⟨span.startLine - 1, executions⟩ }
          | _, _ => .ok { node, mark := none }

def findings (tree : CoverTree) (flags : Array Bool) :
    List (Cover.Cell × Answers) → Except Flow.Error (List Finding)
  | [] => .ok []
  | (cell, answers) :: rest =>
      match finding tree cell ((flags[cell.number]?).getD false) answers with
      | .error error => .error error
      | .ok found =>
          match findings tree flags rest with
          | .ok others => .ok (found :: others)
          | .error error => .error error

namespace CoveredFile

def cover (path source : String) (program : Option Ast.Node) (global : String)
    (fileIndex : Nat) : Except BuildError CoveredFile :=
  match CoverTree.build global fileIndex program with
  | .ok tree => .ok { path, source, tree }
  | .error error => .error error

def instrumented (file : CoveredFile) (stem : String) : Except Instrument.Error String :=
  match Instrument.instrument file.tree stem file.source with
  | .ok body => .ok (file.tree.setup ++ ";" ++ body)
  | .error error => .error error

def analyze (file : CoveredFile) (hits : Hits) (config : Config) :
    Except Flow.Error FileCoverage :=
  let view : View := { tree := file.tree, hits, told := none }
  let cells := file.tree.cells.toList
  match findings file.tree (ignoredFlags config cells) (cells.zip view.survey) with
  | .error error => .error error
  | .ok found =>
      let source := file.source.toList
      let nodes := found.map Finding.node
      let bytes := byteStates source nodes
      let counted := lineStates source (found.filterMap Finding.mark)
      let lines :=
        if config.allowPartial then counted else dropPartial (partialLines source bytes) counted
      .ok { path := file.path, nodes, lines, bytes
            summary := .ofNodes nodes config.threshold }

end CoveredFile

end ProbeCoverage.Coverage
