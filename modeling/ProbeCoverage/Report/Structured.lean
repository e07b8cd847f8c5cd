import ProbeCoverage.Json.Printer
import ProbeCoverage.Report.Pretty

/-!
The report for programs, as JSON.
-/

namespace ProbeCoverage.Report

open Ast (Span)
open Cover (ByteRange)
open Coverage (Breakdown FileCoverage NodeCoverage Summary)
open Json (Value)

def spanJson (span : Span) : Value :=
  .record [("start_byte", .nat span.startByte), ("end_byte", .nat span.endByte),
    ("start_line", .nat span.startLine), ("end_line", .nat span.endLine)]

def rangeJson (range : ByteRange) : Value :=
  .record [("start", .nat range.start), ("end", .nat range.stop)]

def nodeJson (node : NodeCoverage) : Value :=
  .record
    ([("nb", .nat node.number), ("tag", .string node.tag)] ++
      (node.span.map fun span => ("span", spanJson span)).toList ++
      [("executable", .bool node.executable),
       ("was_executed", .ofOption .bool node.wasExecuted),
       ("runs", .nat node.counts.runs), ("full_runs", .nat node.counts.fullRuns),
       ("interrupts", .nat node.counts.interrupts),
       ("proper_range", .ofList rangeJson node.properRange)])

def breakdownJson (breakdown : Breakdown) : Value :=
  .record (breakdown.map fun (tag, count) =>
    (tag, .record [("executed", .nat count.executed), ("executable", .nat count.executable)]))

def summaryJson (summary : Summary) : Value :=
  .record [("executable", .nat summary.executable), ("executed", .nat summary.executed),
    ("percent", .number (.float summary.percent)), ("grade", .string summary.grade.text),
    ("breakdown", breakdownJson summary.breakdown), ("passed", .bool summary.passed),
    ("threshold", .ofOption (fun least => .number (.float least)) summary.threshold)]

def fileJson (coverage : FileCoverage) : Value :=
  .record [("path", .string coverage.path), ("nodes", .ofList nodeJson coverage.nodes),
    ("lines", .ofList (.ofOption .nat) coverage.lines),
    ("summary", summaryJson coverage.summary),
    ("uncovered_lines", .ofList .nat coverage.uncoveredLines)]

def reportJson (path : String) (entries : List Entry) (summary : Summary) : Value :=
  .record [("version", .string version), ("path", .string path),
    ("files", .ofList (fun entry => fileJson entry.coverage) entries),
    ("summary", summaryJson summary)]

def structured (path : String) (entries : List Entry) (summary : Summary) : String :=
  (reportJson path entries summary).pretty ++ "\n"

end ProbeCoverage.Report
