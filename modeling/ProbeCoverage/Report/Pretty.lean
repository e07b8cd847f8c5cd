import ProbeCoverage.Report.Annotated
import ProbeCoverage.Report.Style

/-!
The report for readers: a header, the result, the files with their uncovered lines and on demand
their annotated sources, the counts by tag, and the verdict.
-/

namespace ProbeCoverage.Report

open Coverage (Breakdown FileCoverage Grade Summary TagCount)

def version : String := "0.1.0"

structure Entry where
  source : String
  coverage : FileCoverage

structure Options where
  colours : Bool
  showSource : Bool

def gradeStyle : Grade → Style
  | .a => .strong .green
  | .b => .coloured .green
  | .c => .coloured .yellow
  | .d => .strong .yellow
  | .f => .coloured .red

def percentText (colours : Bool) (percent : Float) : String :=
  (gradeStyle (.ofPercent percent)).apply colours (Decimal.onePlace percent)

def resultLine (colours : Bool) (summary : Summary) : String :=
  let verdict :=
    if summary.passed then (Style.coloured .green).apply colours "✓ PASS"
    else (Style.coloured .red).apply colours "✗ FAIL"
  let nodes :=
    "(" ++ Decimal.natText summary.executed ++ "/" ++ Decimal.natText summary.executable ++
      " nodes)"
  "  " ++ verdict ++ "  Coverage: " ++ percentText colours summary.percent ++ "%  Grade: " ++
    (gradeStyle summary.grade).apply colours summary.grade.text ++ "  " ++
    Style.faint.apply colours nodes ++ "\n"

def annotatedLine (colours : Bool) (line : AnnotatedLine) : String :=
  let style : Style :=
    match line.gutter with
    | .blank => {}
    | .missed => .strong .red
    | .count _ => .coloured .green
  let bar := Style.faint.apply colours "|"
  "    " ++ style.apply colours (padLeft gutterWidth line.gutter.text) ++ " " ++ bar ++ " " ++
    line.text ++ "\n" ++
    match line.markers with
    | some markers =>
        "    " ++ padLeft gutterWidth "" ++ " " ++ bar ++ " " ++
          (Style.coloured .red).apply colours markers ++ "\n"
    | none => ""

def fileSection (options : Options) (entry : Entry) : String :=
  let coverage := entry.coverage
  let uncovered := coverage.uncoveredLines
  let listed :=
    if uncovered.isEmpty then ""
    else
      "  " ++ Style.faint.apply options.colours
        ("uncovered: " ++ ",".intercalate (uncovered.map Decimal.natText))
  let source :=
    if options.showSource then
      "\n" ++ String.join
        ((annotate entry.source coverage).map (annotatedLine options.colours))
    else ""
  "    " ++ percentText options.colours coverage.summary.percent ++ "%  " ++
    (Style.coloured .blue).apply options.colours coverage.path ++ listed ++ "\n" ++ source ++ "\n"

def filesSection (options : Options) (entries : List Entry) : String :=
  if entries.isEmpty then ""
  else
    "  " ++ Style.heavy.apply options.colours "Files" ++ " (" ++
      Decimal.natText entries.length ++ "):\n\n" ++
      String.join (entries.map (fileSection options))

def missedOf (entry : String × TagCount) : Nat :=
  entry.2.executable - entry.2.executed

def mostMissedFirst (breakdown : Breakdown) : Breakdown :=
  breakdown.mergeSort fun first second =>
    missedOf second < missedOf first ||
      (missedOf first == missedOf second && first.1 ≤ second.1)

def tagLine (entry : String × TagCount) : String :=
  "    " ++ padRight 20 entry.1 ++ " " ++ padLeft 5 (Decimal.natText entry.2.executed) ++ "/" ++
    padRight 5 (Decimal.natText entry.2.executable) ++ " executed\n"

def breakdownSection (colours : Bool) (breakdown : Breakdown) : String :=
  if breakdown.isEmpty then ""
  else
    "  " ++ Style.heavy.apply colours "Breakdown:" ++ "\n" ++
      String.join ((mostMissedFirst breakdown).map tagLine) ++ "\n"

def verdictLine (colours : Bool) (summary : Summary) : String :=
  let threshold :=
    match summary.threshold with
    | some least => "Threshold: " ++ Decimal.text least
    | none => "Threshold: none"
  let verdict :=
    if summary.passed then (Style.coloured .green).apply colours "PASSED"
    else (Style.coloured .red).apply colours "FAILED"
  "  " ++ Style.faint.apply colours threshold ++ "  Missed: " ++
    Decimal.natText summary.missed ++ "  " ++ verdict ++ "\n"

def pretty (options : Options) (path : String) (entries : List Entry) (summary : Summary) :
    String :=
  let colours := options.colours
  "\n  " ++ (Style.strong .cyan).apply colours "deepcover" ++ " v" ++ version ++ "\n\n  " ++
    Style.faint.apply colours "Coverage for: " ++ path ++ "\n\n" ++
    resultLine colours summary ++ "\n" ++ filesSection options entries ++
    breakdownSection colours summary.breakdown ++ verdictLine colours summary ++ "\n"

end ProbeCoverage.Report
