import ProbeCoverage.Ast.Dump
import ProbeCoverage.Ast.Interchange
import ProbeCoverage.Ast.Shape
import ProbeCoverage.CommandLine.Run
import ProbeCoverage.Config.Load
import ProbeCoverage.Cover.Build
import ProbeCoverage.Cover.Lookup
import ProbeCoverage.Coverage.File
import ProbeCoverage.Flow.Survey
import ProbeCoverage.Instrument.Splice
import ProbeCoverage.Main
import ProbeCoverage.Proofs.Cover.ReadBack
import ProbeCoverage.Proofs.Flow.Additivity
import ProbeCoverage.Proofs.Flow.Conservation
import ProbeCoverage.Proofs.Flow.Reconstruction
import ProbeCoverage.Proofs.Flow.Termination
import ProbeCoverage.Report.Structured
import ProbeCoverage.Session
import ProbeCoverage.Proofs.Flow.Recall
import ProbeCoverage.Proofs.Flow.Targets
import ProbeCoverage.Proofs.Flow.Handlers
import ProbeCoverage.Proofs.Flow.Magnitude
import ProbeCoverage.Proofs.Instrument.Insertion
import ProbeCoverage.Proofs.Instrument.Sites
import ProbeCoverage.Proofs.Cover.Refusal
import ProbeCoverage.Proofs.Flow.Faults
import ProbeCoverage.Proofs.Agreement
import ProbeCoverage.Proofs.Session.Rows
import ProbeCoverage.Proofs.Files.Order
import ProbeCoverage.Proofs.Flow.Execution
import ProbeCoverage.Proofs.Flow.Guarded
import ProbeCoverage.Proofs.Cover.OwnBytes
import ProbeCoverage.Proofs.Coverage.Merge
import ProbeCoverage.Proofs.Cover.Innermost
import ProbeCoverage.Proofs.Coverage.Bytes
import ProbeCoverage.Proofs.Flow.Saturation
import ProbeCoverage.Proofs.Session.Failure
import ProbeCoverage.Proofs.Coverage.Ignoring
import ProbeCoverage.Proofs.Instrument.Anchors
import ProbeCoverage.Proofs.Instrument.Faults
import ProbeCoverage.Proofs.Instrument.Slices
import ProbeCoverage.Proofs.Report.Lines
import ProbeCoverage.Proofs.Ast.Printing
import ProbeCoverage.Proofs.Cover.Templates
import ProbeCoverage.Proofs.Cover.Siblings
import ProbeCoverage.Proofs.Instrument.Openers
import ProbeCoverage.Proofs.Instrument.MethodNames
