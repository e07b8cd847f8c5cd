import ProbeCoverage.Config.Glob
import ProbeCoverage.Instrument.Plan
import ProbeCoverage.Text.Quoted

/-!
Settings of a run, which all have defaults: checking them, and the paths they exclude.
-/

namespace ProbeCoverage

structure Config where
  trackerGlobal : String := Probe.defaultGlobal
  temporaryStem : String := Instrument.defaultStem
  /-- Whether a line may count as covered when some of its characters never ran. -/
  allowPartial : Bool := true
  ignoreUncovered : List String := []
  excludedPaths : List String := []
  /-- Least share of executed nodes, in percent, for a report to pass. -/
  threshold : Option Float := none

namespace Config

def ignoresMethod (config : Config) (method : String) : Bool :=
  config.ignoreUncovered.contains method

end Config

inductive Config.Fault where
  | trackerGlobal (given : String)
  | temporaryStem (given : String)
  | excludedPath (pattern : String) (error : Glob.Error)
  | threshold (given : Float)

def Config.Fault.message : Config.Fault → String
  | .trackerGlobal given =>
      "invalid tracker_global " ++ Text.quoted given ++
        ", must be a global variable like $_dc_cov"
  | .temporaryStem given =>
      "invalid local_prefix " ++ Text.quoted given ++ ", must be a lowercase identifier"
  | .excludedPath pattern error =>
      "invalid excluded_paths pattern " ++ Text.quoted pattern ++ ": " ++ error.message pattern
  | .threshold given =>
      "invalid threshold " ++ Decimal.text given ++ ", must be between 0 and 100"

namespace Config

def isIdentifier (text : List Char) : Bool :=
  match text with
  | [] => false
  | first :: rest =>
      (first.isAlpha || first == '_') && rest.all fun c => c.isAlphanum || c == '_'

def isGlobalName (text : List Char) : Bool :=
  match text with
  | '$' :: name => isIdentifier name
  | _ => false

def isLocalStem (text : List Char) : Bool :=
  isIdentifier text && !(text.head?.any Char.isUpper)

def patternFault? (patterns : List String) : Option Fault :=
  patterns.findSome? fun pattern =>
    match Glob.read pattern with
    | .ok _ => none
    | .error error => some (.excludedPath pattern error)

def fault? (config : Config) : Option Fault :=
  if !isGlobalName config.trackerGlobal.toList then some (.trackerGlobal config.trackerGlobal)
  else if !isLocalStem config.temporaryStem.toList then some (.temporaryStem config.temporaryStem)
  else
    match patternFault? config.excludedPaths with
    | some fault => some fault
    | none =>
        match config.threshold with
        | some least => if 0 ≤ least && least ≤ 100 then none else some (.threshold least)
        | none => none

def excludes (config : Config) (path : String) : Bool :=
  config.excludedPaths.any fun pattern =>
    match Glob.read pattern with
    | .ok tokens => Glob.isMatch tokens path
    | .error _ => false

end Config

end ProbeCoverage
