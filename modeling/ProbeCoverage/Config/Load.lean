import ProbeCoverage.Config.Check
import ProbeCoverage.Config.Decode
import ProbeCoverage.Files.Volume

/-!
Loading settings from files.
-/

namespace ProbeCoverage

open Files (Volume)

namespace Config

def fileNames : List String := ["deepcover.yaml", ".deepcover.yaml"]

inductive LoadError where
  | unreadable (path : String) (fault : Files.Fault)
  | malformed (path : String)
  | invalid (fault : Fault)

def LoadError.message : LoadError → String
  | .unreadable path fault => "error parsing " ++ path ++ ": " ++ fault.message
  | .malformed path => "error parsing " ++ path ++ ": not a settings file"
  | .invalid fault => fault.message

def discover (volume : Volume) (directory : String) : Option String :=
  (fileNames.map (Files.join directory)).find? volume.exists?

def readFile (volume : Volume) (path : String) : Except LoadError Config :=
  match volume.readText path with
  | .error fault => .error (.unreadable path fault)
  | .ok text =>
      match read text with
      | some config => .ok config
      | none => .error (.malformed path)

def load (volume : Volume) (given : Option String) (directory : String) :
    Except LoadError Config :=
  match
    match given <|> discover volume directory with
    | some path => readFile volume path
    | none => .ok {}
  with
  | .error error => .error error
  | .ok config =>
      match config.fault? with
      | some fault => .error (.invalid fault)
      | none => .ok config

end Config

end ProbeCoverage
