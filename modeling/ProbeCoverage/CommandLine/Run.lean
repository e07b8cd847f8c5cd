import ProbeCoverage.CommandLine.Arguments
import ProbeCoverage.Config.Load
import ProbeCoverage.Report.Structured
import ProbeCoverage.Session

/-!
Running commands on a volume. A run ends with an exit code, what it printed, and the volume it
leaves.
-/

namespace ProbeCoverage.CommandLine

open Files (Volume)

def sourceExtension : String := "rb"

structure WalkError where
  path : String
  fault : Files.Fault
  deriving DecidableEq, Repr

def WalkError.message (error : WalkError) : String :=
  "IO error for operation on " ++ error.path ++ ": " ++ error.fault.message

def isSource (volume : Volume) (config : Config) (root path : String) : Bool :=
  Files.extension? path == some sourceExtension &&
    !config.excludes ((Files.relativeTo? root path).getD path) &&
    volume.exists? (Files.sidecar path treeSuffix)

/-- The files to cover at or below a path, in order. Hidden directories are passed over. -/
def collect (volume : Volume) (config : Config) (root : String) :
    Except WalkError (List String) :=
  match volume.get root with
  | .error fault => .error ⟨root, fault⟩
  | .ok entry =>
      let paths := (entry.filesUnder true root).map Prod.fst
      .ok ((paths.filter (isSource volume config root)).mergeSort Files.pathLE)

structure Outcome where
  exit : Nat
  out : String
  err : String
  volume : Volume

namespace Outcome

def success (volume : Volume) (out err : String) : Outcome :=
  { exit := 0, out, err, volume }

def failure (volume : Volume) (out message : String) : Outcome :=
  { exit := 2, out, err := "Error: " ++ message ++ "\n", volume }

end Outcome

inductive Obstacle where
  | config (error : Config.LoadError)
  | path (path : String) (fault : Files.Fault)
  | root (path : String) (fault : Files.Fault)
  | walk (error : WalkError)

def Obstacle.message : Obstacle → String
  | .config error => error.message
  | .path given fault => "cannot access path " ++ Text.quotedPath given ++ ": " ++ fault.message
  | .root given fault =>
      "cannot access project root " ++ Text.quotedPath given ++ ": " ++ fault.message
  | .walk error => error.message

structure Prepared where
  config : Config
  path : String
  files : List String

def filesAt (volume : Volume) (config : Config) (path : String) : Except Obstacle (List String) :=
  if volume.isDirectory path then
    match collect volume config path with
    | .ok files => .ok files
    | .error error => .error (.walk error)
  else .ok [path]

def prepare (volume : Volume) (path : String) (config : Option String) :
    Except Obstacle Prepared :=
  match Config.load volume config "." with
  | .error error => .error (.config error)
  | .ok config =>
      match volume.canonical path with
      | .error fault => .error (.path path fault)
      | .ok absolute =>
          match filesAt volume config absolute with
          | .error obstacle => .error obstacle
          | .ok files => .ok { config, path := absolute, files }

/-- The files whose order decides the rows: all files of the project, or only the given ones when
they lie outside of it. -/
def projectFiles (volume : Volume) (root : Option String) (prepared : Prepared) :
    Except Obstacle (List String) :=
  let root := root.getD "."
  match volume.canonical root with
  | .error fault => .error (.root root fault)
  | .ok absolute =>
      if Files.isBelow absolute prepared.path then
        match collect volume prepared.config absolute with
        | .ok files => .ok files
        | .error error => .error (.walk error)
      else .ok prepared.files

def writeBelow (volume : Volume) (directory base file text : String) :
    Except Files.Fault Volume :=
  let target := Files.join directory ((Files.relativeTo? base file).getD file)
  match
    match Files.parent? target with
    | some parent => volume.makeDirectories parent
    | none => .ok volume
  with
  | .error fault => .error fault
  | .ok made => made.writeText target text

def instrumentFiles (outDir : Option String) (base : String) :
    Volume → Session → String → List String → Outcome
  | volume, _, out, [] => .success volume out ""
  | volume, session, out, file :: rest =>
      match session.instrument volume file with
      | (.error error, _) => .failure volume out (file ++ ": " ++ error.message)
      | (.ok text, session) =>
          match outDir with
          | none => instrumentFiles outDir base volume session (out ++ text ++ "\n") rest
          | some directory =>
              match writeBelow volume directory base file text with
              | .ok volume => instrumentFiles outDir base volume session out rest
              | .error fault => .failure volume out fault.message

def runInstrument (volume : Volume) (options : InstrumentOptions) : Outcome :=
  match prepare volume options.path options.config with
  | .error obstacle => .failure volume "" obstacle.message
  | .ok prepared =>
      if prepared.files.isEmpty then
        .success volume "" "Warning: no files to instrument\n"
      else if options.outDir.isNone && 1 < prepared.files.length then
        .failure volume "" "--out-dir is required when instrumenting a directory"
      else
        match projectFiles volume options.root prepared with
        | .error obstacle => .failure volume "" obstacle.message
        | .ok project =>
            let base :=
              if volume.isDirectory prepared.path then prepared.path
              else (Files.parent? prepared.path).getD ""
            instrumentFiles options.outDir base volume (.start prepared.config project) ""
              prepared.files

def allAnalyzed :
    List (String × Except Session.Error Coverage.FileCoverage) →
      Except (String × Session.Error) (List Coverage.FileCoverage)
  | [] => .ok []
  | (path, .error error) :: _ => .error (path, error)
  | (_, .ok coverage) :: rest =>
      match allAnalyzed rest with
      | .ok others => .ok (coverage :: others)
      | .error failure => .error failure

def runReport (volume : Volume) (colours : Bool) (options : ReportOptions) : Outcome :=
  if options.format != "pretty" && options.format != "json" then
    .failure volume ""
      ("invalid format " ++ Text.quoted options.format ++ ", must be 'pretty' or 'json'")
  else
    match prepare volume options.path options.config with
    | .error obstacle => .failure volume "" obstacle.message
    | .ok prepared =>
        if prepared.files.isEmpty then .success volume "" "Warning: no files to report\n"
        else
          let threshold := options.threshold <|> prepared.config.threshold
          let (results, session) :=
            (Session.start prepared.config []).analyzeAll volume prepared.files
          match allAnalyzed results with
          | .error (path, error) => .failure volume "" (path ++ ": " ++ error.message)
          | .ok coverages =>
              let entries : List Report.Entry :=
                (prepared.files.zip coverages).filterMap fun (path, coverage) =>
                  (session.file? path).map fun file => { source := file.source, coverage }
              let summary :=
                Coverage.Summary.merge (coverages.map fun coverage => coverage.summary) threshold
              let out :=
                if options.format == "json" then Report.structured options.path entries summary
                else
                  Report.pretty { colours, showSource := options.showSource } options.path entries
                    summary
              { exit := if summary.passed then 0 else 1, out, err := "", volume }

def run (volume : Volume) (colours : Bool) : Command → Outcome
  | .instrument options => runInstrument volume options
  | .report options => runReport volume colours options

end ProbeCoverage.CommandLine
