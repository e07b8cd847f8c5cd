import ProbeCoverage.Ast.Interchange
import ProbeCoverage.Coverage.File
import ProbeCoverage.Files.Volume

/-!
Sessions over several files. Each file has a row of its own in the counter array. Files of the
project have their rows by their place in the sorted project list, whatever is covered first; files
outside of the list follow in the order in which they are asked for.
-/

namespace ProbeCoverage

open Coverage (CoveredFile FileCoverage)
open Files (Volume)

def treeSuffix : String := "ast.json"

def hitsSuffix : String := "hits.json"

structure Session where
  config : Config
  /-- Sorted and without repetitions. -/
  projectFiles : List String
  /-- In the order in which they were covered. -/
  files : List CoveredFile
  /-- Rows given out to files outside of the project list. -/
  unlisted : Nat

namespace Session

inductive Error where
  | files (fault : Files.Fault)
  | malformed
  | build (error : Cover.BuildError)
  | instrument (error : Instrument.Error)
  | unreadableTree (path : String) (fault : Files.Fault)
  | analysis (path : String) (error : Flow.Error)

def Error.message : Error → String
  | .files fault => fault.message
  | .malformed => "not the expected JSON"
  | .build error => error.message
  | .instrument error => error.message
  | .unreadableTree path fault => "cannot read syntax tree " ++ path ++ ": " ++ fault.message
  | .analysis path error => "internal error analyzing " ++ path ++ ": " ++ error.message

def dedupFrom (previous : String) : List String → List String
  | [] => []
  | path :: rest =>
      if Files.samePath previous path then dedupFrom previous rest
      else path :: dedupFrom path rest

def dedup : List String → List String
  | [] => []
  | path :: rest => path :: dedupFrom path rest

def start (config : Config) (projectFiles : List String) : Session :=
  { config, projectFiles := dedup (projectFiles.mergeSort Files.pathLE), files := [], unlisted := 0 }

def file? (session : Session) (path : String) : Option CoveredFile :=
  session.files.find? fun file => Files.samePath file.path path

def coveredPaths (session : Session) : List String :=
  session.files.map CoveredFile.path

def rowOf (session : Session) (path : String) : Nat × Session :=
  match session.projectFiles.findIdx? (Files.samePath path) with
  | some row => (row, session)
  | none =>
      (session.projectFiles.length + session.unlisted,
        { session with unlisted := session.unlisted + 1 })

/-- Cover a path once: a path that was covered before keeps its file. A row given out stays given
out even when covering fails. -/
def register (session : Session) (path : String) (build : Nat → Except Error CoveredFile) :
    Except Error CoveredFile × Session :=
  match session.file? path with
  | some file => (.ok file, session)
  | none =>
      let (row, session) := session.rowOf path
      match build row with
      | .ok file => (.ok file, { session with files := session.files ++ [file] })
      | .error error => (.error error, session)

def coverText (config : Config) (path source : String) (program : Option Ast.Node) (row : Nat) :
    Except Error CoveredFile :=
  match CoveredFile.cover path source program config.trackerGlobal row with
  | .ok file => .ok file
  | .error error => .error (.build error)

def load (config : Config) (volume : Volume) (path : String) (row : Nat) :
    Except Error CoveredFile :=
  match volume.readText path with
  | .error fault => .error (.files fault)
  | .ok source =>
      let treePath := Files.sidecar path treeSuffix
      match volume.readText treePath with
      | .error fault => .error (.unreadableTree treePath fault)
      | .ok text =>
          match (Json.read text).bind Ast.Interchange.programOfJson? with
          | none => .error .malformed
          | some program => coverText config path source program row

def coverSource (session : Session) (path source : String) (program : Option Ast.Node) :
    Except Error CoveredFile × Session :=
  session.register path (coverText session.config path source program)

def coverFile (session : Session) (volume : Volume) (path : String) :
    Except Error CoveredFile × Session :=
  session.register path (load session.config volume path)

def instrument (session : Session) (volume : Volume) (path : String) :
    Except Error String × Session :=
  match session.coverFile volume path with
  | (.error error, session) => (.error error, session)
  | (.ok file, session) =>
      match file.instrumented session.config.temporaryStem with
      | .ok text => (.ok text, session)
      | .error error => (.error (.instrument error), session)

def hitsOf (volume : Volume) (path : String) : Except Error Probe.Hits :=
  let hitsPath := Files.sidecar path hitsSuffix
  if volume.exists? hitsPath then
    match volume.readText hitsPath with
    | .error fault => .error (.files fault)
    | .ok text =>
        match Probe.Hits.read text with
        | some hits => .ok hits
        | none => .error .malformed
  else .ok .empty

def analyzeCovered (config : Config) (volume : Volume) (path : String) (file : CoveredFile) :
    Except Error FileCoverage :=
  match hitsOf volume path with
  | .error error => .error error
  | .ok hits =>
      match file.analyze hits config with
      | .ok coverage => .ok coverage
      | .error error => .error (.analysis path error)

def analyze (session : Session) (volume : Volume) (path : String) :
    Except Error FileCoverage × Session :=
  match session.coverFile volume path with
  | (.error error, session) => (.error error, session)
  | (.ok file, session) => (analyzeCovered session.config volume path file, session)

def coverAll (session : Session) (volume : Volume) :
    List String → List (String × Except Error CoveredFile) × Session
  | [] => ([], session)
  | path :: rest =>
      let (covered, session) := session.coverFile volume path
      let (others, session) := session.coverAll volume rest
      ((path, covered) :: others, session)

/-- The coverage of several files. All are covered first, so that their rows go by their order. -/
def analyzeAll (session : Session) (volume : Volume) (paths : List String) :
    List (String × Except Error FileCoverage) × Session :=
  let (covered, session) := session.coverAll volume paths
  let analyzed := covered.map fun (path, result) =>
    (path, match result with
      | .ok file => analyzeCovered session.config volume path file
      | .error error => .error error)
  (analyzed, session)

def clear (session : Session) : Session :=
  { session with files := [], unlisted := 0 }

end Session

end ProbeCoverage
