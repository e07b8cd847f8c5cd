import ProbeCoverage.CommandLine.Run

/-!
The program. It reads the directories that a command line names into a volume, runs the command
there, prints what the run printed, and writes the files that the run changed.
-/

namespace ProbeCoverage

open CommandLine (Command Invocation Outcome Usage)
open Files (Entry Volume)

partial def snapshot (place : IO.FS.DirEntry) : IO Entry := do
  if ← place.path.isDir then
    let mut entries : List (String × Entry) := []
    for child in ← place.path.readDir do
      let hidden ← if child.fileName.startsWith "." then child.path.isDir else pure false
      unless hidden do
        entries := (child.fileName, ← snapshot child) :: entries
    return .directory entries.reverse
  else
    return .file (← IO.FS.readBinFile place.path)

def namesOf (path : String) : List String :=
  (Files.components path).filterMap fun
    | .name name => some name
    | _ => none

def directoryOf (path : String) : IO (Option String) := do
  let place : IO.FS.DirEntry := { root := path, fileName := "." }
  let parent : IO.FS.DirEntry := { root := (Files.parent? path).getD ".", fileName := "." }
  if ← place.path.isDir then
    return some (← IO.FS.realPath place.path).toString
  else if ← parent.path.isDir then
    return some (← IO.FS.realPath parent.path).toString
  else return none

def namedPaths : Command → List String
  | .instrument options =>
      options.path :: (options.outDir.toList ++ options.root.toList ++ options.config.toList)
  | .report options => options.path :: options.config.toList

def volumeFor (command : Command) : IO Volume := do
  let current := (← IO.currentDir).toString
  let mut root : Entry := .directory []
  for path in current :: namedPaths command do
    match ← directoryOf path with
    | some directory =>
        if (Entry.get? (namesOf directory) root).isNone then
          root := Entry.put (← snapshot { root := directory, fileName := "." })
            (namesOf directory) root
    | none => pure ()
  return { root, current := namesOf current }

def writeChanges (before after : Volume) : IO Unit := do
  for (path, content) in after.root.filesUnder false "/" do
    let unchanged :=
      match Entry.get? (namesOf path) before.root with
      | some (.file old) => old.data == content.data
      | _ => false
    unless unchanged do
      match Files.parent? path with
      | some parent => IO.FS.createDirAll parent
      | none => pure ()
      IO.FS.writeBinFile path content

def usageText : Usage → String
  | .help | .nothing =>
      "Usage: deepcover [-v] instrument PATH [-o DIR] [--root DIR] [-c FILE]\n" ++
        "       deepcover [-v] report PATH [-c FILE] [-f pretty|json] [-t PERCENT] [--show-source]\n"
  | .version => "deepcover " ++ Report.version ++ "\n"
  | .missingCommand => "error: a command is required\n"
  | .unknownCommand => "error: unknown command\n"
  | .missingPath => "error: a path is required\n"
  | .unknownArgument => "error: unexpected argument\n"
  | .invalidValue => "error: an option lacks its value\n"
  | .notANumber => "error: a threshold is a number\n"
  | .repeated => "error: an option is given twice\n"
  | .unexpectedValue => "error: an option takes no value\n"

end ProbeCoverage

open ProbeCoverage in
def main (words : List String) : IO UInt32 := do
  match CommandLine.parse words with
  | .error .help => IO.print (usageText .help); return 0
  | .error .version => IO.print (usageText .version); return 0
  | .error usage => IO.eprint (usageText usage); return 2
  | .ok invocation =>
      let volume ← volumeFor invocation.command
      let colours ← (← IO.getStdout).isTty
      let outcome := CommandLine.run volume colours invocation.command
      writeChanges volume outcome.volume
      IO.print outcome.out
      IO.eprint outcome.err
      return outcome.exit.toUInt32
