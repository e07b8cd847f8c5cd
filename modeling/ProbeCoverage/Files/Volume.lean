import ProbeCoverage.Files.Path

/-!
Files and directories as a value. A volume is a tree of directories with a current directory, and
operations on it fail for the same reasons as those of an operating system.
-/

namespace ProbeCoverage.Files

inductive Fault where
  | missing
  | notDirectory
  | isDirectory
  | alreadyExists
  | notText
  deriving DecidableEq, Repr

def Fault.message : Fault → String
  | .missing => "No such file or directory (os error 2)"
  | .notDirectory => "Not a directory (os error 20)"
  | .isDirectory => "Is a directory (os error 21)"
  | .alreadyExists => "File exists (os error 17)"
  | .notText => "stream did not contain valid UTF-8"

inductive Entry where
  | file (content : ByteArray)
  | directory (entries : List (String × Entry))

namespace Entry

def isDirectory : Entry → Bool
  | .directory _ => true
  | .file _ => false

def child? (name : String) : Entry → Option Entry
  | .directory entries => (entries.find? fun entry => entry.1 == name).map Prod.snd
  | .file _ => none

def get? : List String → Entry → Option Entry
  | [], entry => some entry
  | name :: rest, entry => (entry.child? name).bind (get? rest)

def putChild (name : String) (child : Entry) : Entry → Entry
  | .directory entries =>
      if entries.any fun entry => entry.1 == name then
        .directory (entries.map fun entry => if entry.1 == name then (name, child) else entry)
      else .directory (entries ++ [(name, child)])
  | .file content => .file content

/-- Put an entry below, by names. Directories on the way come into being. -/
def put (new : Entry) : List String → Entry → Entry
  | [], _ => new
  | name :: rest, entry =>
      putChild name (put new rest ((entry.child? name).getD (.directory []))) entry

def erase : List String → Entry → Entry
  | [], entry => entry
  | [name], .directory entries => .directory (entries.filter fun entry => entry.1 != name)
  | [_], .file content => .file content
  | name :: next :: rest, entry =>
      match entry.child? name with
      | some child => putChild name (erase (next :: rest) child) entry
      | none => entry

mutual

/-- All files below an entry, each with its path and content. `skipHidden` passes over directories
whose names start with a dot. -/
def filesUnder (skipHidden : Bool) (path : String) : Entry → List (String × ByteArray)
  | .file content => [(path, content)]
  | .directory entries => filesOf skipHidden path entries

def filesOf (skipHidden : Bool) (path : String) : List (String × Entry) → List (String × ByteArray)
  | [] => []
  | (name, child) :: rest =>
      let hidden := skipHidden && child.isDirectory && name.toList.head? == some '.'
      (if hidden then [] else filesUnder skipHidden (join path name) child) ++
        filesOf skipHidden path rest

end

end Entry

structure Volume where
  root : Entry
  current : List String

namespace Volume

/-- Follow segments of a path from a directory on. Each segment, a dot or nothing included, needs a
directory to stand in. -/
def follow (root : Entry) : List String → List (List Char) → Except Fault (List String)
  | place, [] => .ok place
  | place, segment :: rest =>
      match Entry.get? place root with
      | none => .error .missing
      | some (.file _) => .error .notDirectory
      | some (.directory entries) =>
          match component? false segment with
          | some .up => follow root place.dropLast rest
          | some (.name name) =>
              if entries.any fun entry => entry.1 == name then follow root (place ++ [name]) rest
              else .error .missing
          | _ => follow root place rest

def start (volume : Volume) (path : String) : List String × List (List Char) :=
  let parts := segments path.toList
  if isAbsolute path then ([], parts.drop 1) else (volume.current, parts)

def resolve (volume : Volume) (path : String) : Except Fault (List String) :=
  if path.isEmpty then .error .missing
  else
    let (place, parts) := volume.start path
    follow volume.root place parts

def get (volume : Volume) (path : String) : Except Fault Entry :=
  match volume.resolve path with
  | .error fault => .error fault
  | .ok place =>
      match Entry.get? place volume.root with
      | some entry => .ok entry
      | none => .error .missing

def exists? (volume : Volume) (path : String) : Bool :=
  match volume.get path with
  | .ok _ => true
  | .error _ => false

def isDirectory (volume : Volume) (path : String) : Bool :=
  match volume.get path with
  | .ok entry => entry.isDirectory
  | .error _ => false

def canonical (volume : Volume) (path : String) : Except Fault String :=
  match volume.resolve path with
  | .ok place => .ok ("/" ++ "/".intercalate place)
  | .error fault => .error fault

def readText (volume : Volume) (path : String) : Except Fault String :=
  match volume.get path with
  | .error fault => .error fault
  | .ok (.directory _) => .error .isDirectory
  | .ok (.file content) =>
      match String.fromUTF8? content with
      | some text => .ok text
      | none => .error .notText

/-- The directory that is to hold the last segment of a path, and the name of that segment unless
it stands for a directory by itself. -/
def placeOf (volume : Volume) (path : String) : Except Fault (List String × Option String) :=
  if path.isEmpty then .error .missing
  else
    let (place, parts) := volume.start path
    match follow volume.root place parts.dropLast with
    | .error fault => .error fault
    | .ok directory =>
        match Entry.get? directory volume.root with
        | none => .error .missing
        | some (.file _) => .error .notDirectory
        | some (.directory _) =>
            match parts.getLast?.bind (component? false) with
            | some (.name name) => .ok (directory, some name)
            | _ => .ok (directory, none)

def writeText (volume : Volume) (path text : String) : Except Fault Volume :=
  match volume.placeOf path with
  | .error fault => .error fault
  | .ok (_, none) => .error .isDirectory
  | .ok (directory, some name) =>
      let place := directory ++ [name]
      match Entry.get? place volume.root with
      | some (.directory _) => .error .isDirectory
      | _ => .ok { volume with root := Entry.put (.file text.toUTF8) place volume.root }

def makeDirectory (volume : Volume) (path : String) : Except Fault Volume :=
  match volume.placeOf path with
  | .error fault => .error fault
  | .ok (_, none) => .error .alreadyExists
  | .ok (directory, some name) =>
      let place := directory ++ [name]
      match Entry.get? place volume.root with
      | some _ => .error .alreadyExists
      | none => .ok { volume with root := Entry.put (.directory []) place volume.root }

def unlessDirectory (volume : Volume) (path : String) (fault : Fault) : Except Fault Volume :=
  if volume.isDirectory path then .ok volume else .error fault

def makeDirectoriesWith (volume : Volume) : Nat → String → Except Fault Volume
  | 0, _ => .ok volume
  | depth + 1, path =>
      if path.isEmpty then .ok volume
      else
        match volume.makeDirectory path with
        | .ok made => .ok made
        | .error .missing =>
            match parent? path with
            | none => .error .missing
            | some parent =>
                match volume.makeDirectoriesWith depth parent with
                | .error fault => .error fault
                | .ok made =>
                    match made.makeDirectory path with
                    | .ok made => .ok made
                    | .error fault => made.unlessDirectory path fault
        | .error fault => volume.unlessDirectory path fault

def makeDirectories (volume : Volume) (path : String) : Except Fault Volume :=
  volume.makeDirectoriesWith ((components path).length + 1) path

def remove (volume : Volume) (path : String) : Except Fault Volume :=
  match volume.resolve path with
  | .error fault => .error fault
  | .ok place =>
      match Entry.get? place volume.root with
      | some (.directory _) => .error .isDirectory
      | _ => .ok { volume with root := Entry.erase place volume.root }

end Volume

end ProbeCoverage.Files
