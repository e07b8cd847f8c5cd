/-!
Paths as texts with slashes. Two paths are the same when their components are: repeated slashes,
slashes at the end and dots in the middle do not count.
-/

namespace ProbeCoverage.Files

def segments : List Char → List (List Char)
  | [] => [[]]
  | '/' :: rest => [] :: segments rest
  | c :: rest =>
      match segments rest with
      | [] => [[c]]
      | first :: others => (c :: first) :: others

inductive Component where
  | root
  /-- A dot at the start of a relative path. -/
  | current
  | up
  | name (text : String)
  deriving DecidableEq, Repr

namespace Component

def text : Component → String
  | .root => ""
  | .current => "."
  | .up => ".."
  | .name value => value

def rank : Component → Nat
  | .root => 0
  | .current => 1
  | .up => 2
  | .name _ => 3

def before (first second : Component) : Bool :=
  first.rank < second.rank || (first.rank == second.rank && decide (first.text < second.text))

end Component

/-- The component of a segment, if it counts. A dot counts only as the first segment of a relative
path. -/
def component? (first : Bool) (segment : List Char) : Option Component :=
  match segment with
  | [] => none
  | ['.'] => if first then some .current else none
  | ['.', '.'] => some .up
  | _ => some (.name (String.ofList segment))

def isAbsolute (path : String) : Bool :=
  path.toList.head? == some '/'

def components (path : String) : List Component :=
  match segments path.toList with
  | [] => []
  | first :: rest =>
      (if isAbsolute path then [Component.root] else (component? true first).toList) ++
        rest.filterMap (component? false)

def ofComponents : List Component → String
  | [] => ""
  | [.root] => "/"
  | parts => "/".intercalate (parts.map Component.text)

def samePath (first second : String) : Bool :=
  components first == components second

def componentsLE : List Component → List Component → Bool
  | [], _ => true
  | _ :: _, [] => false
  | first :: rest, second :: others =>
      first.before second || (first == second && componentsLE rest others)

def pathLE (first second : String) : Bool :=
  componentsLE (components first) (components second)

def join (base path : String) : String :=
  if isAbsolute path || base.isEmpty then path
  else if base.toList.getLast? == some '/' then base ++ path
  else base ++ "/" ++ path

def parent? (path : String) : Option String :=
  match components path with
  | [] => none
  | [.root] => none
  | parts => some (ofComponents parts.dropLast)

def stripComponents : List Component → List Component → Option (List Component)
  | [], rest => some rest
  | _ :: _, [] => none
  | expected :: more, found :: rest =>
      if expected = found then stripComponents more rest else none

def relativeTo? (base path : String) : Option String :=
  (stripComponents (components base) (components path)).map ofComponents

def isBelow (base path : String) : Bool :=
  (relativeTo? base path).isSome

def extensionOf (name : List Char) : Option (List Char) :=
  let reversed := name.reverse
  let extension := reversed.takeWhile (· != '.')
  if extension.length + 1 < name.length then some extension.reverse else none

def extension? (path : String) : Option String :=
  match (components path).getLast? with
  | some (.name name) => (extensionOf name.toList).map String.ofList
  | _ => none

def sidecar (path suffix : String) : String :=
  path ++ "." ++ suffix

end ProbeCoverage.Files
