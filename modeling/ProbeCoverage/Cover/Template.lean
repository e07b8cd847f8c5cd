import ProbeCoverage.Cover.Tracker
import ProbeCoverage.Text.Quoted

/-!
Templates: the text put around a node. A template is literal text with placeholders: one for the
node itself, which stands exactly once, one for a temporary variable of the node, and one for each
tracker that the owning node has.

A template may be given as a text with placeholders of the form `%{name}`, or piece by piece.
-/

namespace ProbeCoverage.Cover

inductive Segment where
  | text (value : String)
  | node
  | temporary
  | tracker (tracker : Tracker)
  deriving DecidableEq, Repr

def placeholderText (name : String) : String :=
  "%\x7b" ++ name ++ "\x7d"

def Segment.source : Segment → String
  | .text value => value
  | .node => placeholderText "node"
  | .temporary => placeholderText "local"
  | .tracker counter => placeholderText counter.placeholder

abbrev Pattern := List Segment

def Pattern.source (pattern : Pattern) : String :=
  String.join (pattern.map Segment.source)

structure Filling where
  temporary : String
  probe? : Tracker → Option String

structure Template where
  before : List Segment
  after : List Segment
  deriving DecidableEq, Repr

namespace Template

inductive Error where
  | unknownPlaceholder (name template : String)
  | unterminatedPlaceholder (template : String)
  | nodePlaceholder (template : String)
  deriving DecidableEq, Repr

def Error.message : Error → String
  | .unknownPlaceholder name template =>
      "unknown placeholder `" ++ placeholderText name ++ "` in template " ++ Text.quoted template
  | .unterminatedPlaceholder template =>
      "unterminated placeholder in template " ++ Text.quoted template
  | .nodePlaceholder template =>
      "template " ++ Text.quoted template ++ " must reference " ++ placeholderText "node" ++
        " exactly once"

def segment? (trackers : List Tracker) (name : String) : Option Segment :=
  if name == "node" then some .node
  else if name == "local" then some .temporary
  else (trackers.find? fun tracker => tracker.placeholder == name).map .tracker

inductive Mode where
  | text (read : List Char)
  /-- In literal text, behind a percent sign that is not among the characters read. -/
  | percent (read : List Char)
  | name (read : List Char)
  deriving DecidableEq, Repr

def textSegment (read : List Char) : List Segment :=
  match read with
  | [] => []
  | _ => [.text (String.ofList read.reverse)]

/-- Read the pieces of a template one character at a time. The first placeholder that is unknown
or never closed is reported. -/
def scan (template : String) (trackers : List Tracker) :
    Mode → List Char → Except Error (List Segment)
  | .text read, [] => .ok (textSegment read)
  | .percent read, [] => .ok (textSegment ('%' :: read))
  | .name _, [] => .error (.unterminatedPlaceholder template)
  | .text read, c :: rest =>
      if c == '%' then scan template trackers (.percent read) rest
      else scan template trackers (.text (c :: read)) rest
  | .percent read, c :: rest =>
      if c == '\x7b' then (scan template trackers (.name []) rest).map (textSegment read ++ ·)
      else if c == '%' then scan template trackers (.percent ('%' :: read)) rest
      else scan template trackers (.text (c :: '%' :: read)) rest
  | .name read, c :: rest =>
      if c == '\x7d' then
        match segment? trackers (String.ofList read.reverse) with
        | some segment => (scan template trackers (.text []) rest).map (segment :: ·)
        | none => .error (.unknownPlaceholder (String.ofList read.reverse) template)
      else scan template trackers (.name (c :: read)) rest

def split (template : String) (segments : List Segment) : Except Error Template :=
  if segments.count .node = 1 then
    .ok { before := segments.takeWhile (· != .node)
          after := (segments.dropWhile (· != .node)).drop 1 }
  else .error (.nodePlaceholder template)

def read (template : String) (trackers : List Tracker) : Except Error Template :=
  match scan template trackers (.text []) template.toList with
  | .ok segments => split template segments
  | .error error => .error error

def undeclared? (trackers : List Tracker) (pattern : Pattern) : Option Tracker :=
  pattern.findSome? fun
    | .tracker tracker => if tracker ∈ trackers then none else some tracker
    | _ => none

def ofPattern (pattern : Pattern) (trackers : List Tracker) : Except Error Template :=
  match undeclared? trackers pattern with
  | some tracker => .error (.unknownPlaceholder tracker.placeholder pattern.source)
  | none => split pattern.source pattern

def fill (filling : Filling) : List Segment → Option String
  | [] => some ""
  | .text value :: rest => (fill filling rest).map (value ++ ·)
  | .node :: rest => fill filling rest
  | .temporary :: rest => (fill filling rest).map (filling.temporary ++ ·)
  | .tracker tracker :: rest =>
      match filling.probe? tracker with
      | some probe => (fill filling rest).map (probe ++ ·)
      | none => none

def render (template : Template) (filling : Filling) : Option (String × String) :=
  match fill filling template.before, fill filling template.after with
  | some before, some after => some (before, after)
  | _, _ => none

end Template

end ProbeCoverage.Cover
