import ProbeCoverage.Cover.Lookup
import ProbeCoverage.Flow.Error

/-!
Plans: the text put before and behind each node. A node's own template stands inside the template
that its parent puts around the child. A source text cannot be instrumented where the spans of the
tree do not fit it, or where there is no place for a probe.
-/

namespace ProbeCoverage.Instrument

open ProbeCoverage.Flow (nodeText)

inductive Error where
  /-- A span that lies outside the text, or ends before it starts. -/
  | outOfBounds (node start stop size : Nat)
  /-- A child that starts before the previous one ends, or ends behind its parent. -/
  | overlap (node child : Nat)
  | missingAnchor (node : Nat)
  | missingTracker (node : Nat)
  /-- A span that starts or ends inside a character. -/
  | charBoundary (node start stop : Nat)
  | template (error : Cover.Template.Error)
  | badSlice (start stop : Nat)
  | unknownNode (node : Nat)
  deriving DecidableEq, Repr

def Error.message : Error → String
  | .outOfBounds node start stop size =>
      s!"span {start}..{stop} of node {nodeText node} is outside the {size}-byte source"
  | .overlap node child =>
      s!"child {nodeText child} of node {nodeText node} overlaps a previous sibling"
  | .missingAnchor node => s!"node {nodeText node} has no location to splice its probes at"
  | .missingTracker node => s!"node {nodeText node} names a tracker it never reserved"
  | .charBoundary node start stop =>
      s!"span {start}..{stop} of node {nodeText node} does not fall on character boundaries"
  | .template error => error.message
  | .badSlice start stop => s!"bytes {start}..{stop} cannot be cut out of the source"
  | .unknownNode node => s!"there is no node {nodeText node}"

open Cover (CoverTree Filling Pattern Template)

def defaultStem : String := "_dc_l"

structure Plan where
  before : String
  after : String
  deriving DecidableEq, Repr

namespace Plan

def empty : Plan := ⟨"", ""⟩

def isEmpty (plan : Plan) : Bool :=
  plan.before.isEmpty && plan.after.isEmpty

def around (outer inner : Plan) : Plan :=
  ⟨outer.before ++ inner.before, inner.after ++ outer.after⟩

end Plan

def temporaryName (stem : String) (number : Nat) : String :=
  stem ++ Decimal.natText number

def fillPattern (tree : CoverTree) (stem : String) (owner : Cover.Cell) (target : Nat)
    (pattern : Pattern) : Except Error Plan :=
  match Template.ofPattern pattern owner.kind.trackers with
  | .error error => .error (.template error)
  | .ok template =>
      let filling : Filling :=
        { temporary := temporaryName stem target
          probe? := fun tracker =>
            (tree.trackerSlot? owner.number tracker).map tree.allocator.probe }
      match template.render filling with
      | some (before, after) => .ok ⟨before, after⟩
      | none => .error (.missingTracker owner.number)

def ownPlan (tree : CoverTree) (stem : String) (cell : Cover.Cell) : Except Error Plan :=
  let hasSubject := cell.kind.isMatcher && tree.caseHasSubject cell.number
  match cell.kind.ownPattern hasSubject with
  | some pattern => fillPattern tree stem cell cell.number pattern
  | none => .ok .empty

def parentPlan (tree : CoverTree) (stem : String) (cell : Cover.Cell) : Except Error Plan :=
  match cell.parent with
  | none => .ok .empty
  | some parent =>
      match tree.cell? parent with
      | none => .error (.unknownNode parent)
      | some owner =>
          match owner.kind.childPattern cell.index owner.children.length owner.tracked
              (cell.kind = .emptyBody) with
          | some pattern => fillPattern tree stem owner cell.number pattern
          | none => .ok .empty

def plan (tree : CoverTree) (stem : String) (id : Nat) : Except Error Plan :=
  match tree.cell? id with
  | none => .error (.unknownNode id)
  | some cell =>
      match ownPlan tree stem cell with
      | .error error => .error error
      | .ok own =>
          match parentPlan tree stem cell with
          | .error error => .error error
          | .ok outer => .ok (outer.around own)

end ProbeCoverage.Instrument
