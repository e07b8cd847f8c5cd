import ProbeCoverage.Cover.Classify
import ProbeCoverage.Cover.Tree

/-!
Covering a syntax tree: one pass from the top that gives each node its kind, its number and its
counters. The pass refuses unknown tags, nodes with a wrong number of children, and children in
places where their parent cannot hold them.
-/

namespace ProbeCoverage.Cover

open Ast (Child Node Shape Span)
open Probe (Allocator)

def place (allocator : Allocator) (kind : Kind) (shape : Option Shape) (span : Option Span)
    (anchor : Option Anchor) : Info × Allocator :=
  ({ kind, shape, number := allocator.nextNumber, firstSlot := allocator.nextSlot, span, anchor },
    allocator.skipNumber.reserve kind.trackers.length)

def patterns (kind : Kind) (count : Nat) : List Pattern :=
  [true, false].filterMap kind.ownPattern ++
    (List.range count).flatMap fun index =>
      [some index, none].flatMap fun tracked =>
        [false, true].filterMap (kind.childPattern index count tracked)

def patternFault? (kind : Kind) (count : Nat) : Option Template.Error :=
  (patterns kind count).findSome? fun pattern =>
    match Template.ofPattern pattern kind.trackers with
    | .ok _ => none
    | .error error => some error

def shapeOf (node : Node) : Except BuildError Shape :=
  match Shape.ofTag? node.tag with
  | some shape => .ok shape
  | none => .error (.unknownShape node.tag)

def located? (children : List Child) (index : Nat) : Option Span :=
  (children[index]?).bind Child.node? |>.bind Node.location

def precedingSpan? (children : List Child) (index : Nat) : Option Span :=
  (List.range index).reverse.findSome? (located? children)

def handlerWordLength : Nat := "rescue".length

def emptyAnchor (kind : Kind) (location : Option Span) (children : List Child) (index : Nat) :
    Option Anchor :=
  match kind with
  | .block =>
      match located? children 1 with
      | some parameters => some (.exactly parameters.endByte)
      | none => (located? children 0).map fun call => .afterBlockOpener call.endByte
  | .method =>
      match located? children 1 with
      | some parameters => some (.exactly parameters.endByte)
      | none => location.map fun span => .afterMethodName span.startByte
  | .handler =>
      match precedingSpan? children index with
      | some span => some (.exactly span.endByte)
      | none => location.map fun span => .exactly (span.startByte + handlerWordLength)
  | _ =>
      match precedingSpan? children index with
      | some span => some (.exactly span.endByte)
      | none => location.map fun span => .exactly span.startByte

mutual

def cover (kind : Kind) (shape : Shape) (allocator : Allocator) :
    Node → Except BuildError (Covered × Allocator)
  | .mk _ children location =>
      if shape.arity.accepts children.length then
        match patternFault? kind children.length with
        | some error => .error (.template error)
        | none =>
            let (info, allocator) := place allocator kind (some shape) location none
            match coverChildren kind shape children.length (emptyAnchor kind location children) 0
                allocator children with
            | .ok (branches, allocator) => .ok (.mk info branches, allocator)
            | .error error => .error error
      else .error (.arity shape children.length)

/-- Cover the child slots of a node from `index` of `count` on. `anchor` tells where empty bodies
stand. -/
def coverChildren (parent : Kind) (parentShape : Shape) (count : Nat)
    (anchor : Nat → Option Anchor) (index : Nat) (allocator : Allocator) :
    List Child → Except BuildError (List Branch × Allocator)
  | [] => .ok ([], allocator)
  | .node node :: rest =>
      match shapeOf node with
      | .error error => .error error
      | .ok shape =>
          match classify parent (some parentShape) index count shape with
          | .error error => .error error
          | .ok kind =>
              match
                if kind.isMatcher then
                  match patternFault? kind 1 with
                  | some error => .error (.template error)
                  | none =>
                      let (info, allocator) := place allocator kind none node.location none
                      match cover (.ofShape shape) shape allocator node with
                      | .ok (test, allocator) => .ok (.mk info [.node test], allocator)
                      | .error error => .error error
                else cover kind shape allocator node
              with
              | .error error => .error error
              | .ok (covered, allocator) =>
                  match coverChildren parent parentShape count anchor (index + 1) allocator rest with
                  | .ok (branches, allocator) => .ok (.node covered :: branches, allocator)
                  | .error error => .error error
  | .atom atom :: rest =>
      if atom.isNil && parent.mayBeEmpty index count then
        let (info, allocator) := place allocator .emptyBody none none (anchor index)
        match coverChildren parent parentShape count anchor (index + 1) allocator rest with
        | .ok (branches, allocator) => .ok (.node (.mk info []) :: branches, allocator)
        | .error error => .error error
      else
        match coverChildren parent parentShape count anchor (index + 1) allocator rest with
        | .ok (branches, allocator) => .ok (.atom atom :: branches, allocator)
        | .error error => .error error

end

namespace CoverTree

/-- Cover a program. A wrapper around it counts how often the program is started. -/
def ofProgram (global : String) (fileIndex : Nat) (program : Node) :
    Except BuildError CoverTree :=
  let (info, allocator) := place (.fresh global fileIndex) .root none none none
  match shapeOf program with
  | .error error => .error error
  | .ok shape =>
      match classify .root none 0 1 shape with
      | .error error => .error error
      | .ok kind =>
          match cover kind shape allocator program with
          | .ok (covered, allocator) => .ok (ofRoot (.mk info [.node covered]) allocator)
          | .error error => .error error

def ofNothing (global : String) (fileIndex : Nat) : CoverTree :=
  let (info, allocator) := place (.fresh global fileIndex) .root none none none
  let (body, allocator) := place allocator .emptyBody none none (some (.exactly 0))
  ofRoot (.mk info [.node (.mk body [])]) allocator

def ofFragment (global : String) (fileIndex : Nat) (fragment : Node) :
    Except BuildError CoverTree :=
  match shapeOf fragment with
  | .error error => .error error
  | .ok shape =>
      match cover (.ofShape shape) shape (.fresh global fileIndex) fragment with
      | .ok (covered, allocator) => .ok (ofRoot covered allocator)
      | .error error => .error error

def build (global : String) (fileIndex : Nat) : Option Node → Except BuildError CoverTree
  | some program => ofProgram global fileIndex program
  | none => .ok (ofNothing global fileIndex)

end CoverTree

end ProbeCoverage.Cover
