import ProbeCoverage.Ast.Node
import ProbeCoverage.Cover.Kind
import ProbeCoverage.Probe.Allocator

/-!
Covered trees. A covered tree has a node for every node of a syntax tree, and besides a wrapper
around the program, a wrapper around each test of a `when`, and an empty body where a body is
missing. Nodes are numbered in pre-order, and the number of a node is its place in the list of
cells, which records each node with its parent and the numbers of its children.
-/

namespace ProbeCoverage.Cover

open Ast (Atom Shape Span)
open Probe (Allocator)

inductive Anchor where
  | exactly (offset : Nat)
  /-- Behind the first `{` or `do` from this offset on. -/
  | afterBlockOpener (offset : Nat)
  /-- Behind the name of the method whose definition starts at this offset. -/
  | afterMethodName (offset : Nat)
  deriving DecidableEq, Repr

/-- What a covered node holds besides its children. Its counters are in consecutive slots. -/
structure Info where
  kind : Kind
  /-- Missing for wrappers and empty bodies. -/
  shape : Option Shape
  number : Nat
  firstSlot : Nat
  span : Option Span
  anchor : Option Anchor

mutual

inductive Covered where
  | mk (info : Info) (branches : List Branch)

inductive Branch where
  | node (covered : Covered)
  | atom (atom : Atom)

end

def Covered.info : Covered → Info
  | .mk info _ => info

def Covered.branches : Covered → List Branch
  | .mk _ branches => branches

inductive Slot where
  | node (id : Nat)
  | atom (atom : Atom)

namespace Slot

def node? : Slot → Option Nat
  | .node id => some id
  | .atom _ => none

def text? : Slot → Option String
  | .node _ => none
  | .atom value => value.text?

end Slot

def Branch.slot : Branch → Slot
  | .node covered => .node covered.info.number
  | .atom value => .atom value

def Branch.isFull : Branch → Bool
  | .node covered => covered.info.kind != .emptyBody
  | .atom _ => false

/-- The branch of a conditional that is counted: the first one that is not empty. -/
def trackedBranch (kind : Kind) (branches : List Branch) : Option Nat :=
  if kind = .conditional then
    [1, 2].find? fun index => (branches[index]?).any Branch.isFull
  else none

structure Cell where
  kind : Kind
  shape : Option Shape
  parent : Option Nat
  index : Nat
  number : Nat
  children : List Slot
  span : Option Span
  anchor : Option Anchor
  /-- Which child a conditional counts. -/
  tracked : Option Nat
  firstSlot : Nat

namespace Cell

def tag (cell : Cell) : String :=
  match cell.shape with
  | some shape => shape.tag
  | none =>
      match cell.kind with
      | .root => "root"
      | .matcher | .splatMatcher => "when_matcher"
      | _ => "empty_body"

def endSlot (cell : Cell) : Nat :=
  cell.firstSlot + cell.kind.trackers.length

def nodes (cell : Cell) : List Nat :=
  cell.children.filterMap Slot.node?

def child? (cell : Cell) (index : Nat) : Option Nat :=
  (cell.children[index]?).bind Slot.node?

def text? (cell : Cell) (index : Nat) : Option String :=
  (cell.children[index]?).bind Slot.text?

end Cell

def Info.cell (info : Info) (parent : Option Nat) (index : Nat) (branches : List Branch) : Cell :=
  { kind := info.kind, shape := info.shape, parent, index, number := info.number
    children := branches.map Branch.slot, span := info.span, anchor := info.anchor
    tracked := trackedBranch info.kind branches, firstSlot := info.firstSlot }

mutual

def Covered.cellsUnder (parent : Option Nat) (index : Nat) : Covered → List Cell
  | .mk info branches =>
      info.cell parent index branches :: cellsOfBranches info.number 0 branches

def cellsOfBranches (parent : Nat) (index : Nat) : List Branch → List Cell
  | [] => []
  | .node covered :: rest =>
      covered.cellsUnder (some parent) index ++ cellsOfBranches parent (index + 1) rest
  | .atom _ :: rest => cellsOfBranches parent (index + 1) rest

end

def Covered.cells (root : Covered) : List Cell :=
  root.cellsUnder none 0

structure CoverTree where
  root : Covered
  allocator : Allocator
  cells : Array Cell
  cells_eq : cells = root.cells.toArray

namespace CoverTree

def ofRoot (root : Covered) (allocator : Allocator) : CoverTree :=
  { root, allocator, cells := root.cells.toArray, cells_eq := rfl }

def size (tree : CoverTree) : Nat :=
  tree.cells.size

def cell? (tree : CoverTree) (id : Nat) : Option Cell :=
  tree.cells[id]?

end CoverTree

end ProbeCoverage.Cover
