import ProbeCoverage.Cover.Tree

/-!
Looking around in a covered tree: parents, siblings, the order in which control reaches the
children of a node, counters, and the bytes that belong to a node alone.
-/

namespace ProbeCoverage.Cover

open Ast (Span)

def follower? (item : Nat) : List Nat → Option Nat
  | [] => none
  | [_] => none
  | first :: second :: rest =>
      if first = item then some second else follower? item (second :: rest)

def predecessor? (item : Nat) : List Nat → Option Nat
  | [] => none
  | [_] => none
  | first :: second :: rest =>
      if first = item then none
      else if second = item then some first
      else predecessor? item (second :: rest)

structure ByteRange where
  start : Nat
  stop : Nat
  deriving DecidableEq, Repr

def ByteRange.holds (range : ByteRange) (offset : Nat) : Bool :=
  range.start ≤ offset && offset < range.stop

def gaps (stop : Nat) (cursor : Nat) : List Span → List ByteRange
  | [] => if cursor < stop then [⟨cursor, stop⟩] else []
  | child :: rest =>
      let after := gaps stop (max cursor child.endByte) rest
      if cursor < child.startByte then ⟨cursor, min child.startByte stop⟩ :: after else after

namespace CoverTree

def ids (tree : CoverTree) : List Nat :=
  List.range tree.size

def childAt? (tree : CoverTree) (id index : Nat) : Option Nat :=
  (tree.cell? id).bind fun cell => cell.child? index

def kind? (tree : CoverTree) (id : Nat) : Option Kind :=
  (tree.cell? id).map Cell.kind

def program (tree : CoverTree) : Nat :=
  if tree.kind? 0 = some .root then (tree.childAt? 0 0).getD 0 else 0

def at? (tree : CoverTree) (path : List Nat) : Option Nat :=
  path.foldlM tree.childAt? tree.program

def parent? (tree : CoverTree) (id : Nat) : Option Nat :=
  (tree.cell? id).bind Cell.parent

def nextSibling? (tree : CoverTree) (id : Nat) : Option Nat := do
  let cell ← tree.cell? id
  let parent ← tree.cell? (← cell.parent)
  (parent.children.drop (cell.index + 1)).findSome? Slot.node?

def previousSibling? (tree : CoverTree) (id : Nat) : Option Nat := do
  let cell ← tree.cell? id
  let parent ← tree.cell? (← cell.parent)
  (parent.children.take cell.index).reverse.findSome? Slot.node?

/-- The children of a node in the order in which control reaches them. The value of a multiple
assignment comes before its targets. -/
def flowChildren (tree : CoverTree) (id : Nat) : List Nat :=
  match tree.cell? id with
  | some cell => if cell.kind = .multipleAssignment then cell.nodes.reverse else cell.nodes
  | none => []

def previousInFlow? (tree : CoverTree) (id : Nat) : Option Nat :=
  (tree.parent? id).bind fun parent => predecessor? id (tree.flowChildren parent)

def nextInFlow? (tree : CoverTree) (id : Nat) : Option Nat :=
  (tree.parent? id).bind fun parent => follower? id (tree.flowChildren parent)

def lastInFlow? (tree : CoverTree) (id : Nat) : Option Nat :=
  (tree.flowChildren id).getLast?

def trackerSlot? (tree : CoverTree) (id : Nat) (tracker : Tracker) : Option Nat := do
  let cell ← tree.cell? id
  let offset ← cell.kind.trackerIndex? tracker
  pure (cell.firstSlot + offset)

def childSpans (tree : CoverTree) (cell : Cell) : List Span :=
  (cell.nodes.filterMap fun child => (tree.cell? child).bind Cell.span).mergeSort
    fun first second => first.startByte ≤ second.startByte

def properRange (tree : CoverTree) (id : Nat) : List ByteRange :=
  match tree.cell? id with
  | some cell =>
      match cell.span with
      | some span => gaps span.endByte span.startByte (tree.childSpans cell)
      | none => []
  | none => []

def caseHasSubject (tree : CoverTree) (matcher : Nat) : Bool :=
  (tree.parent? matcher |>.bind tree.parent? |>.bind fun dispatch => tree.childAt? dispatch 0).isSome

def setup (tree : CoverTree) : String :=
  tree.allocator.setup

end CoverTree

end ProbeCoverage.Cover
