import ProbeCoverage.Cover.Lookup
import ProbeCoverage.Flow.Formula

/-!
The rules that give each count of each node its formula. In a plain sequence a node is entered as
often as the one before it completed. Branches, dispatches, handlers and assignments break this
chain, and each has rules of its own.
-/

namespace ProbeCoverage.Flow

open Cover (Cell CoverTree Kind Tracker)

def entryOf (node : Nat) : Formula := .count ⟨.entry, node⟩

def completionOf (node : Nat) : Formula := .count ⟨.completion, node⟩

def interruptionOf (node : Nat) : Formula := .count ⟨.interruption, node⟩

def hitsOf (tree : CoverTree) (node : Nat) (tracker : Tracker) : Formula :=
  match tree.trackerSlot? node tracker with
  | some slot => .hits slot
  | none => .fail (.missingTracker node tracker)

def withChild (cell : Cell) (index : Nat) (role : Role) (use : Nat → Formula) : Formula :=
  match cell.child? index with
  | some child => use child
  | none => .fail (.missingChild cell.number role)

def childCompletion (cell : Cell) (index : Nat) : Formula :=
  match cell.child? index with
  | some child => completionOf child
  | none => .zero

def laterCompletions (cell : Cell) : Formula :=
  .sum ((cell.children.drop 1).filterMap Cover.Slot.node? |>.map completionOf)

def matchers (tree : CoverTree) (cell : Cell) : List Nat :=
  cell.nodes.filter fun child => (tree.kind? child).any Kind.isMatcher

def whenBodyEntry (tree : CoverTree) (cell : Cell) : Formula :=
  .sum ((matchers tree cell).map fun matcher => hitsOf tree matcher .matched)

/-- How often a `when` finished testing: all matches, and the misses of the last matcher. -/
def whenTested (tree : CoverTree) (cell : Cell) : Formula :=
  .plus (whenBodyEntry tree cell)
    (match (matchers tree cell).getLast? with
      | some last => hitsOf tree last .missed
      | none => .zero)

def whenFallThrough (tree : CoverTree) (cell : Cell) : Formula :=
  .minus (.difference cell.number .fallThrough) (whenTested tree cell) (whenBodyEntry tree cell)

/-- How often a handler finished testing the exception. A bare handler tests nothing. -/
def handlerTested (cell : Cell) : Formula :=
  match cell.child? 0 with
  | some exceptions => completionOf exceptions
  | none => entryOf cell.number

def handlerUnhandled (tree : CoverTree) (cell : Cell) : Formula :=
  .minus (.difference cell.number .unhandled) (handlerTested cell)
    (hitsOf tree cell.number .handlerEntry)

def forwardEntry (tree : CoverTree) (parent child : Cell) : Formula :=
  match tree.previousInFlow? child.number with
  | some previous => completionOf previous
  | none => entryOf parent.number

/-- Entry of a branch of a conditional. When both branches are empty, the first one takes every
pass. -/
def branchEntry (tree : CoverTree) (parent : Cell) (index : Nat) : Formula :=
  withChild parent 0 .condition fun condition =>
    let reached := completionOf condition
    match parent.tracked with
    | some tracked =>
        if tracked = index then .after reached (hitsOf tree parent.number .branch)
        else
          .minus (.difference parent.number .otherBranch) reached
            (hitsOf tree parent.number .branch)
    | none => if index = 1 then reached else .after reached .zero

def clauseEntry (tree : CoverTree) (parent child : Cell) : Formula :=
  match (tree.previousSibling? child.number).bind tree.cell? with
  | some previous =>
      if previous.kind = .whenClause then whenFallThrough tree previous
      else completionOf previous.number
  | none => entryOf parent.number

def whenChildEntry (tree : CoverTree) (parent : Cell) (index : Nat) : Formula :=
  if index = parent.children.length - 1 then whenBodyEntry tree parent
  else if index = 0 then entryOf parent.number
  else withChild parent (index - 1) .matcher fun matcher => hitsOf tree matcher .missed

def guardedChildEntry (tree : CoverTree) (parent child : Cell) : Formula :=
  withChild parent 0 .guardedBody fun body =>
    if child.kind = .handler then
      match (tree.previousSibling? child.number).bind tree.cell? with
      | some previous =>
          if previous.kind = .handler then handlerUnhandled tree previous else interruptionOf body
      | none => interruptionOf body
    else completionOf body

def childEntry (tree : CoverTree) (parent child : Cell) : Formula :=
  let first := child.index = 0
  match parent.kind with
  | .root => .supplied (hitsOf tree parent.number .root)
  | .conditional => if first then entryOf parent.number else branchEntry tree parent child.index
  | .shortCircuit =>
      if first then entryOf parent.number else hitsOf tree parent.number .rightOperand
  | .caseDispatch => if first then entryOf parent.number else clauseEntry tree parent child
  | .whenClause => whenChildEntry tree parent child.index
  | .guarded => if first then entryOf parent.number else guardedChildEntry tree parent child
  | .handler => if first then entryOf parent.number else hitsOf tree parent.number .handlerEntry
  | .method => if first then forwardEntry tree parent child else hitsOf tree parent.number .call
  | .block => if first then forwardEntry tree parent child else hitsOf tree parent.number .bodyEntry
  | .optionalParameter =>
      if first then forwardEntry tree parent child else hitsOf tree parent.number .default
  | .setterTarget =>
      if first then hitsOf tree parent.number .entry else forwardEntry tree parent child
  | .operatorAssignment =>
      if first then entryOf parent.number else hitsOf tree parent.number .reader
  | .booleanAssignment =>
      if first then entryOf parent.number else hitsOf tree parent.number .longBranch
  | _ => forwardEntry tree parent child

/-- Entry of a node. Assignment targets among several are entered as often as they complete;
setters, which can fail, have a counter. -/
def entryRule (tree : CoverTree) (cell : Cell) : Formula :=
  match cell.parent with
  | none =>
      .supplied
        (if cell.kind = .root then hitsOf tree cell.number .root
          else .fail (.missingEntryCount cell.number))
  | some parent =>
      if cell.kind = .setterTarget then hitsOf tree cell.number .entry
      else
        match tree.cell? parent with
        | none => .fail (.unknownNode parent)
        | some parent =>
            if cell.kind.propagation = .alternate && parent.kind != .multipleAssignment then
              completionOf cell.number
            else childEntry tree parent cell

def lastCompletion (tree : CoverTree) (cell : Cell) : Formula :=
  match tree.lastInFlow? cell.number with
  | some last => completionOf last
  | none => entryOf cell.number

def targetCompletion (tree : CoverTree) (cell : Cell) : Formula :=
  match tree.nextInFlow? cell.number with
  | some next => entryOf next
  | none =>
      match cell.parent with
      | some parent => completionOf parent
      | none => entryOf cell.number

/-- Completion of `&&` or `||`: left operands that decided alone, and right operands. -/
def shortCircuitCompletion (cell : Cell) : Formula :=
  withChild cell 0 .leftOperand fun left =>
    withChild cell 1 .rightOperand fun right =>
      .plus
        (.minus (.difference cell.number .skippedOperand) (completionOf left) (entryOf right))
        (completionOf right)

def structuralCompletion (tree : CoverTree) (cell : Cell) : Formula :=
  match cell.kind with
  | .blockCall =>
      match cell.parent with
      | some block => completionOf block
      | none => entryOf cell.number
  | .shortCircuit => shortCircuitCompletion cell
  | .conditional => .plus (childCompletion cell 1) (childCompletion cell 2)
  | .caseDispatch | .guarded => laterCompletions cell
  | .whenClause => childCompletion cell (cell.children.length - 1)
  | .matcher | .splatMatcher =>
      .plus (hitsOf tree cell.number .matched) (hitsOf tree cell.number .missed)
  | .handler =>
      match cell.child? 2 with
      | some body => completionOf body
      | none => hitsOf tree cell.number .handlerEntry
  | _ => entryOf cell.number

def completionRule (tree : CoverTree) (cell : Cell) : Formula :=
  match cell.kind.completion with
  | .chain => lastCompletion tree cell
  | .counted tracker => hitsOf tree cell.number tracker
  | .never => .zero
  | .alternate => targetCompletion tree cell
  | .structural => structuralCompletion tree cell

def structuralExecution (tree : CoverTree) (cell : Cell) : Formula :=
  match cell.kind with
  | .shortCircuit => withChild cell 0 .leftOperand completionOf
  | .conditional => withChild cell 0 .condition completionOf
  | .caseDispatch =>
      match cell.child? 0 with
      | some subject => completionOf subject
      | none => entryOf cell.number
  | .whenClause => whenTested tree cell
  | .guarded => withChild cell 0 .guardedBody completionOf
  | .handler => hitsOf tree cell.number .handlerEntry
  | .multipleAssignment => withChild cell 1 .value completionOf
  | _ => entryOf cell.number

def executionRule (tree : CoverTree) (cell : Cell) : Formula :=
  match cell.kind.execution with
  | .onEntry => entryOf cell.number
  | .onCompletion => completionOf cell.number
  | .afterChildren => lastCompletion tree cell
  | .structural => structuralExecution tree cell

def interruptionRule (cell : Cell) : Formula :=
  .minus (.interruption cell.number) (entryOf cell.number) (completionOf cell.number)

def rule (tree : CoverTree) (query : Query) : Formula :=
  match tree.cell? query.node with
  | none => .fail (.unknownNode query.node)
  | some cell =>
      match query.measure with
      | .entry => entryRule tree cell
      | .completion => completionRule tree cell
      | .interruption => interruptionRule cell
      | .execution => executionRule tree cell

end ProbeCoverage.Flow
