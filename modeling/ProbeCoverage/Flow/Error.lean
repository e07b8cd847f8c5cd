import ProbeCoverage.Cover.Tracker

/-!
Why a count cannot be derived. These faults do not speak of the covered program: hit counts and
tree do not belong together, or the tree has a hole where the rules need a node.
-/

namespace ProbeCoverage.Flow

open Cover (Tracker)

inductive Difference where
  /-- Conditions that went to the branch without a counter. -/
  | otherBranch
  /-- Left operands that decided the value alone. -/
  | skippedOperand
  /-- Subjects that a `when` let pass. -/
  | fallThrough
  /-- Exceptions that a handler let pass. -/
  | unhandled
  deriving DecidableEq, Repr

def Difference.text : Difference → String
  | .otherBranch => "untracked branch entry"
  | .skippedOperand => "short-circuited completion"
  | .fallThrough => "when fall-through"
  | .unhandled => "unhandled exceptions"

inductive Role where
  | condition
  | leftOperand
  | rightOperand
  | matcher
  | guardedBody
  | value
  deriving DecidableEq, Repr

def Role.text : Role → String
  | .condition => "condition"
  | .leftOperand => "left operand"
  | .rightOperand => "right operand"
  | .matcher => "matcher"
  | .guardedBody => "guarded body"
  | .value => "value"

inductive Error where
  | negative (node : Nat) (difference : Difference) (minuend subtrahend : Nat)
  | completionExceedsEntry (node entry completion : Nat)
  /-- A fragment whose entry count was not told. -/
  | missingEntryCount (node : Nat)
  | missingTracker (node : Nat) (tracker : Tracker)
  | missingChild (node : Nat) (role : Role)
  /-- The count hangs on itself. -/
  | circular (node : Nat)
  | unknownNode (node : Nat)
  deriving DecidableEq, Repr

def nodeText (node : Nat) : String :=
  "#" ++ toString node

def Error.message : Error → String
  | .negative node difference minuend subtrahend =>
      s!"negative {difference.text} for node {nodeText node}: {minuend} - {subtrahend}"
  | .completionExceedsEntry node entry completion =>
      s!"node {nodeText node} completed {completion} times but was entered only {entry} times"
  | .missingEntryCount node => s!"no entry count supplied for root node {nodeText node}"
  | .missingTracker node tracker => s!"node {nodeText node} has no `{tracker.name}` tracker"
  | .missingChild node role => s!"node {nodeText node} is missing its {role.text}"
  | .circular node => s!"a count of node {nodeText node} depends on itself"
  | .unknownNode node => s!"there is no node {nodeText node}"

end ProbeCoverage.Flow
