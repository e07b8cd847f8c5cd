/-!
Trackers: the counters a covered node may own, by what a hit of each tells.
-/

namespace ProbeCoverage.Cover

inductive Tracker where
  /-- The program was started. -/
  | root
  /-- The value of the node was produced. -/
  | completion
  /-- The tracked branch of a conditional was taken. -/
  | branch
  /-- The right operand of `&&` or `||` was evaluated. -/
  | rightOperand
  /-- A `when` matcher accepted the subject. -/
  | matched
  /-- A `when` matcher rejected the subject. -/
  | missed
  /-- The body of an exception handler was entered. -/
  | handlerEntry
  /-- A method body was entered. -/
  | call
  /-- A block body was entered. -/
  | bodyEntry
  /-- An optional parameter took its default. -/
  | default
  /-- The receiver of a setter among assignment targets was evaluated. -/
  | entry
  /-- The current value of a compound assignment was read. -/
  | reader
  /-- `||=` or `&&=` went on to assign. -/
  | longBranch
  deriving DecidableEq, Repr

namespace Tracker

def all : List Tracker :=
  [.root, .completion, .branch, .rightOperand, .matched, .missed, .handlerEntry, .call,
   .bodyEntry, .default, .entry, .reader, .longBranch]

def name : Tracker → String
  | .root => "root"
  | .completion => "completion"
  | .branch => "branch"
  | .rightOperand => "right_operand"
  | .matched => "matched"
  | .missed => "missed"
  | .handlerEntry => "handler_entry"
  | .call => "call"
  | .bodyEntry => "body_entry"
  | .default => "default"
  | .entry => "entry"
  | .reader => "reader"
  | .longBranch => "long_branch"

def ofName? (name : String) : Option Tracker :=
  all.find? fun tracker => tracker.name == name

def placeholder (tracker : Tracker) : String :=
  tracker.name ++ "_tracker"

end Tracker

end ProbeCoverage.Cover
