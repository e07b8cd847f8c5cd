import ProbeCoverage.Proofs.Cover.Constructs

/-!
Abstract runs of a covered program. An evaluation of a node enters the node, evaluates some of its
children and hits some of its counters, and ends: normally, by an interruption, or, for a test, a
clause or a handler that does not apply, by passing control on to the next one. Which children, in
which order and with which counters, depends on the kind of the node alone; how a child ends is open
wherever the program could decide it. Nothing here speaks of how counts are derived.
-/

namespace ProbeCoverage.Flow

open Cover

inductive Outcome where
  | done
  | interrupted
  | passed
  deriving DecidableEq, Repr

-- A test that says no has finished its work; a clause that does not match has not run its body.
def completes (kind : Kind) : Outcome → Bool
  | .done => true
  | .interrupted => false
  | .passed => kind.isMatcher

/-- What happens during the evaluation of a node: a child is evaluated, or a counter of the node is
hit. -/
inductive Step where
  | child (kid : Covered) (outcome : Outcome)
  | probe (tracker : Tracker)

/-- Nodes one after the other. Each is to end in a way of its own for the next one to follow, and
the first that ends otherwise decides. -/
inductive InTurn (onward : Covered → Outcome) (finish : Outcome) :
    List Covered → List Step → Outcome → Prop where
  | finish : InTurn onward finish [] [] finish
  | stop (kid : Covered) (rest : List Covered) {outcome : Outcome}
      (stopped : outcome ≠ onward kid) :
      InTurn onward finish (kid :: rest) [.child kid outcome] outcome
  | next (kid : Covered) {rest : List Covered} {steps : List Step} {outcome : Outcome} :
      InTurn onward finish rest steps outcome →
      InTurn onward finish (kid :: rest) (.child kid (onward kid) :: steps) outcome

abbrev InRow := InTurn (fun _ => .done) .done

abbrev Tried := InTurn (fun _ => .passed) .passed

def firstDone (node : Covered) : List Step := (node.kid? 0).toList.map (.child · .done)

/-- How the evaluation of a node can end once all its children ended normally, with the counters
hit on the way. Constants and calls do work of their own, which may fail, and so do tests. -/
def verdicts : Kind → List (List Tracker × Outcome)
  | .emptyBody | .literal | .sequence | .keywordBegin | .container => [([], .done)]
  | .variableAssignment | .constantAssignment | .variableAccess | .callAccess => [([], .done)]
  | .constant | .call => [([.completion], .done), ([], .interrupted)]
  | .matcher | .splatMatcher => [([.matched], .done), ([.missed], .passed), ([], .interrupted)]
  | _ => []

inductive Evaluates (node : Covered) : List Step → Outcome → Prop where
  | stops {steps : List Step} (known : verdicts node.kind ≠ []) :
      InRow node.kids steps .interrupted → Evaluates node steps .interrupted
  | ends {steps : List Step} {probes : List Tracker} {outcome : Outcome} :
      InRow node.kids steps .done → (probes, outcome) ∈ verdicts node.kind →
      Evaluates node (steps ++ probes.map .probe) outcome

inductive Starts (node : Covered) : List Step → Outcome → Prop where
  | program {program : Covered} {outcome : Outcome} :
      node.kid? 0 = some program → outcome ≠ .passed →
      Starts node [.probe .root, .child program outcome] outcome

inductive ShortCircuits (node : Covered) : List Step → Outcome → Prop where
  | stops {left : Covered} :
      node.kid? 0 = some left → ShortCircuits node [.child left .interrupted] .interrupted
  | decides {left : Covered} :
      node.kid? 0 = some left → ShortCircuits node [.child left .done] .done
  | goesOn {left right : Covered} {outcome : Outcome} :
      node.kid? 0 = some left → node.kid? 1 = some right → outcome ≠ .passed →
      ShortCircuits node [.child left .done, .probe .rightOperand, .child right outcome] outcome

-- Two empty branches cannot be told apart, and the first one stands for both.
inductive Chooses (node : Covered) : List Step → Outcome → Prop where
  | stops {condition : Covered} :
      node.kid? 0 = some condition → Chooses node [.child condition .interrupted] .interrupted
  | counted {condition branch : Covered} {slot : Nat} {outcome : Outcome} :
      node.kid? 0 = some condition → slot = 1 ∨ slot = 2 → node.kid? slot = some branch →
      trackedBranch node.kind node.branches = some slot → outcome ≠ .passed →
      Chooses node [.child condition .done, .probe .branch, .child branch outcome] outcome
  | uncounted {condition branch : Covered} {slot : Nat} {outcome : Outcome} :
      node.kid? 0 = some condition → slot = 1 ∨ slot = 2 → node.kid? slot = some branch →
      trackedBranch node.kind node.branches ≠ some slot →
      (trackedBranch node.kind node.branches = none → slot = 1) → outcome ≠ .passed →
      Chooses node [.child condition .done, .child branch outcome] outcome

-- The last body takes what no clause takes.
inductive Dispatches (node : Covered) : List Step → Outcome → Prop where
  | stops {subject : Covered} :
      node.kid? 0 = some subject → Dispatches node [.child subject .interrupted] .interrupted
  | goesOn {tries : List Step} {outcome : Outcome} :
      Tried (node.clauses ++ node.last?.toList) tries outcome → outcome ≠ .passed →
      Dispatches node (firstDone node ++ tries) outcome

inductive Matches (node : Covered) : List Step → Outcome → Prop where
  | misses {tries : List Step} {outcome : Outcome} :
      Tried node.tests tries outcome → outcome ≠ .done → Matches node tries outcome
  | runs {tries : List Step} {body : Covered} {outcome : Outcome} :
      Tried node.tests tries .done → node.last? = some body → outcome ≠ .passed →
      Matches node (tries ++ [.child body outcome]) outcome

inductive Guards (node : Covered) : List Step → Outcome → Prop where
  | unharmed {body last : Covered} {outcome : Outcome} :
      node.kid? 0 = some body → node.last? = some last → outcome ≠ .passed →
      Guards node [.child body .done, .child last outcome] outcome
  | handled {body : Covered} {tries : List Step} {outcome : Outcome} :
      node.kid? 0 = some body → Tried node.handlers tries outcome → outcome ≠ .passed →
      Guards node (.child body .interrupted :: tries) outcome
  | unhandled {body : Covered} {tries : List Step} :
      node.kid? 0 = some body → Tried node.handlers tries .passed →
      Guards node (.child body .interrupted :: tries) .interrupted

-- A handler that applies assigns its variable, if it has one, and runs its body.
inductive Handles (node : Covered) : List Step → Outcome → Prop where
  | stops {exceptions : Covered} :
      node.kid? 0 = some exceptions → Handles node [.child exceptions .interrupted] .interrupted
  | passes : Handles node (firstDone node) .passed
  | runs {rest : List Step} {body : Covered} {outcome : Outcome} :
      node.kid? 2 = some body → InRow ((node.kid? 1).toList ++ [body]) rest outcome →
      outcome ≠ .passed → Handles node (firstDone node ++ .probe .handlerEntry :: rest) outcome

def valueTracker? : Kind → Option Tracker
  | .operatorAssignment => some .reader
  | .booleanAssignment => some .longBranch
  | _ => none

inductive Assigns (node : Covered) : List Step → Outcome → Prop where
  | stops {target : Covered} :
      node.kid? 0 = some target → Assigns node [.child target .interrupted] .interrupted
  -- the current value cannot be read
  | unread : Assigns node (firstDone node) .interrupted
  -- the current value decides alone
  | keeps :
      node.kind = .booleanAssignment → Assigns node (firstDone node ++ [.probe .completion]) .done
  | valueStops {tracker : Tracker} {value : Covered} :
      valueTracker? node.kind = some tracker → node.last? = some value →
      Assigns node (firstDone node ++ [.probe tracker, .child value .interrupted]) .interrupted
  -- the new value cannot be computed or stored
  | refused {tracker : Tracker} {value : Covered} :
      valueTracker? node.kind = some tracker → node.last? = some value →
      Assigns node (firstDone node ++ [.probe tracker, .child value .done]) .interrupted
  | assigns {tracker : Tracker} {value : Covered} :
      valueTracker? node.kind = some tracker → node.last? = some value →
      Assigns node
        (firstDone node ++ [.probe tracker, .child value .done, .probe .completion]) .done

/-- One evaluation of a node, its children taken as given. Kinds that no verdict is known for have
none. -/
def Behaves (node : Covered) (steps : List Step) (outcome : Outcome) : Prop :=
  match node.kind with
  | .root => Starts node steps outcome
  | .shortCircuit => ShortCircuits node steps outcome
  | .conditional => Chooses node steps outcome
  | .caseDispatch => Dispatches node steps outcome
  | .whenClause => Matches node steps outcome
  | .guarded => Guards node steps outcome
  | .handler => Handles node steps outcome
  | .operatorAssignment | .booleanAssignment => Assigns node steps outcome
  | _ => Evaluates node steps outcome

inductive Event where
  | entered (node : Nat)
  | completed (node : Nat)
  | left (node : Nat)
  | hit (slot : Nat)
  deriving DecidableEq, Repr

def ending (node : Covered) (outcome : Outcome) : Event :=
  if completes node.kind outcome then .completed node.number else .left node.number

def enclose (node : Covered) (outcome : Outcome) (inner : List Event) : List Event :=
  .entered node.number :: (inner ++ [ending node outcome])

inductive Plays : Covered → List Step → List Event → Prop where
  | nil (node : Covered) : Plays node [] []
  | probe {node : Covered} (tracker : Tracker) {steps : List Step} {events : List Event} :
      Plays node steps events →
      Plays node (.probe tracker :: steps) (.hit (node.slotOf tracker) :: events)
  | child {node kid : Covered} {outcome : Outcome} {inner steps : List Step}
      {below events : List Event} :
      Behaves kid inner outcome → Plays kid inner below → Plays node steps events →
      Plays node (.child kid outcome :: steps) (enclose kid outcome below ++ events)

/-- Any number of runs of a program, one after the other. -/
inductive History (root : Covered) : List Event → Prop where
  | nil : History root []
  | run {steps : List Step} {outcome : Outcome} {below events : List Event} :
      Behaves root steps outcome → Plays root steps below → History root events →
      History root (enclose root outcome below ++ events)

end ProbeCoverage.Flow
