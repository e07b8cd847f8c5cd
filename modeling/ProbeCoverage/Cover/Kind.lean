import ProbeCoverage.Ast.Shape
import ProbeCoverage.Cover.Template

/-!
Kinds of covered nodes. A kind says which counters a node owns, how its counts are obtained, what
text is put around it and around its children, and where a missing child is an empty body.
-/

namespace ProbeCoverage.Cover

open Ast (Shape)

inductive Kind where
  | root
  /-- Stands where a body is missing. -/
  | emptyBody
  | literal
  | name
  | constant
  | sequence
  | keywordBegin
  | container
  | call
  /-- The call that a block belongs to. -/
  | blockCall
  | block
  | shortCircuit
  | returnJump
  | conditional
  | caseDispatch
  | whenClause
  /-- Wrapper around one test of a `when`. It owns the counters, so that the test keeps its own. -/
  | matcher
  | splatMatcher
  | guarded
  | handler
  | method
  | parameters
  | parameter
  | optionalParameter
  | classBody
  | variableAssignment
  | constantAssignment
  | multipleAssignment
  | targetList
  | splatTarget
  | setterTarget
  | variableTarget
  | operatorAssignment
  | booleanAssignment
  /-- Variable that a compound assignment reads and sets. -/
  | variableAccess
  /-- Method that a compound assignment calls to read and set. -/
  | callAccess
  deriving DecidableEq, Repr

inductive Propagation where
  /-- A node is entered as often as the one before it completed. -/
  | forward
  /-- A node completed as often as the next one was entered. -/
  | alternate
  deriving DecidableEq, Repr

inductive Completion where
  /-- From its last child, or from its own entry. -/
  | chain
  | counted (tracker : Tracker)
  | never
  | alternate
  | structural
  deriving DecidableEq, Repr

inductive Execution where
  | onEntry
  | afterChildren
  | onCompletion
  | structural
  deriving DecidableEq, Repr

namespace Kind

def all : List Kind :=
  [.root, .emptyBody, .literal, .name, .constant, .sequence, .keywordBegin, .container, .call,
   .blockCall, .block, .shortCircuit, .returnJump, .conditional, .caseDispatch, .whenClause,
   .matcher, .splatMatcher, .guarded, .handler, .method, .parameters, .parameter,
   .optionalParameter, .classBody, .variableAssignment, .constantAssignment, .multipleAssignment,
   .targetList, .splatTarget, .setterTarget, .variableTarget, .operatorAssignment,
   .booleanAssignment, .variableAccess, .callAccess]

def ofShape : Shape → Kind
  | .int | .float | .str | .sym | .nilLit | .trueLit | .falseLit | .selfRef => .literal
  | .lvar | .ivar | .gvar | .cvar | .cbase => .literal
  | .const => .constant
  | .array | .hash | .pair | .dstr | .irange | .erange | .splat => .container
  | .begin => .sequence
  | .kwbegin => .keywordBegin
  | .send | .yield | .superCall | .zsuper => .call
  | .block => .block
  | .andOp | .orOp => .shortCircuit
  | .ret => .returnJump
  | .ifThen => .conditional
  | .caseOf => .caseDispatch
  | .whenOf => .whenClause
  | .rescue => .guarded
  | .resbody => .handler
  | .method => .method
  | .args => .parameters
  | .arg | .restarg | .kwarg | .blockarg => .parameter
  | .optarg | .kwoptarg => .optionalParameter
  | .classDef | .moduleDef => .classBody
  | .lvasgn | .ivasgn | .gvasgn | .cvasgn => .variableAssignment
  | .casgn => .constantAssignment
  | .masgn => .multipleAssignment
  | .mlhs => .targetList
  | .opAsgn => .operatorAssignment
  | .orAsgn | .andAsgn => .booleanAssignment

def trackers : Kind → List Tracker
  | .root => [.root]
  | .constant | .call | .multipleAssignment => [.completion]
  | .block => [.completion, .bodyEntry]
  | .shortCircuit => [.rightOperand]
  | .conditional => [.branch]
  | .matcher | .splatMatcher => [.matched, .missed]
  | .handler => [.handlerEntry]
  | .method => [.call]
  | .optionalParameter => [.default]
  | .setterTarget => [.entry]
  | .operatorAssignment => [.completion, .reader]
  | .booleanAssignment => [.completion, .longBranch]
  | _ => []

def trackerIndex? (kind : Kind) (tracker : Tracker) : Option Nat :=
  kind.trackers.findIdx? (· == tracker)

def propagation : Kind → Propagation
  | .targetList | .splatTarget | .setterTarget | .variableTarget => .alternate
  | _ => .forward

def completion : Kind → Completion
  | .constant | .call | .block | .multipleAssignment => .counted .completion
  | .operatorAssignment | .booleanAssignment => .counted .completion
  | .returnJump => .never
  | .targetList | .splatTarget | .setterTarget | .variableTarget => .alternate
  | .blockCall | .shortCircuit | .conditional | .caseDispatch | .whenClause => .structural
  | .matcher | .splatMatcher | .guarded | .handler => .structural
  | .method | .parameter | .optionalParameter => .structural
  | _ => .chain

def execution : Kind → Execution
  | .root | .emptyBody | .literal | .name | .sequence | .keywordBegin | .classBody => .onEntry
  | .method | .parameters | .parameter | .optionalParameter | .variableAccess => .onEntry
  | .constant | .container | .call | .blockCall | .returnJump | .callAccess => .afterChildren
  | .variableAssignment | .constantAssignment => .afterChildren
  | .block | .operatorAssignment | .booleanAssignment | .matcher | .splatMatcher => .onCompletion
  | .splatTarget | .setterTarget | .variableTarget | .targetList => .onCompletion
  | .shortCircuit | .conditional | .caseDispatch | .whenClause => .structural
  | .guarded | .handler | .multipleAssignment => .structural

def isExecutable : Kind → Bool
  | .root | .emptyBody | .sequence | .parameters | .parameter | .optionalParameter => false
  | .targetList | .matcher | .splatMatcher => false
  | _ => true

def isMatcher : Kind → Bool
  | .matcher | .splatMatcher => true
  | _ => false

/-- Counts once the value is there. The last assignment keeps a value in statement position from
looking unused. -/
def completionPattern : Pattern :=
  [.text "(", .temporary, .text "=(", .node, .text ");", .tracker .completion, .text ";",
   .temporary, .text "=", .temporary, .text ")"]

def outcomePattern (test : Pattern) (close : String) : Pattern :=
  test ++ [.text " ? (", .tracker .matched, .text ";true) : (", .tracker .missed,
    .text (";false)" ++ close)]

def matcherPattern : Pattern :=
  outcomePattern [.text "->(", .temporary, .text ")\x7b(", .node, .text ")===", .temporary] "\x7d"

def bareMatcherPattern : Pattern :=
  outcomePattern [.text "((", .node, .text ")"] ")"

def splatMatcherPattern : Pattern :=
  outcomePattern
    [.text "->(", .temporary, .text ")\x7b[", .node, .text "].any?\x7b|e| e===", .temporary,
     .text "\x7d"] "\x7d"

def bareSplatMatcherPattern : Pattern :=
  outcomePattern [.text "([", .node, .text "].any?"] ")"

def guardPattern (tracker : Tracker) : Pattern :=
  [.text "(", .tracker tracker, .text ";", .node, .text ")"]

def statementPattern (tracker : Tracker) : Pattern :=
  [.text ";", .tracker tracker, .text ";", .node]

/-- What is put around a node itself. The flag tells whether the `case` around a matcher has a
subject. -/
def ownPattern (kind : Kind) (hasSubject : Bool) : Option Pattern :=
  match kind with
  | .constant | .call | .block | .multipleAssignment => some completionPattern
  | .operatorAssignment | .booleanAssignment => some completionPattern
  | .matcher => some (if hasSubject then matcherPattern else bareMatcherPattern)
  | .splatMatcher => some (if hasSubject then splatMatcherPattern else bareSplatMatcherPattern)
  | _ => none

/-- What a node puts around its child at `index` of `count`. `tracked` is the branch of a
conditional that is counted, and `empty` tells whether the child is an empty body. -/
def childPattern (kind : Kind) (index count : Nat) (tracked : Option Nat) (empty : Bool) :
    Option Pattern :=
  if count = 0 then none
  else
    match kind with
    | .root => if index = 0 then some [.tracker .root, .text ";", .node] else none
    | .conditional => if tracked = some index then some (guardPattern .branch) else none
    | .shortCircuit => if index = 1 then some (guardPattern .rightOperand) else none
    | .handler =>
        if index = 2 then
          -- an empty body sits right behind the exception list and needs a separator
          if empty then some (.text ";" :: guardPattern .handlerEntry)
          else some (guardPattern .handlerEntry)
        else none
    | .method => if index = 2 then some (statementPattern .call) else none
    | .block => if index = 2 then some (statementPattern .bodyEntry) else none
    | .optionalParameter => if index = 1 then some (guardPattern .default) else none
    | .setterTarget =>
        if index = 0 then some [.text "(", .node, .text ").tap\x7b", .tracker .entry, .text "\x7d"]
        else none
    | .operatorAssignment => if index + 1 = count then some (guardPattern .reader) else none
    | .booleanAssignment => if index + 1 = count then some (guardPattern .longBranch) else none
    | _ => none

def mayBeEmpty (kind : Kind) (index count : Nat) : Bool :=
  match kind with
  | .root => index == 0
  | .conditional => index == 1 || index == 2
  | .caseDispatch | .whenClause => index == count - 1 && 0 < index
  | .guarded => index == 0 || index == count - 1
  | .handler | .method | .block => index == 2
  | .classBody => index == count - 1
  | _ => false

end Kind

end ProbeCoverage.Cover
