/-!
The grammar shapes that can be covered, with the tags the parser gives them and the number of
children it produces for them. The set is closed: a tag outside it has no coverage rule.
-/

namespace ProbeCoverage.Ast

inductive Shape where
  -- Literals and reads.
  | int | float | str | sym | nilLit | trueLit | falseLit | selfRef
  | lvar | ivar | gvar | cvar | const | cbase
  -- Containers.
  | array | hash | pair | dstr | irange | erange | splat | begin | kwbegin
  -- Calls.
  | send | yield | superCall | zsuper | block
  -- Control flow.
  | andOp | orOp | ret | ifThen | caseOf | whenOf | rescue | resbody
  -- Definitions.
  | method | args | arg | optarg | restarg | kwarg | kwoptarg | blockarg | classDef | moduleDef
  -- Assignments.
  | lvasgn | ivasgn | gvasgn | cvasgn | casgn | masgn | mlhs | opAsgn | orAsgn | andAsgn
  deriving DecidableEq, Repr

structure Arity where
  min : Nat
  max : Option Nat
  deriving DecidableEq, Repr

namespace Arity

def exactly (count : Nat) : Arity := ⟨count, some count⟩

def between (min max : Nat) : Arity := ⟨min, some max⟩

def atLeast (min : Nat) : Arity := ⟨min, none⟩

def accepts (arity : Arity) (count : Nat) : Bool :=
  arity.min ≤ count && arity.max.all (count ≤ ·)

def text (arity : Arity) : String :=
  match arity.max with
  | none => s!"{arity.min} or more"
  | some max => if max == arity.min then s!"{max}" else s!"{arity.min}..={max}"

end Arity

namespace Shape

def all : List Shape :=
  [.int, .float, .str, .sym, .nilLit, .trueLit, .falseLit, .selfRef, .lvar, .ivar, .gvar, .cvar,
   .const, .cbase, .array, .hash, .pair, .dstr, .irange, .erange, .splat, .begin, .kwbegin,
   .send, .yield, .superCall, .zsuper, .block, .andOp, .orOp, .ret, .ifThen, .caseOf, .whenOf,
   .rescue, .resbody, .method, .args, .arg, .optarg, .restarg, .kwarg, .kwoptarg, .blockarg,
   .classDef, .moduleDef, .lvasgn, .ivasgn, .gvasgn, .cvasgn, .casgn, .masgn, .mlhs, .opAsgn,
   .orAsgn, .andAsgn]

def tag : Shape → String
  | .int => "int"
  | .float => "float"
  | .str => "str"
  | .sym => "sym"
  | .nilLit => "nil"
  | .trueLit => "true"
  | .falseLit => "false"
  | .selfRef => "self"
  | .lvar => "lvar"
  | .ivar => "ivar"
  | .gvar => "gvar"
  | .cvar => "cvar"
  | .const => "const"
  | .cbase => "cbase"
  | .array => "array"
  | .hash => "hash"
  | .pair => "pair"
  | .dstr => "dstr"
  | .irange => "irange"
  | .erange => "erange"
  | .splat => "splat"
  | .begin => "begin"
  | .kwbegin => "kwbegin"
  | .send => "send"
  | .yield => "yield"
  | .superCall => "super"
  | .zsuper => "zsuper"
  | .block => "block"
  | .andOp => "and"
  | .orOp => "or"
  | .ret => "return"
  | .ifThen => "if"
  | .caseOf => "case"
  | .whenOf => "when"
  | .rescue => "rescue"
  | .resbody => "resbody"
  | .method => "def"
  | .args => "args"
  | .arg => "arg"
  | .optarg => "optarg"
  | .restarg => "restarg"
  | .kwarg => "kwarg"
  | .kwoptarg => "kwoptarg"
  | .blockarg => "blockarg"
  | .classDef => "class"
  | .moduleDef => "module"
  | .lvasgn => "lvasgn"
  | .ivasgn => "ivasgn"
  | .gvasgn => "gvasgn"
  | .cvasgn => "cvasgn"
  | .casgn => "casgn"
  | .masgn => "masgn"
  | .mlhs => "mlhs"
  | .opAsgn => "op_asgn"
  | .orAsgn => "or_asgn"
  | .andAsgn => "and_asgn"

def ofTag? (tag : String) : Option Shape :=
  all.find? fun shape => shape.tag == tag

def arity : Shape → Arity
  | .nilLit | .trueLit | .falseLit | .selfRef | .cbase | .zsuper => .exactly 0
  | .int | .float | .str | .sym | .lvar | .ivar | .gvar | .cvar => .exactly 1
  | .arg | .kwarg | .blockarg => .exactly 1
  | .const | .pair | .irange | .erange | .andOp | .orOp => .exactly 2
  | .optarg | .kwoptarg | .moduleDef | .masgn | .orAsgn | .andAsgn => .exactly 2
  | .block | .ifThen | .resbody | .method | .classDef | .opAsgn => .exactly 3
  | .splat | .ret | .restarg => .between 0 1
  | .lvasgn | .ivasgn | .gvasgn | .cvasgn => .between 1 2
  | .casgn => .between 2 3
  | .array | .hash | .dstr | .begin | .kwbegin => .atLeast 0
  | .yield | .superCall | .args | .mlhs => .atLeast 0
  | .send | .caseOf | .whenOf | .rescue => .atLeast 2

def isVariableAssignment : Shape → Bool
  | .lvasgn | .ivasgn | .gvasgn | .cvasgn => true
  | _ => false

theorem mem_all (shape : Shape) : shape ∈ all := by
  cases shape <;> decide

theorem ofTag?_tag (shape : Shape) : ofTag? shape.tag = some shape := by
  cases shape <;> decide

theorem tag_of_ofTag? {tag : String} {shape : Shape} (found : ofTag? tag = some shape) :
    shape.tag = tag := by
  simpa using List.find?_some found

end Shape

end ProbeCoverage.Ast
