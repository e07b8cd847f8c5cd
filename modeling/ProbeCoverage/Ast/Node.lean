import ProbeCoverage.Decimal.Print
import ProbeCoverage.Text.Bytes

/-!
Syntax trees as the parser hands them over: a tag, children that are nodes or atoms, and a source
location that synthetic nodes lack.
-/

namespace ProbeCoverage.Ast

/-- A source location. Byte offsets count from 0 and the end is exclusive; lines count from 1. A
span need not fit any text: parsers may hand over anything. -/
structure Span where
  startByte : Nat
  endByte : Nat
  startLine : Nat
  endLine : Nat
  deriving DecidableEq, Repr

namespace Span

/-- Line number of a byte offset. Offsets behind the end belong to the last line. -/
def lineAt (source : List Char) (offset : Nat) : Nat :=
  Text.newlinesBefore offset source + 1

def ofSource (source : List Char) (startByte endByte : Nat) : Span :=
  { startByte, endByte, startLine := lineAt source startByte, endLine := lineAt source endByte }

def size (span : Span) : Nat :=
  span.endByte - span.startByte

def isEmpty (span : Span) : Bool :=
  span.size == 0

def contains (outer inner : Span) : Bool :=
  outer.startByte ≤ inner.startByte && inner.endByte ≤ outer.endByte

def text (span : Span) : String :=
  s!"{span.startLine}:{span.startByte}..{span.endByte}"

end Span

inductive Atom where
  | nil
  | bool (value : Bool)
  | int (value : Int)
  | float (value : Float)
  | text (value : String)
  deriving Inhabited

namespace Atom

def isNil : Atom → Bool
  | .nil => true
  | _ => false

def text? : Atom → Option String
  | .text value => some value
  | _ => none

def display : Atom → String
  | .nil => "nil"
  | .bool value => if value then "true" else "false"
  | .int value => toString value
  | .float value => Decimal.text value
  | .text value => ":" ++ value

end Atom

mutual

inductive Node where
  | mk (tag : String) (children : List Child) (location : Option Span)

inductive Child where
  | node (node : Node)
  | atom (atom : Atom)

end

instance : Inhabited Node := ⟨.mk "" [] none⟩

instance : Inhabited Child := ⟨.atom .nil⟩

def Child.node? : Child → Option Node
  | .node inner => some inner
  | .atom _ => none

namespace Node

def tag : Node → String
  | .mk tag _ _ => tag

def children : Node → List Child
  | .mk _ children _ => children

def location : Node → Option Span
  | .mk _ _ location => location

mutual

def size : Node → Nat
  | .mk _ children _ => 1 + sizeAll children

def sizeAll : List Child → Nat
  | [] => 0
  | .node node :: rest => size node + sizeAll rest
  | .atom _ :: rest => sizeAll rest

end

mutual

def atoms : Node → List Atom
  | .mk _ children _ => atomsAll children

def atomsAll : List Child → List Atom
  | [] => []
  | .node node :: rest => atoms node ++ atomsAll rest
  | .atom atom :: rest => atom :: atomsAll rest

end

end Node

end ProbeCoverage.Ast
