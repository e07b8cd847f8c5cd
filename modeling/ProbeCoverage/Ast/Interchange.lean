import ProbeCoverage.Ast.Node
import ProbeCoverage.Json.Reader

/-!
Syntax trees as JSON. A node is an object with `type`, `children` and `location`, or an array of
these three in this order; a location is an object or an array as well. A child is a node if it
reads as one, and otherwise an atom.

Members with other names are passed over, even repeated; a known name may stand only once.
-/

namespace ProbeCoverage.Ast.Interchange

open Json (Value Number Name)

def maxDepth : Nat := 127

def nat64? (value : Value) : Option Nat :=
  value.nat?

def named (members : List (Name × Value)) (name : String) : List Value :=
  members.filterMap fun member => if member.1 = .text name then some member.2 else none

def spanOfFields? (startByte endByte startLine endLine : List Value) : Option Span :=
  match startByte, endByte, startLine, endLine with
  | [startByte], [endByte], [startLine], [] => do
      let startByte ← nat64? startByte
      let endByte ← nat64? endByte
      let startLine ← nat64? startLine
      pure { startByte, endByte, startLine, endLine := 0 }
  | [startByte], [endByte], [startLine], [endLine] => do
      let startByte ← nat64? startByte
      let endByte ← nat64? endByte
      let startLine ← nat64? startLine
      let endLine ← nat64? endLine
      pure { startByte, endByte, startLine, endLine }
  | _, _, _, _ => none

def span? : Value → Option Span
  | .object members =>
      spanOfFields? (named members "start_byte") (named members "end_byte")
        (named members "start_line") (named members "end_line")
  | .array [startByte, endByte, startLine] => spanOfFields? [startByte] [endByte] [startLine] []
  | .array [startByte, endByte, startLine, endLine] =>
      spanOfFields? [startByte] [endByte] [startLine] [endLine]
  | _ => none

def location? : Value → Option (Option Span)
  | .null => some none
  | value => (span? value).map some

/-- A child that is no node. Integers beyond 64 bits with a sign are doubles. -/
def atom? : Value → Option Atom
  | .null => some .nil
  | .bool value => some (.bool value)
  | .number (.int value) =>
      some (if Decimal.fitsInt64 value then .int value else .float (Decimal.ofNat value.toNat))
  | .number (.float value) => some (.float value)
  | .string value => some (.text value)
  | _ => none

structure Draft where
  tag : Option String
  children : Option (List Child)
  location : Option (Option Span)

def Draft.finish (draft : Draft) : Option Node :=
  draft.tag.map fun tag => .mk tag (draft.children.getD []) (draft.location.getD none)

mutual

def node? : Value → Option Node
  | .object members => (draft? members ⟨none, none, none⟩).bind Draft.finish
  | .array [.string tag] => some (.mk tag [] none)
  | .array [.string tag, .array items] => (children? items).map fun children => .mk tag children none
  | .array [.string tag, .array items, place] =>
      match children? items, location? place with
      | some children, some location => some (.mk tag children location)
      | _, _ => none
  | _ => none

def draft? : List (Name × Value) → Draft → Option Draft
  | [], draft => some draft
  | (name, value) :: rest, draft =>
      if name = .text "type" then
        match value, draft.tag with
        | .string tag, none => draft? rest { draft with tag := some tag }
        | _, _ => none
      else if name = .text "children" then
        match value, draft.children with
        | .array items, none =>
            match children? items with
            | some children => draft? rest { draft with children := some children }
            | none => none
        | _, _ => none
      else if name = .text "location" then
        match location? value, draft.location with
        | some location, none => draft? rest { draft with location := some location }
        | _, _ => none
      else draft? rest draft

def children? : List Value → Option (List Child)
  | [] => some []
  | value :: rest =>
      match (node? value).map Child.node <|> (atom? value).map Child.atom, children? rest with
      | some child, some others => some (child :: others)
      | _, _ => none

end

def locationReadable : Value → Bool
  | .object fields => fields.all fun field => field.1 != .unpaired
  | _ => true

def childrenReadable (value : Value) : Bool :=
  value.sound && value.depth < maxDepth

/-- Whether the parts of the outermost node that are read at all are sound and not too deep. The
values of unknown members, of the node or of its location, are passed over unseen. -/
def readable : Value → Bool
  | .object members =>
      members.all fun (name, value) =>
        match name with
        | .unpaired => false
        | .text "children" => childrenReadable value
        | .text "location" => locationReadable value
        | .text _ => true
  | .array [_, children, location] => childrenReadable children && locationReadable location
  | .array [_, children] => childrenReadable children
  | _ => true

def ofJson? (value : Value) : Option Node :=
  if readable value then node? value else none

def programOfJson? : Value → Option (Option Node)
  | .null => some none
  | value => (ofJson? value).map some

def read (text : String) : Option Node :=
  (Json.read text).bind ofJson?

end ProbeCoverage.Ast.Interchange
