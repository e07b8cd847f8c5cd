import ProbeCoverage.Decimal.Print
import ProbeCoverage.Json.Value
import ProbeCoverage.Text.Quoted

/-!
JSON texts: compact on one line, or indented by two spaces with one member to a line.
-/

namespace ProbeCoverage.Json

def escapeChar (c : Char) : String :=
  match c with
  | '"' => "\\\""
  | '\\' => "\\\\"
  | '\x08' => "\\b"
  | '\x0c' => "\\f"
  | '\n' => "\\n"
  | '\r' => "\\r"
  | '\t' => "\\t"
  | _ =>
      if c.toNat < 0x10 then "\\u000" ++ Text.hexDigits c.toNat
      else if c.toNat < 0x20 then "\\u00" ++ Text.hexDigits c.toNat
      else c.toString

def stringText (text : String) : String :=
  "\"" ++ String.join (text.toList.map escapeChar) ++ "\""

def Number.text : Number → String
  | .int value => toString value
  | .float value => Decimal.jsonText value
  | .outOfRange => "null"

def Name.display : Name → String
  | .text value => stringText value
  | .unpaired => stringText "�"

namespace Value

inductive Layout where
  | compact
  | indented
  deriving DecidableEq

def Layout.lineBreak (layout : Layout) (level : Nat) : String :=
  match layout with
  | .compact => ""
  | .indented => "\n" ++ String.ofList (List.replicate (2 * level) ' ')

def Layout.colon : Layout → String
  | .compact => ":"
  | .indented => ": "

mutual

def layOut (layout : Layout) (level : Nat) : Value → String
  | .null => "null"
  | .bool value => if value then "true" else "false"
  | .number value => value.text
  | .string value => stringText value
  | .unpaired => stringText "�"
  | .array [] => "[]"
  | .array (item :: rest) =>
      "[" ++ layout.lineBreak (level + 1) ++ layOut layout (level + 1) item ++
        layOutItems layout (level + 1) rest ++ layout.lineBreak level ++ "]"
  | .object [] => "\x7b\x7d"
  | .object ((name, value) :: rest) =>
      "\x7b" ++ layout.lineBreak (level + 1) ++ name.display ++ layout.colon ++
        layOut layout (level + 1) value ++ layOutMembers layout (level + 1) rest ++
        layout.lineBreak level ++ "\x7d"

def layOutItems (layout : Layout) (level : Nat) : List Value → String
  | [] => ""
  | item :: rest =>
      "," ++ layout.lineBreak level ++ layOut layout level item ++ layOutItems layout level rest

def layOutMembers (layout : Layout) (level : Nat) : List (Name × Value) → String
  | [] => ""
  | (name, value) :: rest =>
      "," ++ layout.lineBreak level ++ name.display ++ layout.colon ++ layOut layout level value ++
        layOutMembers layout level rest

end

def compact (value : Value) : String :=
  value.layOut .compact 0

def pretty (value : Value) : String :=
  value.layOut .indented 0

end Value

end ProbeCoverage.Json
