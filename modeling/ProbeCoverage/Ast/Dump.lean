import ProbeCoverage.Ast.Node
import ProbeCoverage.Decimal.Read
import ProbeCoverage.Text.Classes

/-!
The bracketed dump of a syntax tree, such as `(case (int 1) (when (int 0) (str "a")) nil)`.

A node is an opening parenthesis with its tag directly behind it, then children, then a closing
parenthesis. `nil`, `true`, `false`, numbers, `:symbols` and `"strings"` are atoms, and any other
word is a text. Trees read from a dump have no locations.

The reader is a machine that takes one character at a time, so reading `s ++ t` is reading `t`
from the state that `s` leads to.
-/

namespace ProbeCoverage.Ast.Dump

inductive Error where
  | unexpectedEnd
  | unexpected (found : Char) (offset : Nat)
  | missingTag (offset : Nat)
  | trailingInput (offset : Nat)
  | unterminatedString (offset : Nat)
  deriving DecidableEq, Repr

def Error.message : Error → String
  | .unexpectedEnd => "unexpected end of input"
  | .unexpected found offset => s!"unexpected `{found}` at byte {offset}"
  | .missingTag offset => s!"expected a node tag at byte {offset}"
  | .trailingInput offset => s!"trailing input at byte {offset}"
  | .unterminatedString offset => s!"unterminated string starting at byte {offset}"

structure Frame where
  tag : String
  children : List Child

/-- What the reader is in the middle of. Characters read so far are in reverse. -/
inductive Mode where
  | before
  | tag (read : List Char)
  | gap
  | word (read : List Char)
  | symbol (read : List Char)
  | string (start : Nat) (read : List Char)
  | escape (start : Nat) (read : List Char)
  | done (node : Node)

/-- The reader between two characters: the offset of the next one, and the open nodes with the
innermost first. -/
structure State where
  offset : Nat
  mode : Mode
  frames : List Frame

def isDelimiter (c : Char) : Bool :=
  Text.isBlank c || c == '(' || c == ')' || c == '"'

def textOf (read : List Char) : String :=
  String.ofList read.reverse

def atomOfWord (word : String) : Atom :=
  match word with
  | "nil" => .nil
  | "true" => .bool true
  | "false" => .bool false
  | _ =>
      match Decimal.readInt word.toList with
      | some value => .int value
      | none =>
          match Decimal.readFloat word.toList with
          | some value => .float value
          | none => .text word

def addChild (child : Child) : List Frame → List Frame
  | [] => []
  | frame :: rest => { frame with children := child :: frame.children } :: rest

def closeFrame : List Frame → Mode × List Frame
  | [] => (.gap, [])
  | [frame] => (.done (.mk frame.tag frame.children.reverse none), [])
  | frame :: rest =>
      (.gap, addChild (.node (.mk frame.tag frame.children.reverse none)) rest)

def enter (offset : Nat) (frames : List Frame) (c : Char) : Mode × List Frame :=
  if Text.isBlank c then (.gap, frames)
  else if c == ')' then closeFrame frames
  else if c == '(' then (.tag [], frames)
  else if c == '"' then (.string offset [], frames)
  else if c == ':' then (.symbol [], frames)
  else (.word [c], frames)

def unescape : Char → Char
  | 'n' => '\n'
  | 't' => '\t'
  | c => c

def advance (offset : Nat) (mode : Mode) (frames : List Frame) (c : Char) :
    Except Error (Mode × List Frame) :=
  match mode with
  | .before =>
      if Text.isBlank c then .ok (.before, frames)
      else if c == '(' then .ok (.tag [], frames)
      else .error (.unexpected c offset)
  | .tag read =>
      if isDelimiter c then
        if read.isEmpty then .error (.missingTag offset)
        else .ok (enter offset (⟨textOf read, []⟩ :: frames) c)
      else .ok (.tag (c :: read), frames)
  | .gap => .ok (enter offset frames c)
  | .word read =>
      if isDelimiter c then
        .ok (enter offset (addChild (.atom (atomOfWord (textOf read))) frames) c)
      else .ok (.word (c :: read), frames)
  | .symbol read =>
      if isDelimiter c then .ok (enter offset (addChild (.atom (.text (textOf read))) frames) c)
      else .ok (.symbol (c :: read), frames)
  | .string start read =>
      if c == '"' then .ok (.gap, addChild (.atom (.text (textOf read))) frames)
      else if c == '\\' then .ok (.escape start read, frames)
      else .ok (.string start (c :: read), frames)
  | .escape start read => .ok (.string start (unescape c :: read), frames)
  | .done node =>
      if Text.isBlank c then .ok (.done node, frames) else .error (.trailingInput offset)

def step (state : State) (c : Char) : Except Error State :=
  (advance state.offset state.mode state.frames c).map fun next =>
    { offset := state.offset + c.utf8Size, mode := next.1, frames := next.2 }

def run : State → List Char → Except Error State
  | state, [] => .ok state
  | state, c :: rest =>
      match step state c with
      | .error error => .error error
      | .ok next => run next rest

/-- The tree, once all characters are read. A tag that the end of input cuts off is reported at
offset 0. -/
def finish (state : State) : Except Error Node :=
  match state.mode with
  | .done node => .ok node
  | .tag [] => .error (.missingTag 0)
  | .string start _ | .escape start _ => .error (.unterminatedString start)
  | _ => .error .unexpectedEnd

def initial : State :=
  { offset := 0, mode := .before, frames := [] }

def read (dump : String) : Except Error Node :=
  match run initial dump.toList with
  | .error error => .error error
  | .ok state => finish state

end ProbeCoverage.Ast.Dump
