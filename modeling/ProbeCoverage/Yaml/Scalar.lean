import ProbeCoverage.Json.Reader

/-!
Scalars of settings files: plain text, which ends at a comment or at a colon before a blank, and
text in single or double quotes. Over several lines a single line break reads as a space, and each
further one as a line break.
-/

namespace ProbeCoverage.Yaml

def isSpace (c : Char) : Bool := c == ' ' || c == '\t'

def endsToken : Option Char → Bool
  | some c => isSpace c || c == '\n'
  | none => true

def isFlowIndicator (c : Char) : Bool :=
  c == ',' || c == '[' || c == ']' || c == '\x7b' || c == '\x7d'

def indicators : List Char := "-?:,[]\x7b\x7d#&*!|>'\"%@`".toList

def startsPlain (flow : Bool) (c : Char) (next : Option Char) : Bool :=
  if indicators.contains c then
    (c == '-' && !endsToken next) || (!flow && (c == '?' || c == ':') && !endsToken next)
  else !endsToken (some c)

inductive Stop where
  | lineEnd
  | comment
  | colon
  | indicator
  deriving DecidableEq, Repr

/-- The plain text in one line, what follows, and why it ended. `read` and the blanks since then,
`pending`, are in reverse. -/
def takePlainLine (flow : Bool) (read pending : List Char) :
    List Char → Option (List Char × List Char × Stop)
  | [] => some (read.reverse, [], .lineEnd)
  | c :: rest =>
      if c == '\n' then some (read.reverse, c :: rest, .lineEnd)
      else if isSpace c then takePlainLine flow read (c :: pending) rest
      else if c == '#' && !pending.isEmpty then some (read.reverse, c :: rest, .comment)
      else if c == ':' && endsToken rest.head? then some (read.reverse, c :: rest, .colon)
      else if flow && c == ':' && (rest.head?.any fun d => isFlowIndicator d || d == '?') then none
      else if flow && isFlowIndicator c then some (read.reverse, c :: rest, .indicator)
      else takePlainLine flow (c :: (pending ++ read)) [] rest

/-- The start of the next line that holds anything: the line breaks before it, its indentation, and
its text. A tabulator where indentation is due is a fault. -/
def nextLine (flow : Bool) (parent : Int) (breaks column : Nat) :
    List Char → Option (Nat × Nat × List Char)
  | [] => some (breaks, column, [])
  | c :: rest =>
      if c == '\n' then nextLine flow parent (breaks + 1) 0 rest
      else if c == ' ' then nextLine flow parent breaks (column + 1) rest
      else if c == '\t' then
        if !flow && (column : Int) ≤ parent then none
        else nextLine flow parent breaks (column + 1) rest
      else some (breaks, column, c :: rest)

def foldBreaks (breaks : Nat) : List Char :=
  if breaks ≤ 1 then [' '] else List.replicate (breaks - 1) '\n'

def isMarkerLine (mark : Char) : List Char → Bool
  | a :: b :: c :: rest => a == mark && b == mark && c == mark && endsToken rest.head?
  | _ => false

def isMarker (line : List Char) : Bool :=
  isMarkerLine '-' line || isMarkerLine '.' line

structure PlainText where
  text : List Char
  rest : List Char
  column : Nat
  fresh : Bool

/-- The rest of plain text that may go on over several lines. In a block the lines have to be
indented deeper than `parent`. -/
def continuePlain (flow : Bool) (parent : Int) : Nat → List Char → List Char → Option PlainText
  | 0, _, _ => none
  | fuel + 1, text, rest =>
      match nextLine flow parent 0 0 rest with
      | none => none
      | some (breaks, column, line) =>
          if line.isEmpty || line.head? == some '#' || (column == 0 && isMarker line) ||
              (!flow && (column : Int) ≤ parent) then
            some ⟨text, line, column, true⟩
          else
            match takePlainLine flow [] [] line with
            | none => none
            | some ([], tail, .indicator) => some ⟨text, tail, column, true⟩
            | some (read, tail, stop) =>
                let text := text ++ foldBreaks breaks ++ read
                match stop with
                | .lineEnd => continuePlain flow parent fuel text tail
                | .colon => if flow then some ⟨text, tail, 0, false⟩ else none
                | _ => some ⟨text, tail, 0, false⟩

def takePlain (flow : Bool) (parent : Int) (text : List Char) : Option PlainText :=
  match takePlainLine flow [] [] text with
  | some (read, rest, .lineEnd) => continuePlain flow parent (rest.length + 1) read rest
  | some (read, rest, _) => some ⟨read, rest, 0, false⟩
  | none => none

structure QuotedChar where
  char : Char
  escaped : Bool

def QuotedChar.isBare (c : QuotedChar) (test : Char → Bool) : Bool :=
  !c.escaped && test c.char

/-- Fold the lines of a quoted text. `pending` are blanks and `breaks` line breaks since the last
character that stays. -/
def foldQuoted (pending : List Char) (breaks : Nat) : List QuotedChar → List Char
  | [] => if breaks = 0 then pending.reverse else foldBreaks breaks
  | c :: rest =>
      if c.isBare (· == '\n') then foldQuoted [] (breaks + 1) rest
      else if c.isBare isSpace then
        if breaks = 0 then foldQuoted (c.char :: pending) 0 rest else foldQuoted [] breaks rest
      else
        (if breaks = 0 then pending.reverse else foldBreaks breaks) ++
          c.char :: foldQuoted [] 0 rest

def takeSingle (read : List QuotedChar) : List Char → Option (List QuotedChar × List Char)
  | '\'' :: '\'' :: rest => takeSingle (⟨'\'', true⟩ :: read) rest
  | '\'' :: rest => some (read.reverse, rest)
  | c :: rest => takeSingle (⟨c, false⟩ :: read) rest
  | [] => none

def shortEscape : Char → Option Char
  | '0' => some '\x00'
  | 'a' => some '\x07'
  | 'b' => some '\x08'
  | 't' => some '\t'
  | '\t' => some '\t'
  | 'n' => some '\n'
  | 'v' => some '\x0b'
  | 'f' => some '\x0c'
  | 'r' => some '\r'
  | 'e' => some '\x1b'
  | ' ' => some ' '
  | '"' => some '"'
  | '/' => some '/'
  | '\\' => some '\\'
  | 'N' => some (Char.ofNat 0x85)
  | '_' => some (Char.ofNat 0xA0)
  | 'L' => some (Char.ofNat 0x2028)
  | 'P' => some (Char.ofNat 0x2029)
  | _ => none

def hexNumber (digits : List Char) : Option Nat :=
  digits.foldlM (fun value c => (Json.hexValue c).map fun digit => 16 * value + digit) 0

def codePoint (digits : List Char) : Option Char :=
  (hexNumber digits).bind fun code => if code.isValidChar then some (Char.ofNat code) else none

/-- The rest of a text in double quotes. `joining` skips the blanks behind an escaped line
break. -/
def takeDouble (read : List QuotedChar) (joining : Bool) :
    List Char → Option (List QuotedChar × List Char)
  | '"' :: rest => some (read.reverse, rest)
  | '\\' :: '\n' :: rest => takeDouble read true rest
  | '\\' :: 'x' :: a :: b :: rest =>
      match codePoint [a, b] with
      | some c => takeDouble (⟨c, true⟩ :: read) false rest
      | none => none
  | '\\' :: 'u' :: a :: b :: c :: d :: rest =>
      match codePoint [a, b, c, d] with
      | some char => takeDouble (⟨char, true⟩ :: read) false rest
      | none => none
  | '\\' :: 'U' :: a :: b :: c :: d :: e :: f :: g :: h :: rest =>
      match codePoint [a, b, c, d, e, f, g, h] with
      | some char => takeDouble (⟨char, true⟩ :: read) false rest
      | none => none
  | '\\' :: letter :: rest =>
      match shortEscape letter with
      | some c => takeDouble (⟨c, true⟩ :: read) false rest
      | none => none
  | c :: rest =>
      if c == '\\' then none
      else if joining && isSpace c then takeDouble read true rest
      else takeDouble (⟨c, false⟩ :: read) false rest
  | [] => none

def takeQuoted (double : Bool) (text : List Char) : Option (String × List Char × Bool) :=
  (if double then takeDouble [] false text else takeSingle [] text).map fun (read, rest) =>
    (String.ofList (foldQuoted [] 0 read), rest, !read.any (·.isBare (· == '\n')))

end ProbeCoverage.Yaml
