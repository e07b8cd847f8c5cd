/-!
Path patterns. `?` stands for any byte and `*` for any bytes; `**` between separators stands for
any directories, `[a-z]` for a byte of a class and `{a,b}` for alternatives. A backslash takes the
next character as it is. Matching goes byte by byte over the whole path.
-/

namespace ProbeCoverage

namespace Glob

inductive Token where
  | literal (c : Char)
  | any
  | run
  /-- Any directories at the start of a path. -/
  | leadingDirectories
  /-- Everything below a directory. -/
  | everythingBelow
  /-- Any directories in the middle of a path. -/
  | innerDirectories
  | charClass (negated : Bool) (ranges : List (Char × Char))
  | alternatives (branches : List (List Token))

inductive Error where
  | unclosedClass
  | invalidRange (low high : Char)
  | unopenedAlternatives
  | unclosedAlternatives
  | danglingEscape
  deriving DecidableEq, Repr

def Error.reason : Error → String
  | .unclosedClass => "unclosed character class; missing ']'"
  | .invalidRange low high =>
      "invalid range; '" ++ low.toString ++ "' > '" ++ high.toString ++ "'"
  | .unopenedAlternatives =>
      "unopened alternate group; missing '\x7b' (maybe escape '\x7d' with '[\x7d]'?)"
  | .unclosedAlternatives =>
      "unclosed alternate group; missing '\x7d' (maybe escape '\x7b' with '[\x7b]'?)"
  | .danglingEscape => "dangling '\\'"

def Error.message (error : Error) (pattern : String) : String :=
  "error parsing glob '" ++ pattern ++ "': " ++ error.reason

structure OpenClass where
  negated : Bool
  ranges : List (Char × Char)
  first : Bool
  /-- A dash waits for the upper end of its range. -/
  inRange : Bool

inductive Mode where
  | plain
  /-- Behind a star; `before` is the character in front of it. -/
  | star (before : Option Char)
  | stars (before : Option Char)
  | classStart
  | inClass (state : OpenClass)
  | escape

structure Group where
  outer : List Token
  branches : List (List Token)

structure State where
  mode : Mode
  previous : Option Char
  tokens : List Token
  groups : List Group

def State.initial : State := ⟨.plain, none, [], []⟩

namespace State

def push (state : State) (token : Token) : State :=
  { state with mode := .plain, tokens := token :: state.tokens }

def pushRuns (state : State) : State :=
  (state.push .run).push .run

def pushDirectories (state : State) (token : Token) : State :=
  match state.tokens with
  | .leadingDirectories :: _ | .everythingBelow :: _ => { state with mode := .plain }
  | _ :: rest => { state with mode := .plain, tokens := token :: rest }
  | [] => { state with mode := .plain, tokens := [token] }

/-- Decide what two stars stand for, given the character in front and the next one. The flag tells
whether the next character belongs to them. -/
def closeStars (state : State) (before next : Option Char) : State × Bool :=
  let separated := next = some '/'
  let inGroup := !state.groups.isEmpty
  if state.tokens.isEmpty then
    if next.isNone || separated then (state.push .leadingDirectories, separated)
    else (state.pushRuns, false)
  else if before != some '/' && (!inGroup || (before != some ',' && before != some '\x7b')) then
    (state.pushRuns, false)
  else if next.isNone || (inGroup && (next = some ',' || next = some '\x7d')) then
    (state.pushDirectories .everythingBelow, false)
  else if separated then (state.pushDirectories .innerDirectories, true)
  else (state.pushRuns, false)

def closeGroup (state : State) : Except Error State :=
  match state.groups with
  | [] => .error .unopenedAlternatives
  | group :: rest =>
      let branches := (state.tokens.reverse :: group.branches).reverse
      .ok { state with tokens := .alternatives branches :: group.outer, groups := rest }

/-- Start the next alternative; outside of a group a comma is a character like any other. -/
def comma (state : State) : State :=
  match state.groups with
  | [] => state.push (.literal ',')
  | group :: rest =>
      { state with
        tokens := []
        groups := { group with branches := state.tokens.reverse :: group.branches } :: rest }

def takePlain (state : State) (c : Char) : Except Error State :=
  match c with
  | '?' => .ok (state.push .any)
  | '*' => .ok { state with mode := .star state.previous }
  | '[' => .ok { state with mode := .classStart }
  | '\x7b' => .ok { state with tokens := [], groups := ⟨state.tokens, []⟩ :: state.groups }
  | '\x7d' => state.closeGroup
  | ',' => .ok state.comma
  | '\\' => .ok { state with mode := .escape }
  | _ => .ok (state.push (.literal c))

/-- Take a member of a class, or its end. A bracket in first place and a dash in first or last
place are members. -/
def takeMember (state : State) (pending : OpenClass) (c : Char) : Except Error State :=
  let go (next : OpenClass) : Except Error State :=
    .ok { state with mode := .inClass { next with first := false } }
  if c = ']' && !pending.first then
    let ranges := if pending.inRange then ('-', '-') :: pending.ranges else pending.ranges
    .ok (state.push (.charClass pending.negated ranges.reverse))
  else if c = '-' && !pending.first && !pending.inRange then go { pending with inRange := true }
  else if pending.inRange then
    match pending.ranges with
    | (low, _) :: rest =>
        if c < low then .error (.invalidRange low c)
        else go { pending with ranges := (low, c) :: rest, inRange := false }
    | [] => go { pending with ranges := [(c, c)], inRange := false }
  else go { pending with ranges := (c, c) :: pending.ranges }

def step (state : State) (c : Char) : Except Error State :=
  let advance (result : Except Error State) : Except Error State :=
    result.map fun next => { next with previous := some c }
  match state.mode with
  | .plain => advance (state.takePlain c)
  | .star before =>
      if c = '*' then advance (.ok { state with mode := .stars before })
      else advance ((state.push .run).takePlain c)
  | .stars before =>
      match state.closeStars before (some c) with
      | (next, true) => advance (.ok next)
      | (next, false) => advance (next.takePlain c)
  | .classStart =>
      if c = '!' || c = '^' then advance (.ok { state with mode := .inClass ⟨true, [], true, false⟩ })
      else advance (state.takeMember ⟨false, [], true, false⟩ c)
  | .inClass pending => advance (state.takeMember pending c)
  | .escape => advance (.ok (state.push (.literal c)))

def finish (state : State) : Except Error (List Token) :=
  let close (last : State) : Except Error (List Token) :=
    if last.groups.isEmpty then .ok last.tokens.reverse else .error .unclosedAlternatives
  match state.mode with
  | .plain => close state
  | .star _ => close (state.push .run)
  | .stars before => close (state.closeStars before none).1
  | .classStart | .inClass _ => .error .unclosedClass
  | .escape => .error .danglingEscape

end State

def read (pattern : String) : Except Error (List Token) :=
  match pattern.toList.foldlM State.step State.initial with
  | .ok state => state.finish
  | .error error => .error error

def separator : UInt8 := 47

def ends : List UInt8 → List (List UInt8)
  | [] => [[]]
  | byte :: rest => (byte :: rest) :: ends rest

def behindSeparators : List UInt8 → List (List UInt8)
  | [] => []
  | byte :: rest =>
      if byte = separator then rest :: behindSeparators rest else behindSeparators rest

def strip : List UInt8 → List UInt8 → List (List UInt8)
  | [], text => [text]
  | _ :: _, [] => []
  | expected :: more, byte :: rest => if expected = byte then strip more rest else []

/-- Whether a byte is a member of a range. Of a character of several bytes each byte is a member,
and a range goes from the last byte of its low end to the first byte of its high end. -/
def inRange (byte : UInt8) (range : Char × Char) : Bool :=
  let low := String.utf8EncodeChar range.1
  let high := String.utf8EncodeChar range.2
  low.contains byte || high.contains byte ||
    (range.1 != range.2 && low.getLast?.any (· ≤ byte) && high.head?.any (byte ≤ ·))

mutual

/-- Whether a token stands for nothing at all: a group without a branch that stands for
something. -/
def Token.isVoid : Token → Bool
  | .alternatives branches => allVoid branches
  | _ => false

def branchVoid : List Token → Bool
  | [] => true
  | token :: rest => token.isVoid && branchVoid rest

def allVoid : List (List Token) → Bool
  | [] => true
  | branch :: rest => branchVoid branch && allVoid rest

end

def distinct (texts : List (List UInt8)) : List (List UInt8) :=
  texts.foldr (fun text others =>
    if others.any fun other => other.length == text.length then others else text :: others) []

mutual

def Token.rests (text : List UInt8) : Token → List (List UInt8)
  | .literal c => strip (String.utf8EncodeChar c) text
  | .any => match text with
      | [] => []
      | _ :: rest => [rest]
  | .run => ends text
  | .leadingDirectories => text :: behindSeparators text
  | .everythingBelow => match text with
      | [] => []
      | byte :: rest => if byte = separator then ends rest else []
  | .innerDirectories => match text with
      | [] => []
      | byte :: rest => if byte = separator then rest :: behindSeparators rest else []
  | .charClass negated ranges => match text with
      | [] => []
      | byte :: rest => if ranges.any (inRange byte) != negated then [rest] else []
  | .alternatives branches =>
      if allVoid branches then [text] else restsOfAny text branches

def restsOfAll (texts : List (List UInt8)) : List Token → List (List UInt8)
  | [] => texts
  | token :: rest => restsOfAll (distinct (texts.flatMap fun text => token.rests text)) rest

def restsOfAny (text : List UInt8) : List (List Token) → List (List UInt8)
  | [] => []
  | branch :: rest =>
      (if branchVoid branch then [] else restsOfAll [text] branch) ++ restsOfAny text rest

end

/-- Whether a pattern matches a whole path. A pattern of two stars alone matches everything. -/
def isMatch (tokens : List Token) (path : String) : Bool :=
  match tokens with
  | [.leadingDirectories] => true
  | _ => (restsOfAll [path.toUTF8.toList] tokens).any List.isEmpty

end Glob

end ProbeCoverage
