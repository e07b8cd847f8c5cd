import ProbeCoverage.Yaml.Scalar

/-!
Reading settings files: mappings and sequences in block form, told apart by indentation, or in flow
form between brackets, with plain and quoted scalars and comments. A file holds at most one
document.
-/

namespace ProbeCoverage.Yaml

/-- A value in a settings file. A scalar is a text; whether it was quoted decides whether it may
stand for a number, a truth value or nothing. -/
inductive Node where
  | scalar (text : String) (plain : Bool)
  | sequence (items : List Node)
  | mapping (entries : List (Node × Node))

def Node.blank : Node := .scalar "" true

structure Cursor where
  rest : List Char
  column : Nat
  /-- Only blanks stand before the place in its line. -/
  fresh : Bool

/-- Skip blanks, comments and line breaks. Tabulators may stand anywhere but at the start of a
line. -/
def skipBlock (tabs comment : Bool) (column : Nat) (fresh : Bool) : List Char → Cursor
  | [] => ⟨[], column, fresh⟩
  | c :: rest =>
      if c == '\n' then skipBlock false false 0 true rest
      else if comment then skipBlock tabs true column fresh rest
      else if c == ' ' || (tabs && c == '\t') then skipBlock tabs false (column + 1) fresh rest
      else if c == '#' then skipBlock tabs true column fresh rest
      else ⟨c :: rest, column, fresh⟩

def skipFlow (comment : Bool) : List Char → List Char
  | [] => []
  | c :: rest =>
      if c == '\n' then skipFlow false rest
      else if comment then skipFlow true rest
      else if isSpace c then skipFlow false rest
      else if c == '#' then skipFlow true rest
      else c :: rest

namespace Cursor

def next (cursor : Cursor) : Cursor :=
  skipBlock (!cursor.fresh) false cursor.column cursor.fresh cursor.rest

def atEnd (cursor : Cursor) : Bool :=
  cursor.rest.isEmpty || (cursor.fresh && cursor.column == 0 && isMarker cursor.rest)

def atDash (cursor : Cursor) : Bool :=
  cursor.rest.head? == some '-' && endsToken cursor.rest[1]?

end Cursor

mutual

def readFlow : Nat → List Char → Option (Node × List Char)
  | 0, _ => none
  | _ + 1, [] => none
  | fuel + 1, c :: rest =>
      if c == '[' then (readItems fuel rest).map fun (items, rest) => (.sequence items, rest)
      else if c == '\x7b' then
        (readPairs fuel rest).map fun (entries, rest) => (.mapping entries, rest)
      else if c == '"' || c == '\'' then
        (takeQuoted (c == '"') rest).map fun (text, rest, _) => (.scalar text false, rest)
      else if startsPlain true c rest.head? then
        (takePlain true 0 (c :: rest)).map fun plain =>
          (.scalar (String.ofList plain.text) true, plain.rest)
      else none

def readFlowValue : Nat → List Char → Option (Node × List Char)
  | 0, _ => none
  | fuel + 1, text =>
      match skipFlow false text with
      | [] => none
      | c :: rest =>
          if c == ',' || c == ']' || c == '\x7d' then some (.blank, c :: rest)
          else readFlow fuel (c :: rest)

def readItems : Nat → List Char → Option (List Node × List Char)
  | 0, _ => none
  | fuel + 1, text =>
      match skipFlow false text with
      | ']' :: rest => some ([], rest)
      | text =>
          match readFlow fuel text with
          | none => none
          | some (item, rest) =>
              match
                match skipFlow false rest with
                | ':' :: rest =>
                    (readFlowValue fuel rest).map fun (value, rest) =>
                      (Node.mapping [(item, value)], rest)
                | rest => some (item, rest)
              with
              | none => none
              | some (item, rest) =>
                  match skipFlow false rest with
                  | ']' :: rest => some ([item], rest)
                  | ',' :: rest =>
                      (readItems fuel rest).map fun (items, rest) => (item :: items, rest)
                  | _ => none

def readPairs : Nat → List Char → Option (List (Node × Node) × List Char)
  | 0, _ => none
  | fuel + 1, text =>
      match skipFlow false text with
      | '\x7d' :: rest => some ([], rest)
      | text =>
          match readFlow fuel text with
          | none => none
          | some (key, rest) =>
              match
                match skipFlow false rest with
                | ':' :: rest => readFlowValue fuel rest
                | rest => some (.blank, rest)
              with
              | none => none
              | some (value, rest) =>
                  match skipFlow false rest with
                  | '\x7d' :: rest => some ([(key, value)], rest)
                  | ',' :: rest =>
                      (readPairs fuel rest).map fun (entries, rest) =>
                        ((key, value) :: entries, rest)
                  | _ => none

end

def readInline (parent : Int) (text : List Char) : Option (Node × Cursor × Bool) :=
  match text with
  | [] => none
  | c :: rest =>
      if c == '[' || c == '\x7b' then
        (readFlow (2 * text.length + 2) text).map fun (node, rest) => (node, ⟨rest, 0, false⟩, true)
      else if c == '"' || c == '\'' then
        (takeQuoted (c == '"') rest).map fun (text, rest, oneLine) =>
          (.scalar text false, ⟨rest, 0, false⟩, oneLine)
      else if startsPlain false c rest.head? then
        (takePlain false parent text).map fun plain =>
          (.scalar (String.ofList plain.text) true, ⟨plain.rest, plain.column, plain.fresh⟩, true)
      else none

def behindColon (cursor : Cursor) : Option (List Char) :=
  if cursor.fresh then none
  else
    match cursor.rest.dropWhile isSpace with
    | ':' :: rest => if endsToken rest.head? then some rest else none
    | _ => none

mutual

/-- A value in a block whose parent stands at column `parent`. `keys` tells whether a mapping or a
sequence may start here. -/
def readBlock : Nat → Int → Bool → Cursor → Option (Node × Cursor)
  | 0, _, _, _ => none
  | fuel + 1, parent, keys, cursor =>
      if cursor.atDash then
        if keys then
          (readEntries fuel cursor.column false cursor).map fun (items, rest) =>
            (.sequence items, rest)
        else none
      else
        match readInline parent cursor.rest with
        | none => none
        | some (node, behind, mayBeKey) =>
            match behindColon behind with
            | none => some (node, behind)
            | some rest =>
                if keys && mayBeKey then
                  (readMapping fuel cursor.column node ⟨rest, 0, false⟩).map
                    fun (entries, rest) => (.mapping entries, rest)
                else none

def readValue : Nat → Nat → Cursor → Option (Node × Cursor)
  | 0, _, _ => none
  | fuel + 1, column, cursor =>
      let next := cursor.next
      if next.atEnd then some (.blank, next)
      else if !next.fresh then readBlock fuel column false next
      else if column < next.column then readBlock fuel column true next
      else if next.column = column && next.atDash then
        (readEntries fuel column true next).map fun (items, rest) => (.sequence items, rest)
      else some (.blank, next)

def readMapping : Nat → Nat → Node → Cursor → Option (List (Node × Node) × Cursor)
  | 0, _, _, _ => none
  | fuel + 1, column, key, cursor =>
      match readValue fuel column cursor with
      | none => none
      | some (value, behind) =>
          let next := behind.next
          if next.atEnd then some ([(key, value)], next)
          else if !next.fresh || column < next.column then none
          else if next.column < column then some ([(key, value)], next)
          else if next.atDash then none
          else
            match readInline column next.rest with
            | none => none
            | some (following, behind, mayBeKey) =>
                match behindColon behind with
                | none => none
                | some rest =>
                    if mayBeKey then
                      (readMapping fuel column following ⟨rest, 0, false⟩).map
                        fun (entries, rest) => ((key, value) :: entries, rest)
                    else none

/-- The entries of a block sequence at column `column`, from a dash on. A sequence that stands at
the column of its key ends with the next key. -/
def readEntries : Nat → Nat → Bool → Cursor → Option (List Node × Cursor)
  | 0, _, _, _ => none
  | fuel + 1, column, underKey, cursor =>
      let next := skipBlock false false (column + 1) false (cursor.rest.drop 1)
      match
        if next.atEnd then some (.blank, next)
        else if !next.fresh || column < next.column then readBlock fuel column true next
        else some (.blank, next)
      with
      | none => none
      | some (item, behind) =>
          let next := behind.next
          if next.atEnd then some ([item], next)
          else if !next.fresh || column < next.column then none
          else if next.column < column then some ([item], next)
          else if next.atDash then
            (readEntries fuel column underKey next).map fun (items, rest) => (item :: items, rest)
          else if underKey then some ([item], next)
          else none

end

def isAllowed (c : Char) : Bool :=
  let code := c.toNat
  code == 9 || code == 10 || code == 13 || (32 ≤ code && code ≤ 126) || code == 0x85 ||
    (0xA0 ≤ code && code != 0xFEFF && code != 0xFFFE && code != 0xFFFF)

def unifyBreaks : List Char → List Char
  | '\r' :: '\n' :: rest => '\n' :: unifyBreaks rest
  | c :: rest =>
      (if c == '\r' || c == Char.ofNat 0x85 then '\n' else c) :: unifyBreaks rest
  | [] => []

def nothingFollows (cursor : Cursor) : Bool :=
  if cursor.rest.isEmpty then true
  else if cursor.fresh && cursor.column == 0 && isMarkerLine '.' cursor.rest then
    (skipBlock true false 3 false (cursor.rest.drop 3)).rest.isEmpty
  else false

def readDocument (fuel : Nat) (cursor : Cursor) : Option Node :=
  if cursor.atEnd then if nothingFollows cursor then some .blank else none
  else
    match readBlock fuel (-1) cursor.fresh cursor with
    | none => none
    | some (node, behind) => if nothingFollows behind.next then some node else none

def read (text : String) : Option (Option Node) :=
  let characters := text.toList
  let characters := if characters.head? == some (Char.ofNat 0xFEFF) then characters.drop 1 else characters
  if !characters.all isAllowed then none
  else
    let lines := unifyBreaks characters
    let fuel := 2 * lines.length + 4
    let start := skipBlock false false 0 true lines
    if start.rest.isEmpty then some none
    else if start.fresh && start.column == 0 && isMarkerLine '-' start.rest then
      (readDocument fuel (skipBlock true false 3 false (start.rest.drop 3))).map some
    else (readDocument fuel start).map some

end ProbeCoverage.Yaml
