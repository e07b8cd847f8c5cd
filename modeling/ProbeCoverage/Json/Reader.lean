import ProbeCoverage.Json.Number

/-!
Reading JSON texts by the strict grammar: no leading zeros, no trailing commas, no control
characters in strings, and nothing but blanks behind the value.
-/

namespace ProbeCoverage.Json

def isGap (c : Char) : Bool :=
  c == ' ' || c == '\n' || c == '\t' || c == '\r'

def skipGap (text : List Char) : List Char :=
  text.dropWhile isGap

def hexValue (c : Char) : Option Nat :=
  if c.isDigit then some (c.toNat - '0'.toNat)
  else if 'a' ≤ c && c ≤ 'f' then some (c.toNat - 'a'.toNat + 10)
  else if 'A' ≤ c && c ≤ 'F' then some (c.toNat - 'A'.toNat + 10)
  else none

def unitOf (a b c d : Char) : Option Nat := do
  let a ← hexValue a
  let b ← hexValue b
  let c ← hexValue c
  let d ← hexValue d
  pure (((a * 16 + b) * 16 + c) * 16 + d)

def shortEscape : Char → Option Char
  | '"' => some '"'
  | '\\' => some '\\'
  | '/' => some '/'
  | 'b' => some '\x08'
  | 'f' => some '\x0c'
  | 'n' => some '\n'
  | 'r' => some '\r'
  | 't' => some '\t'
  | _ => none

/-- The part of a string read so far: its characters in reverse, a high surrogate that waits for
its other half, and whether a surrogate was left alone. -/
structure Unfinished where
  read : List Char
  high : Option Nat
  broken : Bool

namespace Unfinished

def empty : Unfinished := ⟨[], none, false⟩

def push (state : Unfinished) (c : Char) : Unfinished :=
  ⟨c :: state.read, none, state.broken || state.high.isSome⟩

def pushUnit (state : Unfinished) (unit : Nat) : Unfinished :=
  if 0xD800 ≤ unit && unit < 0xDC00 then
    ⟨state.read, some unit, state.broken || state.high.isSome⟩
  else if 0xDC00 ≤ unit && unit < 0xE000 then
    match state.high with
    | some high =>
        ⟨Char.ofNat (0x10000 + (high - 0xD800) * 0x400 + (unit - 0xDC00)) :: state.read,
          none, state.broken⟩
    | none => ⟨state.read, none, true⟩
  else state.push (Char.ofNat unit)

def finish (state : Unfinished) : Name :=
  if state.broken || state.high.isSome then .unpaired
  else .text (String.ofList state.read.reverse)

end Unfinished

def takeString (state : Unfinished) : List Char → Option (Name × List Char)
  | '"' :: rest => some (state.finish, rest)
  | '\\' :: 'u' :: a :: b :: c :: d :: rest =>
      match unitOf a b c d with
      | some unit => takeString (state.pushUnit unit) rest
      | none => none
  | '\\' :: letter :: rest =>
      match shortEscape letter with
      | some c => takeString (state.push c) rest
      | none => none
  | c :: rest => if c.toNat < 0x20 || c == '\\' then none else takeString (state.push c) rest
  | [] => none

def takeWord : List Char → List Char → Option (List Char)
  | [], text => some text
  | c :: word, d :: text => if c == d then takeWord word text else none
  | _ :: _, [] => none

mutual

def takeValue : Nat → List Char → Option (Value × List Char)
  | 0, _ => none
  | _ + 1, [] => none
  | fuel + 1, c :: rest =>
      match c with
      | '"' =>
          (takeString .empty rest).map fun (name, rest) =>
            (match name with
              | .text value => .string value
              | .unpaired => .unpaired, rest)
      | '[' =>
          match skipGap rest with
          | ']' :: rest => some (.array [], rest)
          | rest => (takeItems fuel rest).map fun (items, rest) => (.array items, rest)
      | '\x7b' =>
          match skipGap rest with
          | '\x7d' :: rest => some (.object [], rest)
          | rest => (takeMembers fuel rest).map fun (members, rest) => (.object members, rest)
      | 'n' => (takeWord "ull".toList rest).map fun rest => (.null, rest)
      | 't' => (takeWord "rue".toList rest).map fun rest => (.bool true, rest)
      | 'f' => (takeWord "alse".toList rest).map fun rest => (.bool false, rest)
      | _ => (Numeral.take (c :: rest)).map fun (numeral, rest) => (.number numeral.toNumber, rest)

def takeItems : Nat → List Char → Option (List Value × List Char)
  | 0, _ => none
  | fuel + 1, text =>
      match takeValue fuel text with
      | none => none
      | some (item, rest) =>
          match skipGap rest with
          | ']' :: rest => some ([item], rest)
          | ',' :: rest => (takeItems fuel (skipGap rest)).map fun (items, rest) => (item :: items, rest)
          | _ => none

def takeMembers : Nat → List Char → Option (List (Name × Value) × List Char)
  | 0, _ => none
  | fuel + 1, '"' :: text =>
      match takeString .empty text with
      | none => none
      | some (name, rest) =>
          match skipGap rest with
          | ':' :: rest =>
              match takeValue fuel (skipGap rest) with
              | none => none
              | some (value, rest) =>
                  match skipGap rest with
                  | '\x7d' :: rest => some ([(name, value)], rest)
                  | ',' :: rest =>
                      (takeMembers fuel (skipGap rest)).map fun (members, rest) =>
                        ((name, value) :: members, rest)
                  | _ => none
          | _ => none
  | _ + 1, _ => none

end

/-- The value a text spells, if it spells one. Every call takes at least one character of the
text or follows one that does, so twice its length bounds the nesting of calls. -/
def read (text : String) : Option Value :=
  let characters := text.toList
  match takeValue (2 * characters.length + 2) (skipGap characters) with
  | some (value, rest) => if (skipGap rest).isEmpty then some value else none
  | none => none

end ProbeCoverage.Json
