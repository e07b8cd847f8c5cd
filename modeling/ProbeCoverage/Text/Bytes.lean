/-!
Byte offsets into a text. Offsets count the bytes of the UTF-8 form, and a text can be cut only
between two characters. Texts are lists of characters here, so that a cut is a plain recursion.
-/

namespace ProbeCoverage.Text

def byteCount : List Char → Nat
  | [] => 0
  | c :: rest => c.utf8Size + byteCount rest

/-- The text before and after `offset` bytes; `none` when the offset falls inside a character or
behind the end. -/
def cut? : Nat → List Char → Option (List Char × List Char)
  | 0, text => some ([], text)
  | _ + 1, [] => none
  | offset + 1, c :: rest =>
      if c.utf8Size ≤ offset + 1 then
        (cut? (offset + 1 - c.utf8Size) rest).map fun parts => (c :: parts.1, parts.2)
      else none

def from? : Nat → List Char → Option (List Char)
  | 0, text => some text
  | _ + 1, [] => none
  | offset + 1, c :: rest =>
      if c.utf8Size ≤ offset + 1 then from? (offset + 1 - c.utf8Size) rest else none

def isBoundary (offset : Nat) (text : List Char) : Bool :=
  (from? offset text).isSome

def slice? (start stop : Nat) (text : List Char) : Option (List Char) :=
  if start ≤ stop then do
    let tail ← from? start text
    let parts ← cut? (stop - start) tail
    pure parts.1
  else none

def bytes (text : List Char) : List UInt8 :=
  text.flatMap String.utf8EncodeChar

/-- Lines of a text: the pieces between newline characters, at least one. -/
def lines : List Char → List (List Char)
  | [] => [[]]
  | '\n' :: rest => [] :: lines rest
  | c :: rest =>
      match lines rest with
      | [] => [[c]]
      | first :: others => (c :: first) :: others

def newlinesBefore : Nat → List Char → Nat
  | 0, _ => 0
  | _ + 1, [] => 0
  | offset + 1, c :: rest =>
      (if c = '\n' then 1 else 0) + newlinesBefore (offset + 1 - c.utf8Size) rest

end ProbeCoverage.Text
