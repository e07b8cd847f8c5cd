import ProbeCoverage.Cover.Tree
import ProbeCoverage.Text.Classes
import ProbeCoverage.Text.Bytes

/-!
Finding the place of an empty body in the source text.
-/

namespace ProbeCoverage.Instrument

open Cover (Anchor)

def endsWord : Option Char → Bool
  | some c => !Text.isNameChar c
  | none => true

/-- Offset behind the first `{`, or behind the first `do` that is a whole word. `previous` is the
character in front of the text. -/
def blockOpenerEnd (offset : Nat) (previous : Option Char) : List Char → Option Nat
  | [] => none
  | c :: rest =>
      if c = '\x7b' then some (offset + 1)
      else if c = 'd' && rest.head? = some 'o' && endsWord previous && endsWord rest[1]? then
        some (offset + 2)
      else blockOpenerEnd (offset + c.utf8Size) (some c) rest

def isMethodNameChar (c : Char) : Bool :=
  Text.isNameChar c || c = '?' || c = '!' || c = '='

def skipDef : List Char → List Char
  | 'd' :: 'e' :: 'f' :: rest => rest
  | text => text

def methodNameEnd (text : List Char) : Nat :=
  let afterWord := skipDef text
  let name := afterWord.dropWhile Text.isBlank
  Text.byteCount text - Text.byteCount name + Text.byteCount (name.takeWhile isMethodNameChar)

def tailFrom (source : List Char) (offset : Nat) : List Char :=
  (Text.from? offset source).getD []

def resolve (source : List Char) : Anchor → Nat
  | .exactly offset => min offset (Text.byteCount source)
  | .afterBlockOpener offset =>
      offset + (blockOpenerEnd 0 none (tailFrom source offset)).getD 0
  | .afterMethodName offset => offset + methodNameEnd (tailFrom source offset)

end ProbeCoverage.Instrument
