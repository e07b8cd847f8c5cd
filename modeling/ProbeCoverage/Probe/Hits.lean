import ProbeCoverage.Json.Reader

/-!
Hit counts, as an instrumented program leaves them: a list by slot. A slot that no probe reached
counts 0, however short the list is.
-/

namespace ProbeCoverage.Probe

structure Hits where
  counts : Array Nat
  deriving DecidableEq, Repr

namespace Hits

def empty : Hits := ⟨#[]⟩

def get (hits : Hits) (slot : Nat) : Nat :=
  (hits.counts[slot]?).getD 0

def set (hits : Hits) (slot count : Nat) : Hits :=
  let missing := slot + 1 - hits.counts.size
  ⟨(hits.counts ++ Array.replicate missing 0).setIfInBounds slot count⟩

def count? : Json.Value → Option Nat
  | .null => some 0
  | value => value.nat?

def ofJson? : Json.Value → Option Hits
  | .array items => (items.mapM count?).map fun counts => ⟨counts.toArray⟩
  | _ => none

def read (text : String) : Option Hits :=
  (Json.read text).bind ofJson?

end Hits

end ProbeCoverage.Probe
