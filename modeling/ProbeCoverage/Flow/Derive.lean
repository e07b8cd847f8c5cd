import ProbeCoverage.Flow.Rules

/-!
Deriving counts. `derive` follows the rules without remembering anything; `remember` gives the same
answers and remembers entries and completions, so that a whole tree is surveyed in one go.
-/

namespace ProbeCoverage.Flow

open Cover (CoverTree)
open Probe (Hits)

/-- A covered tree with the hits its program left, and how often the tree was entered if that was
told. -/
structure View where
  tree : CoverTree
  hits : Hits
  told : Option Nat
  arithmetic : Arithmetic := .word

namespace View

def fuel (view : View) : Nat :=
  4 * view.tree.size + 1

/-- Follow the rules for at most `fuel` counts in a row. -/
def deriveWith (view : View) : Nat → Query → Except Error Nat
  | 0, query => .error (.circular query.node)
  | fuel + 1, query =>
      (rule view.tree query).eval view.arithmetic view.hits view.told (view.deriveWith fuel)

def derive (view : View) (query : Query) : Except Error Nat :=
  view.deriveWith view.fuel query

def entry (view : View) (node : Nat) : Except Error Nat :=
  view.derive ⟨.entry, node⟩

def completion (view : View) (node : Nat) : Except Error Nat :=
  view.derive ⟨.completion, node⟩

def interruption (view : View) (node : Nat) : Except Error Nat :=
  view.derive ⟨.interruption, node⟩

def execution (view : View) (node : Nat) : Except Error Nat :=
  view.derive ⟨.execution, node⟩

end View

structure Memo where
  entries : Array (Option Nat)
  completions : Array (Option Nat)

namespace Memo

def empty (size : Nat) : Memo :=
  ⟨Array.replicate size none, Array.replicate size none⟩

def get? (memo : Memo) (query : Query) : Option Nat :=
  match query.measure with
  | .entry => (memo.entries[query.node]?).join
  | .completion => (memo.completions[query.node]?).join
  | _ => none

def store (memo : Memo) (query : Query) (count : Nat) : Memo :=
  match query.measure with
  | .entry => { memo with entries := memo.entries.setIfInBounds query.node (some count) }
  | .completion =>
      { memo with completions := memo.completions.setIfInBounds query.node (some count) }
  | _ => memo

def clear (memo : Memo) : Memo :=
  ⟨memo.entries.map fun _ => none, memo.completions.map fun _ => none⟩

end Memo

namespace Formula

def evalMemo (arithmetic : Arithmetic) (hits : Hits) (told : Option Nat)
    (ask : Query → Memo → Except Error Nat × Memo) : Formula → Memo → Except Error Nat × Memo
  | .zero, memo => (.ok 0, memo)
  | .hits slot, memo => (.ok (hits.get slot), memo)
  | .supplied otherwise, memo =>
      match told with
      | some runs => (.ok runs, memo)
      | none => evalMemo arithmetic hits told ask otherwise memo
  | .count query, memo => ask query memo
  | .plus first second, memo =>
      match evalMemo arithmetic hits told ask first memo with
      | (.error error, memo) => (.error error, memo)
      | (.ok a, memo) =>
          match evalMemo arithmetic hits told ask second memo with
          | (.error error, memo) => (.error error, memo)
          | (.ok b, memo) => (.ok (arithmetic.add a b), memo)
  | .minus blame first second, memo =>
      match evalMemo arithmetic hits told ask first memo with
      | (.error error, memo) => (.error error, memo)
      | (.ok a, memo) =>
          match evalMemo arithmetic hits told ask second memo with
          | (.error error, memo) => (.error error, memo)
          | (.ok b, memo) =>
              (if b ≤ a then .ok (a - b) else .error (blame.error a b), memo)
  | .after first second, memo =>
      match evalMemo arithmetic hits told ask first memo with
      | (.error error, memo) => (.error error, memo)
      | (.ok _, memo) => evalMemo arithmetic hits told ask second memo
  | .fail error, memo => (.error error, memo)

end Formula

namespace View

/-- Follow the rules, taking from memory what is there and remembering what succeeds. -/
def rememberWith (view : View) : Nat → Query → Memo → Except Error Nat × Memo
  | 0, query, memo =>
      match memo.get? query with
      | some count => (.ok count, memo)
      | none => (.error (.circular query.node), memo)
  | fuel + 1, query, memo =>
      match memo.get? query with
      | some count => (.ok count, memo)
      | none =>
          match (rule view.tree query).evalMemo view.arithmetic view.hits view.told
            (view.rememberWith fuel) memo with
          | (.ok count, memo) => (.ok count, memo.store query count)
          | (.error error, memo) => (.error error, memo)

def remember (view : View) (query : Query) (memo : Memo) : Except Error Nat × Memo :=
  view.rememberWith view.fuel query memo

end View

end ProbeCoverage.Flow
