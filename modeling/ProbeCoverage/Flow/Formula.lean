import ProbeCoverage.Flow.Error
import ProbeCoverage.Probe.Hits

/-!
Formulas for counts. A count of a node is a small sum or difference of hits and of other counts.
The formula is data, so that its value, its dependencies and its behaviour under sums of hits can be
read off it. Evaluation goes from left to right, and the first fault wins. Counts are machine words:
a difference is checked, and a sum beyond the largest word wraps around. The same formula can be
evaluated with exact sums, to compare the two.
-/

namespace ProbeCoverage.Flow

open Probe (Hits)

/-- How sums are taken: as numbers of any size, or as words of the machine. -/
inductive Arithmetic where
  | exact
  | word
  deriving DecidableEq, Repr

namespace Arithmetic

/-- Sums are taken modulo this number. Modulo zero they stay as they are. -/
def modulus : Arithmetic → Nat
  | .exact => 0
  | .word => UInt64.size

def keep (arithmetic : Arithmetic) (n : Nat) : Nat :=
  n % arithmetic.modulus

def add (arithmetic : Arithmetic) (a b : Nat) : Nat :=
  arithmetic.keep (a + b)

def sum (arithmetic : Arithmetic) (numbers : List Nat) : Nat :=
  numbers.foldl arithmetic.add 0

def Holds : Arithmetic → Nat → Prop
  | .exact, _ => True
  | .word, n => n < UInt64.size

instance (arithmetic : Arithmetic) (n : Nat) : Decidable (arithmetic.Holds n) :=
  match arithmetic with
  | .exact => inferInstanceAs (Decidable True)
  | .word => inferInstanceAs (Decidable (n < UInt64.size))

variable {arithmetic : Arithmetic} {a b n : Nat}

@[simp] theorem keep_exact (n : Nat) : Arithmetic.exact.keep n = n := Nat.mod_zero n

@[simp] theorem keep_zero (arithmetic : Arithmetic) : arithmetic.keep 0 = 0 := Nat.zero_mod _

theorem keep_of_holds (fits : arithmetic.Holds n) : arithmetic.keep n = n := by
  cases arithmetic with
  | exact => exact keep_exact n
  | word => exact Nat.mod_eq_of_lt fits

theorem holds_keep (arithmetic : Arithmetic) (n : Nat) : arithmetic.Holds (arithmetic.keep n) := by
  cases arithmetic with
  | exact => trivial
  | word => exact Nat.mod_lt n (by decide)

theorem holds_zero (arithmetic : Arithmetic) : arithmetic.Holds 0 := by
  cases arithmetic <;> decide

theorem Holds.mono (fits : arithmetic.Holds n) (smaller : a ≤ n) : arithmetic.Holds a := by
  cases arithmetic with
  | exact => trivial
  | word => exact Nat.lt_of_le_of_lt smaller fits

theorem le_add_of_holds (fits : arithmetic.Holds (a + b)) : a ≤ arithmetic.add a b := by
  rw [add, keep_of_holds fits]
  exact Nat.le_add_right a b

/-- Taking a part from a sum again leaves the other part, where the sum did not wrap around. -/
theorem part_of_sum_iff (part : arithmetic.Holds a) (rest : arithmetic.Holds b) :
    a ≤ arithmetic.add a b ∧ n = arithmetic.add a b - a ↔ arithmetic.Holds (a + b) ∧ n = b := by
  cases arithmetic with
  | exact => simp [add, Holds]
  | word =>
      simp only [add, keep, modulus, Holds, UInt64.size] at *
      omega

theorem keep_keep_add (arithmetic : Arithmetic) (a b : Nat) :
    arithmetic.keep (arithmetic.keep a + b) = arithmetic.keep (a + b) :=
  Nat.mod_add_mod a arithmetic.modulus b

end Arithmetic

inductive Measure where
  /-- Control reached the node. -/
  | entry
  /-- The node finished normally. -/
  | completion
  /-- The node was left by a transfer of control. -/
  | interruption
  /-- The node's own code ran. -/
  | execution
  deriving DecidableEq, Repr

structure Query where
  measure : Measure
  node : Nat
  deriving DecidableEq, Repr

inductive Blame where
  | difference (node : Nat) (difference : Difference)
  | interruption (node : Nat)
  deriving DecidableEq, Repr

def Blame.error (blame : Blame) (minuend subtrahend : Nat) : Error :=
  match blame with
  | .difference node what => .negative node what minuend subtrahend
  | .interruption node => .completionExceedsEntry node minuend subtrahend

inductive Formula where
  | zero
  | hits (slot : Nat)
  /-- The entry count that was told for the tree, if one was. -/
  | supplied (otherwise : Formula)
  | count (query : Query)
  | plus (first second : Formula)
  | minus (blame : Blame) (first second : Formula)
  /-- The second value, once the first one could be derived. -/
  | after (first second : Formula)
  | fail (error : Error)
  deriving DecidableEq, Repr

namespace Formula

def sum (terms : List Formula) : Formula :=
  terms.foldl plus zero

def eval (arithmetic : Arithmetic) (hits : Hits) (told : Option Nat)
    (ask : Query → Except Error Nat) : Formula → Except Error Nat
  | .zero => .ok 0
  | .hits slot => .ok (hits.get slot)
  | .supplied otherwise =>
      match told with
      | some runs => .ok runs
      | none => eval arithmetic hits told ask otherwise
  | .count query => ask query
  | .plus first second =>
      match eval arithmetic hits told ask first with
      | .error error => .error error
      | .ok a =>
          match eval arithmetic hits told ask second with
          | .error error => .error error
          | .ok b => .ok (arithmetic.add a b)
  | .minus blame first second =>
      match eval arithmetic hits told ask first with
      | .error error => .error error
      | .ok a =>
          match eval arithmetic hits told ask second with
          | .error error => .error error
          | .ok b => if b ≤ a then .ok (a - b) else .error (blame.error a b)
  | .after first second =>
      match eval arithmetic hits told ask first with
      | .error error => .error error
      | .ok _ => eval arithmetic hits told ask second
  | .fail error => .error error

end Formula

end ProbeCoverage.Flow
