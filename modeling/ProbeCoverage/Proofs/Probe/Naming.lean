import ProbeCoverage.Instrument.Plan

/-!
What names tell apart. A probe names the row of its file and a slot of that row, and a temporary names
its node. The numbers stand between characters that are no digits, so each of these texts gives its
numbers back, whatever name the global array has and however the names of temporaries start.
-/

namespace ProbeCoverage.Probe

open Instrument (temporaryName)

theorem natText_injective {first second : Nat}
    (same : Decimal.natText first = Decimal.natText second) : first = second := by
  have digits := congrArg (Nat.ofDigitChars 10 ·.toList 0) same
  simpa [Decimal.natText, Nat.ofDigitChars_ten_toDigits] using digits

theorem digits_then {first second : Nat} {mark other : Char} {rest tail : List Char}
    (stops : mark.isDigit = false) (otherStops : other.isDigit = false)
    (front : Nat.toDigits 10 first ++ mark :: rest <+: Nat.toDigits 10 second ++ other :: tail) :
    first = second ∧ rest <+: tail := by
  have all (number : Nat) : ∀ digit ∈ Nat.toDigits 10 number, digit.isDigit = true :=
    fun _ member => Nat.isDigit_of_mem_toDigits (by decide) (by decide) member
  obtain ⟨left, same⟩ := front
  rw [List.append_assoc, List.cons_append] at same
  have digits : Nat.toDigits 10 first = Nat.toDigits 10 second := by
    have fronts := congrArg (List.takeWhile Char.isDigit) same
    simpa [List.takeWhile_append_of_pos (all _), stops, otherStops] using fronts
  have numbers := congrArg (Nat.ofDigitChars 10 · 0) digits
  simp only [Nat.ofDigitChars_ten_toDigits] at numbers
  rw [digits, List.append_cancel_left_eq, List.cons.injEq] at same
  exact ⟨numbers, left, same.2⟩

theorem toList_probe (allocator : Allocator) (slot : Nat) :
    (allocator.probe slot).toList =
      allocator.global.toList ++ '[' :: (Nat.toDigits 10 allocator.fileIndex ++
        ']' :: '[' :: (Nat.toDigits 10 slot ++ [']', '+', '=', '1'])) := by
  simp [Allocator.probe, Allocator.counter, Decimal.natText, String.toList_append]

/-- Where the probe of a slot can be read, no other probe of the same array can. -/
theorem probe_front {first second : Allocator} {slot other : Nat} {tail : List Char}
    (array : first.global = second.global)
    (front : (first.probe slot).toList <+: (second.probe other).toList ++ tail) :
    first.fileIndex = second.fileIndex ∧ slot = other := by
  rw [toList_probe, toList_probe, array, List.append_assoc, List.prefix_append_right_inj,
    List.cons_append, List.prefix_cons_inj, List.append_assoc, List.cons_append, List.cons_append,
    List.append_assoc] at front
  obtain ⟨row, slots⟩ := digits_then (by decide) (by decide) front
  rw [List.prefix_cons_inj] at slots
  exact ⟨row, (digits_then (by decide) (by decide) slots).1⟩

theorem probe_inj {first second : Allocator} {slot other : Nat}
    (array : first.global = second.global) (same : first.probe slot = second.probe other) :
    first.fileIndex = second.fileIndex ∧ slot = other := by
  have front : (first.probe slot).toList <+: (second.probe other).toList ++ [] := by
    rw [same]
    exact List.prefix_append _ _
  exact probe_front array front

theorem temporaryName_inj {stem : String} {node other : Nat}
    (same : temporaryName stem node = temporaryName stem other) : node = other := by
  apply natText_injective
  simpa [temporaryName, String.append_right_inj] using same

end ProbeCoverage.Probe
