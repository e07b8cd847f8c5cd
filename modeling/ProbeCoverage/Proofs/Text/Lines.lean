import ProbeCoverage.Proofs.Text.Encoding

/-!
Lines of a text and the offsets at which they start. Counting the newlines before an offset gives
the line that holds it, where a newline belongs to the line it ends and the end of the text to the
last line.
-/

namespace ProbeCoverage.Text

theorem lines_eq_splitOn (text : List Char) : lines text = text.splitOn '\n' := by
  fun_induction lines text with
  | case1 => rfl
  | case2 rest ih =>
      rw [ih]
      simp [List.splitOn, List.splitOnP_cons_eq_if_modifyHead]
  | case3 c rest other empty ih =>
      rw [ih] at empty
      exact absurd empty (by simp [List.splitOn])
  | case4 c rest other first others found ih =>
      have plain : (c == '\n') = false := by simpa using other
      rw [ih] at found
      rw [List.splitOn] at found ⊢
      simp [List.splitOnP_cons_eq_if_modifyHead, plain, found]

section Cases

variable {line rest : List Char}

theorem lines_last (plain : '\n' ∉ line) : lines line = [line] := by
  rw [lines_eq_splitOn]
  exact List.splitOn_eq_singleton plain

theorem lines_more (plain : '\n' ∉ line) : lines (line ++ '\n' :: rest) = line :: lines rest := by
  rw [lines_eq_splitOn, lines_eq_splitOn, List.splitOn, List.splitOnP_append_cons _ _ (by rfl)]
  exact congrArg (· ++ _) (List.splitOn_eq_singleton plain)

/-- A text is its last line, or a line with a newline in front of a text. -/
@[elab_as_elim]
theorem line_induction {motive : List Char → Prop}
    (last : ∀ line, '\n' ∉ line → motive line)
    (more : ∀ line rest, '\n' ∉ line → motive rest → motive (line ++ '\n' :: rest))
    (text : List Char) : motive text := by
  induction size : text.length using Nat.strongRecOn generalizing text with
  | ind length ih =>
      by_cases broken : '\n' ∈ text
      · obtain ⟨line, rest, rfl, plain⟩ := List.eq_append_cons_of_mem broken
        refine more line rest plain (ih rest.length ?_ rest rfl)
        rw [← size, List.length_append, List.length_cons]
        omega
      · exact last text broken

end Cases

section Starts

/-- Where a line starts. Every line before it takes its own bytes and one for the newline. -/
def lineStart : List (List Char) → Nat → Nat
  | [], _ => 0
  | _ :: _, 0 => 0
  | line :: rest, index + 1 => byteCount line + 1 + lineStart rest index

/-- A line holds the offsets of its bytes and the one behind them, which is that of its newline or
the end of the text. -/
def OnLine (lines : List (List Char)) (index offset : Nat) : Prop :=
  ∃ line, lines[index]? = some line ∧ lineStart lines index ≤ offset ∧
    offset ≤ lineStart lines index + byteCount line

variable {line : List Char} {rest : List (List Char)} {index offset : Nat}

theorem onLine_first : OnLine (line :: rest) 0 offset ↔ offset ≤ byteCount line := by
  simp [OnLine, lineStart]

theorem onLine_behind (offset : Nat) :
    OnLine (line :: rest) (index + 1) (byteCount line + 1 + offset) ↔
      OnLine rest index offset := by
  simp only [OnLine, List.getElem?_cons_succ, lineStart]
  constructor
  · rintro ⟨found, there, low, high⟩
    exact ⟨found, there, by omega, by omega⟩
  · rintro ⟨found, there, low, high⟩
    exact ⟨found, there, by omega, by omega⟩

theorem not_onLine_within (within : offset ≤ byteCount line) :
    ¬OnLine (line :: rest) (index + 1) offset := by
  rintro ⟨_, _, low, _⟩
  rw [lineStart] at low
  omega

theorem newlinesBefore_plain (tail : List Char) (plain : '\n' ∉ line)
    (within : offset ≤ byteCount line) : newlinesBefore offset (line ++ tail) = 0 := by
  rw [newlinesBefore_within _ _ _ within]
  induction line generalizing offset with
  | nil => cases offset <;> rfl
  | cons c rest ih =>
      cases offset with
      | zero => rfl
      | succ offset =>
          simp only [List.mem_cons, not_or] at plain
          rw [byteCount] at within
          rw [newlinesBefore, if_neg (Ne.symm plain.1), ih plain.2 (by omega)]

theorem newlinesBefore_behind {tail : List Char} (plain : '\n' ∉ line) (offset : Nat) :
    newlinesBefore (byteCount line + 1 + offset) (line ++ '\n' :: tail) =
      newlinesBefore offset tail + 1 := by
  have one : '\n'.utf8Size = 1 := rfl
  rw [Nat.add_assoc, newlinesBefore_append, List.count_eq_zero.mpr plain, Nat.add_comm 1,
    newlinesBefore, if_pos rfl, one, Nat.add_sub_cancel]
  omega

theorem onLine_iff_newlinesBefore {text : List Char} (inside : offset ≤ byteCount text)
    (index : Nat) : OnLine (lines text) index offset ↔ newlinesBefore offset text = index := by
  induction text using line_induction generalizing offset index with
  | last line plain =>
      have none := newlinesBefore_plain [] plain inside
      rw [List.append_nil] at none
      rw [lines_last plain, none]
      cases index with
      | zero => simp [onLine_first, inside]
      | succ index => simp [not_onLine_within inside]
  | more line rest plain ih =>
      rw [lines_more plain]
      by_cases within : offset ≤ byteCount line
      · rw [newlinesBefore_plain _ plain within]
        cases index with
        | zero => simp [onLine_first, within]
        | succ index => simp [not_onLine_within within]
      · obtain ⟨further, rfl⟩ := Nat.exists_eq_add_of_lt (Nat.lt_of_not_le within)
        rw [Nat.add_right_comm, newlinesBefore_behind plain]
        have shorter : further ≤ byteCount rest := by
          rw [byteCount_append, byteCount] at inside
          have one : '\n'.utf8Size = 1 := rfl
          omega
        cases index with
        | zero =>
            rw [onLine_first]
            omega
        | succ index => rw [onLine_behind, ih shorter, Nat.succ_inj]

end Starts

end ProbeCoverage.Text
