import ProbeCoverage.Files.Path

/-!
The order of paths. Component lists are in a total order, and two paths stand at one place of it
only when they are the same path. Sorting a list of paths therefore puts the spellings of one path
next to each other.
-/

namespace ProbeCoverage.Files

namespace Component

theorem eq_of_rank_text {first second : Component} (ranks : first.rank = second.rank)
    (texts : first.text = second.text) : first = second := by
  cases first <;> cases second <;> simp_all [rank, text]

theorem before_iff {first second : Component} :
    first.before second = true ↔
      first.rank < second.rank ∨ first.rank = second.rank ∧ first.text < second.text := by
  simp [before]

theorem not_before_self (part : Component) : ¬part.before part = true := by
  rw [before_iff]
  rintro (less | ⟨_, less⟩)
  · exact Nat.lt_irrefl _ less
  · exact String.lt_irrefl _ less

theorem before_trans {first second third : Component} (left : first.before second = true)
    (right : second.before third = true) : first.before third = true := by
  rw [before_iff] at left right ⊢
  rcases left with left | ⟨level, left⟩
  · rcases right with right | ⟨same, _⟩ <;> exact .inl (by omega)
  · rcases right with right | ⟨same, right⟩
    · exact .inl (by omega)
    · exact .inr ⟨level.trans same, String.lt_trans left right⟩

theorem before_trichotomy (first second : Component) :
    first.before second = true ∨ first = second ∨ second.before first = true := by
  rw [before_iff, before_iff]
  rcases Nat.lt_trichotomy first.rank second.rank with less | level | more
  · exact .inl (.inl less)
  · by_cases below : first.text < second.text
    · exact .inl (.inr ⟨level, below⟩)
    · by_cases above : second.text < first.text
      · exact .inr (.inr (.inr ⟨level.symm, above⟩))
      · have texts := String.le_antisymm (String.not_lt.mp above) (String.not_lt.mp below)
        exact .inr (.inl (eq_of_rank_text level texts))
  · exact .inr (.inr (.inl more))

end Component

theorem componentsLE_cons {first second : Component} {rest others : List Component} :
    componentsLE (first :: rest) (second :: others) = true ↔
      first.before second = true ∨ first = second ∧ componentsLE rest others = true := by
  simp [componentsLE]

theorem componentsLE_total (first second : List Component) :
    componentsLE first second = true ∨ componentsLE second first = true := by
  induction first generalizing second with
  | nil => exact .inl rfl
  | cons part rest ih =>
      cases second with
      | nil => exact .inr rfl
      | cons other others =>
          rw [componentsLE_cons, componentsLE_cons]
          rcases Component.before_trichotomy part other with before | rfl | after
          · exact .inl (.inl before)
          · rcases ih others with less | less
            · exact .inl (.inr ⟨rfl, less⟩)
            · exact .inr (.inr ⟨rfl, less⟩)
          · exact .inr (.inl after)

theorem componentsLE_trans {first second third : List Component}
    (left : componentsLE first second = true) (right : componentsLE second third = true) :
    componentsLE first third = true := by
  induction first generalizing second third with
  | nil => rfl
  | cons part rest ih =>
      cases second with
      | nil => cases left
      | cons other others =>
          cases third with
          | nil => cases right
          | cons last more =>
              rw [componentsLE_cons] at left right ⊢
              rcases left with left | ⟨rfl, left⟩
              · rcases right with right | ⟨rfl, _⟩
                · exact .inl (Component.before_trans left right)
                · exact .inl left
              · rcases right with right | ⟨rfl, right⟩
                · exact .inl right
                · exact .inr ⟨rfl, ih left right⟩

theorem componentsLE_antisymm {first second : List Component}
    (left : componentsLE first second = true) (right : componentsLE second first = true) :
    first = second := by
  induction first generalizing second with
  | nil =>
      cases second with
      | nil => rfl
      | cons other others => cases right
  | cons part rest ih =>
      cases second with
      | nil => cases left
      | cons other others =>
          rw [componentsLE_cons] at left right
          -- a first component that comes before the other one cannot also come after it
          rcases left with left | ⟨rfl, left⟩
          · rcases right with right | ⟨rfl, _⟩
            · exact absurd (Component.before_trans left right) (Component.not_before_self part)
            · exact absurd left (Component.not_before_self _)
          · rcases right with right | ⟨_, right⟩
            · exact absurd right (Component.not_before_self part)
            · rw [ih left right]

theorem samePath_iff {first second : String} :
    samePath first second = true ↔ components first = components second :=
  beq_iff_eq

theorem samePath_comm (first second : String) : samePath first second = samePath second first := by
  rw [Bool.eq_iff_iff, samePath_iff, samePath_iff]
  exact eq_comm

theorem samePath_trans {first second third : String} (left : samePath first second = true)
    (right : samePath second third = true) : samePath first third = true := by
  rw [samePath_iff] at *
  exact left.trans right

theorem samePath_of_pathLE {first second : String} (left : pathLE first second = true)
    (right : pathLE second first = true) : samePath first second = true :=
  samePath_iff.mpr (componentsLE_antisymm left right)

theorem pathLE_congr_right {first second third : String} (same : samePath second third = true) :
    pathLE first second = pathLE first third := by
  rw [pathLE, pathLE, samePath_iff.mp same]

theorem pairwise_mergeSort (paths : List String) :
    (paths.mergeSort pathLE).Pairwise fun first second => pathLE first second = true := by
  apply List.pairwise_mergeSort
  · intro first second third left right
    exact componentsLE_trans left right
  · intro first second
    rw [Bool.or_eq_true]
    exact componentsLE_total _ _

end ProbeCoverage.Files
