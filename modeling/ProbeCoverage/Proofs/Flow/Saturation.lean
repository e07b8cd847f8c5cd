import Mathlib.Data.Finset.Card
import Mathlib.Data.Finset.Dedup
import ProbeCoverage.Proofs.Flow.Recall

/-!
Fuel is enough for every count that can be derived at all. A round of fuel that adds no count adds
none ever after, and each round before that adds one, so the rounds are used up after all counts of
the tree. This needs no order among the counts: it holds of trees, too, on which some counts hang on
themselves. Hence what a view with memory answers is always what it would derive from scratch.
-/

namespace ProbeCoverage.Flow

open Cover (CoverTree)
open Probe (Hits)

namespace View

variable {view : View} {fuel : Nat} {query : Query} {count : Nat}

section Rounds

def queries (view : View) : List Query :=
  (List.range view.tree.size).flatMap fun node =>
    [⟨.entry, node⟩, ⟨.completion, node⟩, ⟨.interruption, node⟩, ⟨.execution, node⟩]

def derived (view : View) (fuel : Nat) : Finset Query :=
  view.queries.toFinset.filter fun query => (view.deriveWith fuel query).isOk = true

theorem card_derived_le (view : View) (fuel : Nat) :
    (view.derived fuel).card ≤ 4 * view.tree.size := by
  have total : view.queries.length = 4 * view.tree.size := by
    simp [queries, List.length_flatMap, Nat.mul_comm]
  calc (view.derived fuel).card
      ≤ view.queries.toFinset.card := Finset.card_filter_le _ _
    _ ≤ view.queries.length := List.toFinset_card_le _
    _ = 4 * view.tree.size := total

theorem mem_queries (known : view.deriveWith fuel query = .ok count) : query ∈ view.queries := by
  have inside : query.node < view.tree.size := by
    cases fuel with
    | zero => cases known
    | succ fuel =>
        by_contra outside
        have missing : view.tree.cell? query.node = none := by
          rw [CoverTree.cell?, Array.getElem?_eq_none_iff]
          exact Nat.le_of_not_lt outside
        simp [deriveWith, rule, missing, Formula.eval] at known
  rw [queries, List.mem_flatMap]
  refine ⟨query.node, List.mem_range.mpr inside, ?_⟩
  obtain ⟨measure, node⟩ := query
  cases measure <;> simp

theorem mem_derived : query ∈ view.derived fuel ↔ ∃ count, view.deriveWith fuel query = .ok count := by
  rw [derived, Finset.mem_filter, List.mem_toFinset]
  constructor
  · rintro ⟨_, known⟩
    cases answer : view.deriveWith fuel query with
    | ok count => exact ⟨count, rfl⟩
    | error error => simp [answer, Except.isOk, Except.toBool] at known
  · rintro ⟨count, known⟩
    exact ⟨mem_queries known, by simp [known, Except.isOk, Except.toBool]⟩

def Saturated (view : View) (fuel : Nat) : Prop :=
  ∀ query count, view.deriveWith (fuel + 1) query = .ok count → view.deriveWith fuel query = .ok count

theorem Saturated.succ (full : view.Saturated fuel) : view.Saturated (fuel + 1) := by
  intro query count known
  rw [deriveWith] at known ⊢
  exact Formula.eval_extend _ full known

theorem Saturated.of_subset (none : view.derived (fuel + 1) ⊆ view.derived fuel) :
    view.Saturated fuel := by
  intro query count known
  obtain ⟨before, old⟩ := mem_derived.mp (none (mem_derived.mpr ⟨count, known⟩))
  have same := view.deriveWith_succ_of_ok fuel query before old
  rw [known] at same
  rw [old, Except.ok.inj same]

/-- Each round adds a count until one round does not. -/
theorem saturated_or_more (view : View) (fuel : Nat) :
    view.Saturated fuel ∨ fuel < (view.derived (fuel + 1)).card := by
  induction fuel with
  | zero =>
      by_cases none : view.derived 1 ⊆ view.derived 0
      · exact .inl (.of_subset none)
      · obtain ⟨query, new, _⟩ := Finset.not_subset.mp none
        exact .inr (Finset.card_pos.mpr ⟨query, new⟩)
  | succ fuel ih =>
      rcases ih with full | many
      · exact .inl full.succ
      · by_cases none : view.derived (fuel + 1 + 1) ⊆ view.derived (fuel + 1)
        · exact .inl (.of_subset none)
        · right
          have grows : view.derived (fuel + 1) ⊆ view.derived (fuel + 1 + 1) := by
            intro query member
            obtain ⟨count, known⟩ := mem_derived.mp member
            exact mem_derived.mpr ⟨count, view.deriveWith_succ_of_ok _ query count known⟩
          have more := Finset.card_lt_card ⟨grows, none⟩
          omega

theorem saturated (view : View) : view.Saturated (4 * view.tree.size) := by
  rcases view.saturated_or_more (4 * view.tree.size) with full | many
  · exact full
  · have bound := view.card_derived_le (4 * view.tree.size + 1)
    omega

theorem derive_of_any_fuel (known : view.deriveWith fuel query = .ok count) :
    view.derive query = .ok count := by
  induction fuel generalizing query count with
  | zero => cases known
  | succ fuel ih =>
      rw [deriveWith] at known
      have solved : view.deriveWith (view.fuel + 1) query = .ok count := by
        rw [deriveWith]
        exact Formula.eval_extend _ (fun asked value found => ih found) known
      exact view.saturated.succ query count solved

end Rounds

end View

section Memory

variable {arithmetic : Arithmetic} {hits : Hits} {told : Option Nat}
variable {ask : Query → Except Error Nat}

/-- Evaluation with a memory, where a count that is answered is the plain one: so is the value of a
formula, whatever happens to counts that are not answered. -/
theorem Formula.evalMemo_known {remember : Query → Memo → Except Error Nat × Memo}
    {orderly : Memo → Prop}
    (asks : ∀ query memo, orderly memo → orderly (remember query memo).2 ∧
      ∀ count, (remember query memo).1 = .ok count → ask query = .ok count)
    (formula : Formula) (memo : Memo) (kept : orderly memo) :
    orderly (formula.evalMemo arithmetic hits told remember memo).2 ∧
      ∀ count, (formula.evalMemo arithmetic hits told remember memo).1 = .ok count →
        formula.eval arithmetic hits told ask = .ok count := by
  induction formula generalizing memo with
  | zero | hits | fail => exact ⟨kept, fun _ known => known⟩
  | count query => exact asks query memo kept
  | supplied otherwise ih =>
      cases told with
      | some runs => exact ⟨kept, fun _ known => known⟩
      | none => exact ih memo kept
  | plus first second ihFirst ihSecond
  | minus blame first second ihFirst ihSecond
  | after first second ihFirst ihSecond =>
      obtain ⟨keptFirst, left⟩ := ihFirst memo kept
      cases done : first.evalMemo arithmetic hits told remember memo with
      | mk answer middle =>
          rw [done] at keptFirst left
          cases answer with
          | error fault =>
              simp only [evalMemo, done]
              refine ⟨keptFirst, ?_⟩
              rintro _ ⟨⟩
          | ok a =>
              obtain ⟨keptSecond, right⟩ := ihSecond middle keptFirst
              cases follows : second.evalMemo arithmetic hits told remember middle with
              | mk answer last =>
                  rw [follows] at keptSecond right
                  cases answer with
                  | error fault =>
                      simp only [evalMemo, done, follows]
                      refine ⟨keptSecond, ?_⟩
                      rintro _ ⟨⟩
                  | ok b =>
                      simp only [evalMemo, done, follows, eval, left a rfl, right b rfl]
                      exact ⟨keptSecond, fun _ known => known⟩

variable {view : View} {memo : Memo}

theorem View.rememberWith_known (fuel : Nat) (query : Query) (memo : Memo)
    (sound : memo.Sound view) :
    (view.rememberWith fuel query memo).2.Sound view ∧
      ∀ count, (view.rememberWith fuel query memo).1 = .ok count → view.derive query = .ok count := by
  induction fuel generalizing query memo with
  | zero =>
      rw [rememberWith]
      cases found : memo.get? query with
      | none =>
          refine ⟨sound, ?_⟩
          rintro _ ⟨⟩
      | some count =>
          refine ⟨sound, ?_⟩
          rintro _ ⟨⟩
          exact sound.derived query count found
  | succ fuel ih =>
      rw [rememberWith]
      cases found : memo.get? query with
      | some count =>
          refine ⟨sound, ?_⟩
          rintro _ ⟨⟩
          exact sound.derived query count found
      | none =>
          obtain ⟨kept, known⟩ := @Formula.evalMemo_known view.arithmetic view.hits view.told
            view.derive (view.rememberWith fuel) (Memo.Sound view) ih (rule view.tree query) memo
            sound
          cases done : (rule view.tree query).evalMemo view.arithmetic view.hits view.told
              (view.rememberWith fuel) memo with
          | mk result after =>
              rw [done] at kept known
              cases result with
              | error fault =>
                  refine ⟨kept, ?_⟩
                  rintro _ ⟨⟩
              | ok count =>
                  -- a rule solved by derived counts is solved with one more round of fuel
                  have solved : view.deriveWith (view.fuel + 1) query = .ok count := known count rfl
                  have derived := derive_of_any_fuel solved
                  refine ⟨kept.store derived, ?_⟩
                  rintro _ ⟨⟩
                  exact derived

def Answers.Within (given derived : Answers) : Prop :=
  (∀ count, given.entry = .ok count → derived.entry = .ok count) ∧
  (∀ count, given.completion = .ok count → derived.completion = .ok count) ∧
  (∀ count, given.interruption = .ok count → derived.interruption = .ok count) ∧
  ∀ count, given.execution = .ok count → derived.execution = .ok count

theorem Answers.Within.counts {given derived : Answers} (within : given.Within derived)
    {counts : Counts} (known : given.counts = .ok counts) : derived.counts = .ok counts := by
  obtain ⟨entry, completion, interruption, _⟩ := within
  obtain ⟨entered, completed, interrupted⟩ := Answers.of_counts known
  simp only [Answers.counts, entry _ entered, completion _ completed, interruption _ interrupted]

theorem Answers.Within.wasExecuted {given derived : Answers} (within : given.Within derived)
    {kind : Cover.Kind} {verdict : Option Bool} (known : given.wasExecuted kind = .ok verdict) :
    derived.wasExecuted kind = .ok verdict := by
  rw [Answers.wasExecuted] at known ⊢
  by_cases executable : kind.isExecutable = true
  · rw [if_pos executable] at known ⊢
    cases ran : given.execution with
    | error fault => simp [ran] at known
    | ok count =>
        rw [ran] at known
        rw [within.2.2.2 count ran]
        exact known
  · rw [if_neg executable] at known ⊢
    exact known

theorem Recall.answersFor_within (sound : memo.Sound view) (nodes : List Nat) :
    List.Forall₂ (fun node given => Answers.Within given (view.answers node)) nodes
      (answersFor ⟨view, memo⟩ nodes) := by
  induction nodes generalizing memo with
  | nil => exact .nil
  | cons node rest ih =>
      obtain ⟨first, entry⟩ := View.rememberWith_known view.fuel ⟨.entry, node⟩ memo sound
      obtain ⟨second, completion⟩ := View.rememberWith_known view.fuel ⟨.completion, node⟩ _ first
      obtain ⟨third, interruption⟩ :=
        View.rememberWith_known view.fuel ⟨.interruption, node⟩ _ second
      obtain ⟨fourth, execution⟩ := View.rememberWith_known view.fuel ⟨.execution, node⟩ _ third
      exact .cons ⟨entry, completion, interruption, execution⟩ (ih fourth)

theorem View.survey_within (view : View) :
    List.Forall₂ (fun node given => Answers.Within given (view.answers node)) view.tree.ids
      view.survey :=
  Recall.answersFor_within (.empty view) _

theorem Recall.executed_fresh {node : Nat} {kind : Cover.Kind} {verdict : Option Bool}
    (found : view.tree.kind? node = some kind)
    (known : (view.answers node).wasExecuted kind = .ok verdict) :
    ((Recall.fresh view).executed node).1 = .ok verdict := by
  rw [Answers.wasExecuted] at known
  simp only [Recall.fresh, Recall.executed, found]
  by_cases executable : kind.isExecutable = true
  · rw [if_pos executable] at known ⊢
    cases ran : view.derive ⟨.execution, node⟩ with
    | error fault =>
        have failed : (view.answers node).execution = .error fault := ran
        simp [failed] at known
    | ok count =>
        have answered : (view.answers node).execution = .ok count := ran
        obtain ⟨after, _, asked⟩ := Recall.count_sound (.empty view) (ran ▸ settles_ok count)
        rw [answered] at known
        rw [asked, ran]
        exact known
  · rw [if_neg executable] at known ⊢
    exact known

end Memory

end ProbeCoverage.Flow
