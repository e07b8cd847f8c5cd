import ProbeCoverage.Cover.Build
import ProbeCoverage.Proofs.Flow.Evaluation

/-!
Merging the hits of several processes. The hits of two processes are added slot by slot, and so are
the entry counts told for them. With exact sums every formula is linear in hits and counts, and a
difference that stays at or above zero on both sides does so for the sum. Hence a count that can be
derived for both processes can be derived for the merged hits, and it is the sum of the two.
-/

namespace ProbeCoverage

namespace Probe.Hits

def add (first second : Hits) : Hits :=
  ⟨(Array.range (max first.counts.size second.counts.size)).map fun slot =>
    first.get slot + second.get slot⟩

theorem get_of_size_le (hits : Hits) (slot : Nat) (outside : hits.counts.size ≤ slot) :
    hits.get slot = 0 := by
  simp [get, Array.getElem?_eq_none outside]

theorem get_add (first second : Hits) (slot : Nat) :
    (first.add second).get slot = first.get slot + second.get slot := by
  by_cases inside : slot < max first.counts.size second.counts.size
  · have held : (first.add second).counts[slot]? =
        some (first.get slot + second.get slot) := by
      simp [add, inside]
    rw [get, held]
    rfl
  · have outside : max first.counts.size second.counts.size ≤ slot := Nat.le_of_not_lt inside
    have left := get_of_size_le first slot (Nat.le_trans (Nat.le_max_left _ _) outside)
    have right := get_of_size_le second slot (Nat.le_trans (Nat.le_max_right _ _) outside)
    have size : (first.add second).counts.size ≤ slot := by simpa [add] using outside
    rw [left, right, get_of_size_le _ slot size]

end Probe.Hits

namespace Flow

open Cover (CoverTree Kind)
open Probe (Hits)

/-- The entry counts told for two processes and for both together: all three or none. -/
inductive ToldSum : Option Nat → Option Nat → Option Nat → Prop where
  | untold : ToldSum none none none
  | told (first second : Nat) : ToldSum (some first) (some second) (some (first + second))

def Adds (first second both : Except Error Nat) : Prop :=
  ∀ a b, first = .ok a → second = .ok b → both = .ok (a + b)

section Formulas

variable {firstHits secondHits bothHits : Hits} {firstTold secondTold bothTold : Option Nat}
variable {firstAsk secondAsk bothAsk : Query → Except Error Nat}

/-- A formula adds up when the hits, the entry counts told and all counts it asks for do. -/
theorem eval_adds (hitsAdd : ∀ slot, bothHits.get slot = firstHits.get slot + secondHits.get slot)
    (toldAdd : ToldSum firstTold secondTold bothTold)
    (askAdd : ∀ query, Adds (firstAsk query) (secondAsk query) (bothAsk query))
    (formula : Formula) :
    Adds (formula.eval .exact firstHits firstTold firstAsk)
      (formula.eval .exact secondHits secondTold secondAsk)
      (formula.eval .exact bothHits bothTold bothAsk) := by
  induction formula with
  | zero =>
      intro a b left right
      simp only [Formula.eval, Except.ok.injEq] at left right ⊢
      omega
  | hits slot =>
      intro a b left right
      simp only [Formula.eval, Except.ok.injEq] at left right ⊢
      rw [hitsAdd, left, right]
  | supplied otherwise ih =>
      intro a b left right
      cases toldAdd with
      | untold => exact ih a b left right
      | told first second =>
          simp only [Formula.eval, Except.ok.injEq] at left right ⊢
          rw [left, right]
  | count query => exact askAdd query
  | plus first second ihFirst ihSecond =>
      intro a b left right
      obtain ⟨a₁, a₂, left₁, left₂, rfl⟩ := Formula.eval_plus_ok left
      obtain ⟨b₁, b₂, right₁, right₂, rfl⟩ := Formula.eval_plus_ok right
      have sum₁ := ihFirst a₁ b₁ left₁ right₁
      have sum₂ := ihSecond a₂ b₂ left₂ right₂
      simp only [Formula.eval, sum₁, sum₂, Except.ok.injEq, Arithmetic.add, Arithmetic.keep_exact]
      omega
  | minus blame first second ihFirst ihSecond =>
      intro a b left right
      obtain ⟨a₁, a₂, left₁, left₂, leftEnough, rfl⟩ := Formula.eval_minus_ok left
      obtain ⟨b₁, b₂, right₁, right₂, rightEnough, rfl⟩ := Formula.eval_minus_ok right
      have sum₁ := ihFirst a₁ b₁ left₁ right₁
      have sum₂ := ihSecond a₂ b₂ left₂ right₂
      -- a difference that both sides could take, the sum can take as well
      have enough : a₂ + b₂ ≤ a₁ + b₁ := Nat.add_le_add leftEnough rightEnough
      simp only [Formula.eval, sum₁, sum₂, enough, ↓reduceIte, Except.ok.injEq]
      omega
  | after first second ihFirst ihSecond =>
      intro a b left right
      obtain ⟨⟨a₁, left₁⟩, left₂⟩ := Formula.eval_after_ok left
      obtain ⟨⟨b₁, right₁⟩, right₂⟩ := Formula.eval_after_ok right
      have sum₁ := ihFirst a₁ b₁ left₁ right₁
      simp only [Formula.eval, sum₁]
      exact ihSecond a b left₂ right₂
  | fail error =>
      intro a b left
      simp [Formula.eval] at left

theorem deriveWith_adds (tree : CoverTree)
    (hitsAdd : ∀ slot, bothHits.get slot = firstHits.get slot + secondHits.get slot)
    (toldAdd : ToldSum firstTold secondTold bothTold) (fuel : Nat) (query : Query) :
    Adds (View.deriveWith ⟨tree, firstHits, firstTold, .exact⟩ fuel query)
      (View.deriveWith ⟨tree, secondHits, secondTold, .exact⟩ fuel query)
      (View.deriveWith ⟨tree, bothHits, bothTold, .exact⟩ fuel query) := by
  induction fuel generalizing query with
  | zero =>
      intro a b left
      simp [View.deriveWith] at left
  | succ fuel ih => exact eval_adds hitsAdd toldAdd ih (rule tree query)

end Formulas

section NoHits

variable {hits : Hits} {told : Option Nat} (unhit : ∀ slot, hits.get slot = 0)
variable (unentered : told = none ∨ told = some 0) (arithmetic : Arithmetic)

include unhit unentered

theorem eval_of_no_hits {ask : Query → Except Error Nat}
    (nothing : ∀ query count, ask query = .ok count → count = 0) (formula : Formula) {value : Nat}
    (evaluated : formula.eval arithmetic hits told ask = .ok value) : value = 0 := by
  induction formula generalizing value with
  | zero => exact (Except.ok.inj evaluated).symm
  | hits slot => exact (Except.ok.inj evaluated).symm.trans (unhit slot)
  | supplied otherwise ih =>
      rcases unentered with rfl | rfl
      · exact ih evaluated
      · exact (Except.ok.inj evaluated).symm
  | count query => exact nothing query value evaluated
  | plus first second ihFirst ihSecond =>
      obtain ⟨a, b, left, right, rfl⟩ := Formula.eval_plus_ok evaluated
      rw [ihFirst left, ihSecond right, Arithmetic.add, Nat.add_zero, Arithmetic.keep_zero]
  | minus blame first second ihFirst ihSecond =>
      obtain ⟨a, b, left, _, _, rfl⟩ := Formula.eval_minus_ok evaluated
      rw [ihFirst left, Nat.zero_sub]
  | after first second ihFirst ihSecond =>
      exact ihSecond (Formula.eval_after_ok evaluated).2
  | fail error => cases evaluated

/-- Where nothing was hit, whatever can be derived is zero. -/
theorem derive_of_no_hits (tree : CoverTree) (query : Query) (count : Nat)
    (derived : View.derive ⟨tree, hits, told, arithmetic⟩ query = .ok count) : count = 0 := by
  rw [View.derive] at derived
  generalize View.fuel ⟨tree, hits, told, arithmetic⟩ = fuel at derived
  induction fuel generalizing query count with
  | zero => cases derived
  | succ fuel ih => exact eval_of_no_hits unhit unentered arithmetic ih (rule tree query) derived

end NoHits

/-- Counts of merged processes are sums, and where nothing was hit nothing was run. -/
theorem counts_merge (tree : CoverTree) :
    (∀ (first second : Hits) (a b both : Option Nat), ToldSum a b both →
      ∀ (query : Query) (m n : Nat),
        View.derive ⟨tree, first, a, .exact⟩ query = .ok m →
        View.derive ⟨tree, second, b, .exact⟩ query = .ok n →
        View.derive ⟨tree, first.add second, both, .exact⟩ query = .ok (m + n)) ∧
    (∀ (arithmetic : Arithmetic) (hits : Hits) (told : Option Nat),
      (∀ slot, hits.get slot = 0) → (told = none ∨ told = some 0) →
      (∀ (query : Query) (count : Nat),
        View.derive ⟨tree, hits, told, arithmetic⟩ query = .ok count → count = 0) ∧
      (∀ (node : Nat) (kind : Kind),
        (View.answers ⟨tree, hits, told, arithmetic⟩ node).wasExecuted kind ≠
          .ok (some true))) := by
  constructor
  · intro first second a b both toldAdd query m n left right
    exact deriveWith_adds tree (Hits.get_add first second) toldAdd _ query m n left right
  · intro arithmetic hits told unhit unentered
    have nothing := derive_of_no_hits unhit unentered arithmetic tree
    refine ⟨nothing, ?_⟩
    intro node kind executed
    obtain ⟨count, ran, positive⟩ := Answers.execution_of_wasExecuted executed
    have zero : count = 0 := nothing ⟨.execution, node⟩ count ran
    omega

def callThenLiteral : Ast.Node :=
  .mk "begin"
    [.node (.mk "send" [.atom .nil, .atom (.text "risky")] none),
     .node (.mk "int" [.atom (.int 2)] none)] none

/-- Two processes ran the call three times and once, and it failed once in each; a third one ran
nothing. -/
theorem counts_merge_call :
    ∃ tree, CoverTree.ofProgram Probe.defaultGlobal 0 callThenLiteral = .ok tree ∧
      View.interruption ⟨tree, ⟨#[3, 2]⟩, none, .exact⟩ 2 = .ok 1 ∧
      View.interruption ⟨tree, ⟨#[1]⟩, none, .exact⟩ 2 = .ok 1 ∧
      View.interruption ⟨tree, Hits.add ⟨#[3, 2]⟩ ⟨#[1]⟩, none, .exact⟩ 2 = .ok 2 ∧
      View.entry ⟨tree, .empty, none, .word⟩ 2 = .ok 0 ∧
      (View.answers ⟨tree, .empty, none, .word⟩ 2).wasExecuted .call ≠ .ok (some true) := by
  refine ⟨_, rfl, rfl, rfl, ?_, rfl, ?_⟩
  · exact (counts_merge _).1 _ _ none none none .untold ⟨.interruption, 2⟩ 1 1 rfl rfl
  · exact ((counts_merge _).2 .word .empty none (fun _ => rfl) (.inl rfl)).2 2 .call

end Flow

end ProbeCoverage
