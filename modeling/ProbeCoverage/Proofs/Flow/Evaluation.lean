import ProbeCoverage.Flow.Survey

/-!
What a formula needs, and what following the rules comes to. A formula asks for a fixed list of
counts and has a fixed list of faults of its own. More fuel never changes a count that was derived.
When each count has a rank above the ranks of all counts it asks for, fuel above the rank makes no
difference at all, and the derived counts are the only solution of the rules.
-/

namespace ProbeCoverage.Flow

open Cover (CoverTree)
open Probe (Hits)

namespace Formula

def asks : Formula → List Query
  | .zero | .hits _ | .fail _ => []
  | .supplied otherwise => asks otherwise
  | .count query => [query]
  | .plus first second | .minus _ first second | .after first second => asks first ++ asks second

def faults : Formula → List Error
  | .zero | .hits _ | .count _ => []
  | .supplied otherwise => faults otherwise
  | .plus first second | .minus _ first second | .after first second =>
      faults first ++ faults second
  | .fail error => [error]

attribute [local simp] eval

variable {arithmetic : Arithmetic} {hits : Hits} {told : Option Nat}
variable {ask other : Query → Except Error Nat}
variable {first second : Formula} {value : Nat}

theorem eval_plus_ok (evaluated : (plus first second).eval arithmetic hits told ask = .ok value) :
    ∃ a b, first.eval arithmetic hits told ask = .ok a ∧
      second.eval arithmetic hits told ask = .ok b ∧ value = arithmetic.add a b := by
  cases left : first.eval arithmetic hits told ask with
  | error error => simp [left] at evaluated
  | ok a =>
      cases right : second.eval arithmetic hits told ask with
      | error error => simp [left, right] at evaluated
      | ok b =>
          refine ⟨a, b, rfl, rfl, ?_⟩
          simpa [left, right] using evaluated.symm

theorem eval_minus_ok {blame : Blame}
    (evaluated : (minus blame first second).eval arithmetic hits told ask = .ok value) :
    ∃ a b, first.eval arithmetic hits told ask = .ok a ∧
      second.eval arithmetic hits told ask = .ok b ∧ b ≤ a ∧ value = a - b := by
  cases left : first.eval arithmetic hits told ask with
  | error error => simp [left] at evaluated
  | ok a =>
      cases right : second.eval arithmetic hits told ask with
      | error error => simp [left, right] at evaluated
      | ok b =>
          by_cases enough : b ≤ a
          · refine ⟨a, b, rfl, rfl, enough, ?_⟩
            simpa [left, right, enough] using evaluated.symm
          · simp [left, right, enough] at evaluated

theorem eval_after_ok (evaluated : (after first second).eval arithmetic hits told ask = .ok value) :
    (∃ a, first.eval arithmetic hits told ask = .ok a) ∧
      second.eval arithmetic hits told ask = .ok value := by
  cases left : first.eval arithmetic hits told ask with
  | error error => simp [left] at evaluated
  | ok a =>
      refine ⟨⟨a, rfl⟩, ?_⟩
      simpa [left] using evaluated

theorem eval_congr (formula : Formula)
    (same : ∀ query ∈ formula.asks, ask query = other query) :
    formula.eval arithmetic hits told ask = formula.eval arithmetic hits told other := by
  induction formula with
  | zero | hits | fail => rfl
  | count query => exact same query (by simp [asks])
  | supplied otherwise ih =>
      cases told with
      | some runs => rfl
      | none => exact ih same
  | plus first second ihFirst ihSecond
  | minus blame first second ihFirst ihSecond
  | after first second ihFirst ihSecond =>
      have left := ihFirst fun query member => same query (by simp [asks, member])
      have right := ihSecond fun query member => same query (by simp [asks, member])
      simp only [eval, left, right]

theorem eval_extend (formula : Formula)
    (kept : ∀ query count, ask query = .ok count → other query = .ok count)
    (evaluated : formula.eval arithmetic hits told ask = .ok value) :
    formula.eval arithmetic hits told other = .ok value := by
  induction formula generalizing value with
  | zero | hits => exact evaluated
  | fail error => simp at evaluated
  | count query => exact kept query value evaluated
  | supplied otherwise ih =>
      cases told with
      | some runs => exact evaluated
      | none => exact ih evaluated
  | plus first second ihFirst ihSecond =>
      obtain ⟨a, b, left, right, rfl⟩ := eval_plus_ok evaluated
      simp only [eval, ihFirst left, ihSecond right]
  | minus blame first second ihFirst ihSecond =>
      obtain ⟨a, b, left, right, enough, rfl⟩ := eval_minus_ok evaluated
      simp only [eval, ihFirst left, ihSecond right, enough, ↓reduceIte]
  | after first second ihFirst ihSecond =>
      obtain ⟨⟨a, left⟩, right⟩ := eval_after_ok evaluated
      simp only [eval, ihFirst left, ihSecond right]

/-- A value fits the arithmetic when the hits, the entry count told and all counts do. -/
theorem eval_holds (formula : Formula) (hitsHeld : ∀ slot, arithmetic.Holds (hits.get slot))
    (toldHeld : ∀ runs ∈ told, arithmetic.Holds runs)
    (askHeld : ∀ query count, ask query = .ok count → arithmetic.Holds count)
    (evaluated : formula.eval arithmetic hits told ask = .ok value) : arithmetic.Holds value := by
  induction formula generalizing value with
  | zero =>
      obtain rfl := Except.ok.inj evaluated
      exact arithmetic.holds_zero
  | hits slot =>
      obtain rfl := Except.ok.inj evaluated
      exact hitsHeld slot
  | fail error => cases evaluated
  | count query => exact askHeld query value evaluated
  | supplied otherwise ih =>
      cases told with
      | some runs =>
          obtain rfl := Except.ok.inj evaluated
          exact toldHeld runs rfl
      | none => exact ih evaluated
  | plus first second ihFirst ihSecond =>
      obtain ⟨a, b, _, _, rfl⟩ := eval_plus_ok evaluated
      exact arithmetic.holds_keep (a + b)
  | minus blame first second ihFirst ihSecond =>
      obtain ⟨a, b, left, _, _, rfl⟩ := eval_minus_ok evaluated
      exact (ihFirst left).mono (Nat.sub_le a b)
  | after first second ihFirst ihSecond => exact ihSecond (eval_after_ok evaluated).2

/-- Where an error of a formula comes from: it is one of the formula's own faults, a difference
below zero, or the error of a count that the formula asks for. -/
def Explains (formula : Formula) (ask : Query → Except Error Nat) (error : Error) : Prop :=
  error ∈ formula.faults ∨ (∃ blame a b, error = Blame.error blame a b) ∨
    ∃ query ∈ formula.asks, ask query = .error error

theorem Explains.widen {part whole : Formula} {error : Error}
    (explained : part.Explains ask error)
    (faultsKept : ∀ fault ∈ part.faults, fault ∈ whole.faults)
    (asksKept : ∀ query ∈ part.asks, query ∈ whole.asks) : whole.Explains ask error := by
  rcases explained with own | below | ⟨query, member, asked⟩
  · exact .inl (faultsKept error own)
  · exact .inr (.inl below)
  · exact .inr (.inr ⟨query, asksKept query member, asked⟩)

theorem eval_plus_error {error : Error}
    (failed : (plus first second).eval arithmetic hits told ask = .error error) :
    first.eval arithmetic hits told ask = .error error ∨
      second.eval arithmetic hits told ask = .error error := by
  cases left : first.eval arithmetic hits told ask with
  | error fault => exact .inl (by simpa [left] using failed)
  | ok a =>
      cases right : second.eval arithmetic hits told ask with
      | error fault => exact .inr (by simpa [left, right] using failed)
      | ok b => simp [left, right] at failed

theorem eval_after_error {error : Error}
    (failed : (after first second).eval arithmetic hits told ask = .error error) :
    first.eval arithmetic hits told ask = .error error ∨
      second.eval arithmetic hits told ask = .error error := by
  cases left : first.eval arithmetic hits told ask with
  | error fault => exact .inl (by simpa [left] using failed)
  | ok a =>
      cases right : second.eval arithmetic hits told ask with
      | error fault => exact .inr (by simpa [left, right] using failed)
      | ok b => simp [left, right] at failed

theorem eval_minus_error {blame : Blame} {error : Error}
    (failed : (minus blame first second).eval arithmetic hits told ask = .error error) :
    first.eval arithmetic hits told ask = .error error ∨
      second.eval arithmetic hits told ask = .error error ∨ ∃ a b, error = blame.error a b := by
  cases left : first.eval arithmetic hits told ask with
  | error fault => exact .inl (by simpa [left] using failed)
  | ok a =>
      cases right : second.eval arithmetic hits told ask with
      | error fault => exact .inr (.inl (by simpa [left, right] using failed))
      | ok b =>
          by_cases enough : b ≤ a
          · simp [left, right, enough] at failed
          · simp only [eval, left, right, enough, ↓reduceIte, Except.error.injEq] at failed
            exact .inr (.inr ⟨a, b, failed.symm⟩)

theorem eval_error (formula : Formula) {error : Error}
    (failed : formula.eval arithmetic hits told ask = .error error) : formula.Explains ask error := by
  induction formula generalizing error with
  | zero | hits => simp at failed
  | fail fault =>
      left
      simpa [faults] using failed.symm
  | count query => exact .inr (.inr ⟨query, by simp [asks], failed⟩)
  | supplied otherwise ih =>
      cases told with
      | some runs => simp at failed
      | none => exact ih failed
  | plus first second ihFirst ihSecond =>
      rcases eval_plus_error failed with left | right
      · exact (ihFirst left).widen (by simp +contextual [faults]) (by simp +contextual [asks])
      · exact (ihSecond right).widen (by simp +contextual [faults]) (by simp +contextual [asks])
  | after first second ihFirst ihSecond =>
      rcases eval_after_error failed with left | right
      · exact (ihFirst left).widen (by simp +contextual [faults]) (by simp +contextual [asks])
      · exact (ihSecond right).widen (by simp +contextual [faults]) (by simp +contextual [asks])
  | minus blame first second ihFirst ihSecond =>
      rcases eval_minus_error failed with left | right | ⟨a, b, below⟩
      · exact (ihFirst left).widen (by simp +contextual [faults]) (by simp +contextual [asks])
      · exact (ihSecond right).widen (by simp +contextual [faults]) (by simp +contextual [asks])
      · exact .inr (.inl ⟨blame, a, b, below⟩)

end Formula

namespace View

theorem deriveWith_succ_of_ok (view : View) (fuel : Nat) (query : Query) (count : Nat)
    (derived : view.deriveWith fuel query = .ok count) :
    view.deriveWith (fuel + 1) query = .ok count := by
  induction fuel generalizing query count with
  | zero => simp [deriveWith] at derived
  | succ fuel ih =>
      rw [deriveWith] at derived ⊢
      exact Formula.eval_extend _ ih derived

theorem derive_solves (view : View) (query : Query) (count : Nat)
    (derived : view.derive query = .ok count) :
    (rule view.tree query).eval view.arithmetic view.hits view.told view.derive = .ok count := by
  have last : view.fuel = 4 * view.tree.size + 1 := rfl
  rw [derive, last, deriveWith] at derived
  apply Formula.eval_extend _ _ derived
  intro asked value known
  exact deriveWith_succ_of_ok view _ asked value known

end View

/-- Whatever was hit and told fits the arithmetic. -/
structure View.Held (view : View) : Prop where
  hits : ∀ slot, view.arithmetic.Holds (view.hits.get slot)
  told : ∀ runs ∈ view.told, view.arithmetic.Holds runs

theorem View.held_of_counts {view : View}
    (hits : ∀ count ∈ view.hits.counts.toList, view.arithmetic.Holds count)
    (told : ∀ runs ∈ view.told, view.arithmetic.Holds runs) : view.Held := by
  refine ⟨fun slot => ?_, told⟩
  rw [Hits.get]
  cases found : view.hits.counts[slot]? with
  | none => exact view.arithmetic.holds_zero
  | some count => exact hits count (Array.mem_def.mp (Array.mem_of_getElem? found))

theorem View.Held.derive {view : View} (held : view.Held) {query : Query} {count : Nat}
    (derived : view.derive query = .ok count) : view.arithmetic.Holds count := by
  rw [View.derive] at derived
  generalize view.fuel = fuel at derived
  induction fuel generalizing query count with
  | zero => cases derived
  | succ fuel ih =>
      exact Formula.eval_holds _ held.hits held.told (fun asked value known => ih known) derived

def View.hitsAt (view : View) (node : Nat) (tracker : Cover.Tracker) : Nat :=
  ((view.tree.trackerSlot? node tracker).map view.hits.get).getD 0

namespace Answers

variable {answers : Answers}

theorem of_counts {counts : Counts} (known : answers.counts = .ok counts) :
    answers.entry = .ok counts.runs ∧ answers.completion = .ok counts.fullRuns ∧
      answers.interruption = .ok counts.interrupts := by
  cases entry : answers.entry with
  | error error => simp [Answers.counts, entry] at known
  | ok runs =>
      cases completion : answers.completion with
      | error error => simp [Answers.counts, entry, completion] at known
      | ok fullRuns =>
          cases interruption : answers.interruption with
          | error error => simp [Answers.counts, entry, completion, interruption] at known
          | ok interrupts =>
              simp only [Answers.counts, entry, completion, interruption, Except.ok.injEq] at known
              subst known
              exact ⟨rfl, rfl, rfl⟩

theorem execution_of_wasExecuted {kind : Cover.Kind}
    (executed : answers.wasExecuted kind = .ok (some true)) :
    ∃ count, answers.execution = .ok count ∧ 0 < count := by
  unfold wasExecuted at executed
  split at executed
  · cases ran : answers.execution with
    | error error => simp [ran] at executed
    | ok count =>
        refine ⟨count, rfl, ?_⟩
        simpa [ran] using executed
  · simp at executed

end Answers

def Ranked (tree : CoverTree) (rank : Query → Nat) : Prop :=
  ∀ query asked, asked ∈ (rule tree query).asks → rank asked < rank query

namespace View

variable {view : View} {rank : Query → Nat}

theorem deriveWith_stable (ranked : Ranked view.tree rank) (fuel more : Nat) (query : Query)
    (enough : rank query < fuel) :
    view.deriveWith (fuel + more) query = view.deriveWith fuel query := by
  induction fuel generalizing query with
  | zero => exact absurd enough (Nat.not_lt_zero _)
  | succ fuel ih =>
      rw [Nat.succ_add, deriveWith, deriveWith]
      apply Formula.eval_congr
      intro asked member
      have lower := ranked query asked member
      exact ih asked (by omega)

theorem derive_unfold (ranked : Ranked view.tree rank)
    (bounded : ∀ query, rank query ≤ 4 * view.tree.size) (query : Query) :
    view.derive query =
      (rule view.tree query).eval view.arithmetic view.hits view.told view.derive := by
  have last : view.fuel = 4 * view.tree.size + 1 := rfl
  rw [derive, last, deriveWith]
  apply Formula.eval_congr
  intro asked member
  have lower := ranked query asked member
  have top := bounded query
  rw [derive, last]
  exact (deriveWith_stable ranked _ 1 asked (by omega)).symm

/-- The rules have no other solution than the derived counts. -/
theorem derive_of_solution (ranked : Ranked view.tree rank)
    (bounded : ∀ query, rank query ≤ 4 * view.tree.size) (known : Query → Prop)
    (counts : Query → Nat)
    (closed : ∀ query, known query → ∀ asked ∈ (rule view.tree query).asks, known asked)
    (solved : ∀ query, known query →
      (rule view.tree query).eval view.arithmetic view.hits view.told
        (fun asked => .ok (counts asked)) = .ok (counts query))
    (query : Query) (member : known query) : view.derive query = .ok (counts query) := by
  induction order : rank query using Nat.strongRecOn generalizing query with
  | ind top ih =>
      subst order
      -- the counts solve the same equation, and agree on what it asks for
      rw [derive_unfold ranked bounded, ← solved query member]
      apply Formula.eval_congr
      intro asked inside
      exact ih (rank asked) (ranked query asked inside) asked (closed query member asked inside) rfl

theorem derive_not_circular (ranked : Ranked view.tree rank)
    (bounded : ∀ query, rank query ≤ 4 * view.tree.size)
    (plain : ∀ query node, Error.circular node ∉ (rule view.tree query).faults)
    (query : Query) (node : Nat) : view.derive query ≠ .error (.circular node) := by
  induction order : rank query using Nat.strongRecOn generalizing query with
  | ind top ih =>
      subst order
      intro failed
      rw [derive_unfold ranked bounded] at failed
      rcases Formula.eval_error _ failed with own | ⟨blame, a, b, below⟩ | ⟨asked, inside, again⟩
      · exact plain query node own
      · cases blame <;> simp [Blame.error] at below
      · exact ih (rank asked) (ranked query asked inside) asked rfl again

end View

end ProbeCoverage.Flow
