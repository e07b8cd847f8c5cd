import ProbeCoverage.Proofs.Flow.Termination

/-!
Remembering changes no answer. A view that is asked again and again fills its memory in the middle
of derivations, also of those that fail later on. Whatever the memory holds is what would be derived
from scratch, every question keeps it so, and hence each answer is the one that a view without
memory gives. Being told an entry count empties the memory, so nothing of before is left.
-/

namespace ProbeCoverage.Flow

open Cover (CoverTree)
open Probe (Hits)

def Settles (answer : Except Error Nat) : Prop :=
  ∀ node, answer ≠ .error (.circular node)

theorem settles_ok (count : Nat) : Settles (.ok count) := by
  intro node
  simp

/-- Derivation comes to an end on the tree, whatever was hit and told. -/
def Ends (tree : CoverTree) (arithmetic : Arithmetic) : Prop :=
  ∀ hits told query, Settles (View.derive ⟨tree, hits, told, arithmetic⟩ query)

theorem Ends.of_placed {tree : CoverTree} {arithmetic : Arithmetic} (grown : Cover.Grown tree)
    (placed : tree.targetsPlaced = true) : Ends tree arithmetic := by
  intro hits told query
  exact View.derive_not_circular (ranked grown placed) (rank_le tree)
    (fun asked => (plain_rule tree asked).1) query

namespace Formula

variable {arithmetic : Arithmetic} {hits : Hits} {told : Option Nat}
variable {ask other : Query → Except Error Nat}

def Joins (whole first second : Formula) : Prop :=
  whole = .plus first second ∨ (∃ blame, whole = .minus blame first second) ∨
    whole = .after first second

theorem Joins.failed {whole first second : Formula} (joins : Joins whole first second)
    {fault : Error} (left : first.eval arithmetic hits told ask = .error fault) :
    whole.eval arithmetic hits told ask = .error fault := by
  rcases joins with rfl | ⟨blame, rfl⟩ | rfl <;> simp only [eval, left]

theorem Joins.second_failed {whole first second : Formula} (joins : Joins whole first second)
    {a : Nat} {fault : Error} (left : first.eval arithmetic hits told ask = .ok a)
    (right : second.eval arithmetic hits told ask = .error fault) :
    whole.eval arithmetic hits told ask = .error fault := by
  rcases joins with rfl | ⟨blame, rfl⟩ | rfl <;> simp only [eval, left, right]

theorem Joins.settles {whole first second : Formula} (joins : Joins whole first second)
    (settles : Settles (whole.eval arithmetic hits told ask)) :
    Settles (first.eval arithmetic hits told ask) ∧
      ∀ a, first.eval arithmetic hits told ask = .ok a →
        Settles (second.eval arithmetic hits told ask) := by
  constructor
  · intro node left
    exact settles node (joins.failed left)
  · intro a left node right
    exact settles node (joins.second_failed left right)

theorem eval_settled (formula : Formula)
    (same : ∀ query, Settles (ask query) → other query = ask query)
    (settles : Settles (formula.eval arithmetic hits told ask)) :
    formula.eval arithmetic hits told other = formula.eval arithmetic hits told ask := by
  induction formula with
  | zero | hits | fail => rfl
  | count query => exact same query settles
  | supplied otherwise ih =>
      cases told with
      | some runs => rfl
      | none => exact ih settles
  | plus first second ihFirst ihSecond
  | minus blame first second ihFirst ihSecond
  | after first second ihFirst ihSecond =>
      obtain ⟨settlesFirst, settlesSecond⟩ :=
        @Joins.settles arithmetic hits told ask _ first second (by simp [Joins]) settles
      have left := ihFirst settlesFirst
      cases answer : first.eval arithmetic hits told ask with
      | error fault => simp only [eval, left, answer]
      | ok a => simp only [eval, left, ihSecond (settlesSecond a answer)]

/-- Evaluation with a memory, one formula: where asking for a count gives the plain answer and keeps
the memory in order, so does evaluating a formula. -/
theorem evalMemo_eq {remember : Query → Memo → Except Error Nat × Memo} {orderly : Memo → Prop}
    (asks : ∀ query memo, orderly memo → Settles (ask query) →
      (remember query memo).1 = ask query ∧ orderly (remember query memo).2)
    (formula : Formula) (memo : Memo) (kept : orderly memo)
    (settles : Settles (formula.eval arithmetic hits told ask)) :
    (formula.evalMemo arithmetic hits told remember memo).1 =
        formula.eval arithmetic hits told ask ∧
      orderly (formula.evalMemo arithmetic hits told remember memo).2 := by
  induction formula generalizing memo with
  | zero | hits | fail => exact ⟨rfl, kept⟩
  | count query => exact asks query memo kept settles
  | supplied otherwise ih =>
      cases told with
      | some runs => exact ⟨rfl, kept⟩
      | none => exact ih memo kept settles
  | plus first second ihFirst ihSecond
  | minus blame first second ihFirst ihSecond
  | after first second ihFirst ihSecond =>
      obtain ⟨settlesFirst, settlesSecond⟩ :=
        @Joins.settles arithmetic hits told ask _ first second (by simp [Joins]) settles
      obtain ⟨left, keptFirst⟩ := ihFirst memo kept settlesFirst
      cases done : first.evalMemo arithmetic hits told remember memo with
      | mk answer middle =>
          rw [done] at left keptFirst
          cases answer with
          | error fault =>
              simp only [evalMemo, done, eval, ← left]
              exact ⟨trivial, keptFirst⟩
          | ok a =>
              -- the second part starts from the memory that the first one left
              obtain ⟨right, keptSecond⟩ := ihSecond middle keptFirst (settlesSecond a left.symm)
              cases follows : second.evalMemo arithmetic hits told remember middle with
              | mk answer last =>
                  rw [follows] at right keptSecond
                  cases answer <;> simp only [evalMemo, done, follows, eval, ← left, ← right] <;>
                    exact ⟨trivial, keptSecond⟩

end Formula

/-- The memory holds derived counts only, in a place for each node. -/
structure Memo.Sound (view : View) (memo : Memo) : Prop where
  derived : ∀ query count, memo.get? query = some count → view.derive query = .ok count
  entries : memo.entries.size = view.tree.size
  completions : memo.completions.size = view.tree.size

namespace Memo

theorem get?_empty (size : Nat) (query : Query) : (Memo.empty size).get? query = none := by
  obtain ⟨measure, node⟩ := query
  by_cases inside : node < size <;> cases measure <;> simp [get?, empty, inside]

theorem get?_store {memo : Memo} {query asked : Query} {count found : Nat}
    (held : (memo.store query count).get? asked = some found) :
    (asked = query ∧ found = count) ∨ memo.get? asked = some found := by
  obtain ⟨measure, node⟩ := query
  obtain ⟨other, place⟩ := asked
  by_cases same : node = place
  · subst same
    cases measure <;> cases other <;> simp_all [get?, store, Array.getElem?_setIfInBounds] <;>
      split at held <;> simp_all
  · cases measure <;> cases other <;> simp_all [get?, store]

theorem clear_eq_empty {memo : Memo} {size : Nat} (entries : memo.entries.size = size)
    (completions : memo.completions.size = size) : memo.clear = Memo.empty size := by
  simp only [clear, empty, Array.map_const', entries, completions]

namespace Sound

variable {view : View} {memo : Memo}

theorem empty (view : View) : (Memo.empty view.tree.size).Sound view where
  derived query count held := by simp [get?_empty] at held
  entries := by simp [Memo.empty]
  completions := by simp [Memo.empty]

theorem store (sound : memo.Sound view) {query : Query} {count : Nat}
    (derived : view.derive query = .ok count) : (memo.store query count).Sound view where
  derived asked found held := by
    rcases get?_store held with ⟨rfl, rfl⟩ | before
    · exact derived
    · exact sound.derived asked found before
  entries := by
    unfold Memo.store
    split <;> simp [sound.entries]
  completions := by
    unfold Memo.store
    split <;> simp [sound.completions]

end Sound

end Memo

namespace View

variable {view : View}

theorem deriveWith_settled (fuel more : Nat) (query : Query)
    (settles : Settles (view.deriveWith fuel query)) :
    view.deriveWith (fuel + more) query = view.deriveWith fuel query := by
  induction fuel generalizing query with
  | zero => exact absurd rfl (settles query.node)
  | succ fuel ih =>
      rw [Nat.succ_add, deriveWith, deriveWith]
      exact Formula.eval_settled _ ih settles

theorem deriveWith_eq_derive {fuel : Nat} {query : Query} (bound : fuel ≤ view.fuel)
    (settles : Settles (view.deriveWith fuel query)) :
    view.deriveWith fuel query = view.derive query := by
  have same := deriveWith_settled fuel (view.fuel - fuel) query settles
  rw [Nat.add_sub_cancel' bound] at same
  exact same.symm

/-- One derivation with a memory, by induction on the fuel: what is found in memory was derived with
all fuel, and agrees with what the fuel at hand would derive. -/
theorem rememberWith_eq (fuel : Nat) (bound : fuel ≤ view.fuel) (query : Query) (memo : Memo)
    (sound : memo.Sound view) (settles : Settles (view.deriveWith fuel query)) :
    (view.rememberWith fuel query memo).1 = view.deriveWith fuel query ∧
      (view.rememberWith fuel query memo).2.Sound view := by
  induction fuel generalizing query memo with
  | zero => exact absurd rfl (settles query.node)
  | succ fuel ih =>
      have whole := deriveWith_eq_derive bound settles
      rw [rememberWith]
      cases found : memo.get? query with
      | some count => exact ⟨by rw [whole, sound.derived query count found], sound⟩
      | none =>
          obtain ⟨answer, kept⟩ := Formula.evalMemo_eq (ih (Nat.le_of_succ_le bound))
            (rule view.tree query) memo sound settles
          cases done : (rule view.tree query).evalMemo view.arithmetic view.hits view.told
              (view.rememberWith fuel) memo with
          | mk result after =>
              rw [done] at answer kept
              change result = view.deriveWith (fuel + 1) query at answer
              cases result with
              | error fault => exact ⟨answer, kept⟩
              | ok count =>
                  have derived : view.derive query = .ok count := by rw [← whole, ← answer]
                  exact ⟨answer, kept.store derived⟩

def reply (view : View) : Question → Except Error Reply
  | .count query => (view.derive query).map .count
  | .executed node =>
      match view.tree.kind? node with
      | none => .error (.unknownNode node)
      | some kind => ((view.answers node).wasExecuted kind).map .executed
  | .counts node => (view.answers node).counts.map .counts

end View

namespace Recall

variable {view : View} {memo : Memo}

theorem count_sound (sound : memo.Sound view) {query : Query}
    (settles : Settles (view.derive query)) :
    ∃ after, after.Sound view ∧ count ⟨view, memo⟩ query = (view.derive query, ⟨view, after⟩) := by
  obtain ⟨answer, kept⟩ := View.rememberWith_eq view.fuel (Nat.le_refl _) query memo sound settles
  refine ⟨_, kept, ?_⟩
  rw [View.derive, ← answer]
  rfl

theorem executed_sound (sound : memo.Sound view) (settles : ∀ query, Settles (view.derive query))
    (node : Nat) :
    ∃ after, after.Sound view ∧
      ask ⟨view, memo⟩ (.executed node) = (view.reply (.executed node), ⟨view, after⟩) := by
  cases kind : view.tree.kind? node with
  | none => exact ⟨memo, sound, by simp [ask, executed, View.reply, kind, Except.map]⟩
  | some kind' =>
      by_cases executable : kind'.isExecutable = true
      · obtain ⟨after, kept, asked⟩ := count_sound sound (settles ⟨.execution, node⟩)
        refine ⟨after, kept, ?_⟩
        simp only [ask, executed, kind, executable, if_true, asked, View.reply, Answers.wasExecuted,
          View.answers, View.execution]
        cases view.derive ⟨.execution, node⟩ <;> rfl
      · exact ⟨memo, sound,
          by simp [ask, executed, View.reply, kind, executable, Answers.wasExecuted, Except.map]⟩

theorem counts_sound (sound : memo.Sound view) (settles : ∀ query, Settles (view.derive query))
    (node : Nat) :
    ∃ after, after.Sound view ∧
      ask ⟨view, memo⟩ (.counts node) = (view.reply (.counts node), ⟨view, after⟩) := by
  simp only [ask, counts, View.reply, Answers.counts, View.answers, View.entry, View.completion,
    View.interruption]
  obtain ⟨first, keptFirst, entered⟩ := count_sound sound (settles ⟨.entry, node⟩)
  rw [entered]
  cases view.derive ⟨.entry, node⟩ with
  | error fault => exact ⟨first, keptFirst, rfl⟩
  | ok runs =>
      obtain ⟨second, keptSecond, completed⟩ := count_sound keptFirst (settles ⟨.completion, node⟩)
      simp only [completed]
      cases view.derive ⟨.completion, node⟩ with
      | error fault => exact ⟨second, keptSecond, rfl⟩
      | ok fullRuns =>
          obtain ⟨third, keptThird, interrupted⟩ :=
            count_sound keptSecond (settles ⟨.interruption, node⟩)
          simp only [interrupted]
          cases view.derive ⟨.interruption, node⟩ <;> exact ⟨third, keptThird, rfl⟩

theorem ask_sound (sound : memo.Sound view) (settles : ∀ query, Settles (view.derive query))
    (question : Question) :
    ∃ after, after.Sound view ∧
      ask ⟨view, memo⟩ question = (view.reply question, ⟨view, after⟩) := by
  cases question with
  | count query =>
      obtain ⟨after, kept, asked⟩ := count_sound sound (settles query)
      exact ⟨after, kept, by simp [ask, asked, View.reply]⟩
  | executed node => exact executed_sound sound settles node
  | counts node => exact counts_sound sound settles node

theorem tell_eq_fresh (sound : memo.Sound view) (runs : Nat) :
    tell ⟨view, memo⟩ runs = fresh { view with told := some runs } := by
  rw [tell, Memo.clear_eq_empty sound.entries sound.completions]
  rfl

end Recall

inductive Request where
  | ask (question : Question)
  | tell (runs : Nat)

def Recall.run (memory : Recall) : List Request → List (Except Error Reply) × Recall
  | [] => ([], memory)
  | .ask question :: rest =>
      let (reply, memory) := memory.ask question
      let (replies, memory) := memory.run rest
      (reply :: replies, memory)
  | .tell runs :: rest => (memory.tell runs).run rest

/-- The replies when each question is put to a view of its own, with nothing in memory. -/
def afresh (view : View) : List Request → List (Except Error Reply)
  | [] => []
  | .ask question :: rest => ((Recall.fresh view).ask question).1 :: afresh view rest
  | .tell runs :: rest => afresh { view with told := some runs } rest

/-- A whole history, by induction on its requests: memory stays sound, and no reply depends on it. -/
theorem Recall.run_sound {tree : CoverTree} {arithmetic : Arithmetic}
    (ends : Ends tree arithmetic) (hits : Hits)
    (requests : List Request) (told : Option Nat) (memo : Memo)
    (sound : memo.Sound ⟨tree, hits, told, arithmetic⟩) :
    ∃ last after, after.Sound ⟨tree, hits, last, arithmetic⟩ ∧
      run ⟨⟨tree, hits, told, arithmetic⟩, memo⟩ requests =
        (afresh ⟨tree, hits, told, arithmetic⟩ requests,
          ⟨⟨tree, hits, last, arithmetic⟩, after⟩) := by
  induction requests generalizing told memo with
  | nil => exact ⟨told, memo, sound, rfl⟩
  | cons request rest ih =>
      cases request with
      | tell runs =>
          rw [run, tell_eq_fresh sound]
          exact ih (some runs) _ (.empty _)
      | ask question =>
          obtain ⟨middle, kept, asked⟩ := ask_sound sound (ends hits told) question
          obtain ⟨_, _, anew⟩ :=
            ask_sound (.empty ⟨tree, hits, told, arithmetic⟩) (ends hits told) question
          obtain ⟨last, after, keptAfter, later⟩ := ih told middle kept
          refine ⟨last, after, keptAfter, ?_⟩
          simp only [run, asked, later, afresh, fresh, anew]

/-- Memory shows in no reply: a history of requests gets the replies of views that were never asked
before, these are the replies without memory, and being told an entry count leaves a view as new. -/
theorem memory_transparent {tree : CoverTree} {arithmetic : Arithmetic}
    (ends : Ends tree arithmetic) (hits : Hits)
    (told : Option Nat) (requests : List Request) :
    let view : View := ⟨tree, hits, told, arithmetic⟩
    ((Recall.fresh view).run requests).1 = afresh view requests ∧
    (∀ runs, ((Recall.fresh view).run requests).2.tell runs =
      Recall.fresh ⟨tree, hits, some runs, arithmetic⟩) ∧
    ∀ question, ((Recall.fresh view).ask question).1 = view.reply question := by
  intro view
  obtain ⟨last, after, sound, replies⟩ :=
    Recall.run_sound ends hits requests told _ (.empty ⟨tree, hits, told, arithmetic⟩)
  refine ⟨?_, ?_, ?_⟩
  · rw [Recall.fresh, replies]
  · intro runs
    rw [Recall.fresh, replies, Recall.tell_eq_fresh sound]
  · intro question
    obtain ⟨_, _, anew⟩ :=
      Recall.ask_sound (.empty ⟨tree, hits, told, arithmetic⟩) (ends hits told) question
    rw [Recall.fresh, anew]

/-- The assignment `a, (b, *c), d.e = f` with more completions than entries: its counts fail, those
of `f` do not, and both are there once two entries were told. -/
theorem memory_transparent_targets :
    ∃ tree, CoverTree.ofProgram Probe.defaultGlobal 0 nestedTargets = .ok tree ∧ Ends tree .word ∧
      let requests : List Request :=
        [.ask (.counts 1), .ask (.count ⟨.entry, 10⟩), .tell 2, .ask (.counts 1),
         .ask (.executed 1)]
      let view : View := ⟨tree, ⟨#[0, 1, 2, 2, 2]⟩, none, .word⟩
      afresh view requests =
        [.error (.completionExceedsEntry 1 0 1), .ok (.count 0), .ok (.counts ⟨2, 1, 1⟩),
         .ok (.executed (some true))] ∧
      ((Recall.fresh view).run requests).1 = afresh view requests := by
  have same {tree : CoverTree}
      (covered : CoverTree.ofProgram Probe.defaultGlobal 0 nestedTargets = .ok tree)
      (placed : tree.targetsPlaced = true) (hits : Hits) (requests : List Request) :
      Ends tree .word ∧
        ((Recall.fresh ⟨tree, hits, none, .word⟩).run requests).1 =
          afresh ⟨tree, hits, none, .word⟩ requests := by
    have ends : Ends tree .word := .of_placed (Cover.Built.program covered).grown placed
    exact ⟨ends, (memory_transparent ends hits none requests).1⟩
  exact ⟨_, rfl, (same rfl rfl .empty []).1, rfl, (same rfl rfl _ _).2⟩

end ProbeCoverage.Flow
