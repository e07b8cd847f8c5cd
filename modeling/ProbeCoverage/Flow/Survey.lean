import ProbeCoverage.Flow.Derive

/-!
Asking for counts. Each count can be derived from scratch. A view that is asked several times
remembers entries and completions, and all counts of all nodes of a tree are asked for in this way.
-/

namespace ProbeCoverage.Flow

open Cover (CoverTree Kind)

structure Counts where
  runs : Nat
  fullRuns : Nat
  interrupts : Nat
  deriving DecidableEq, Repr

structure Answers where
  entry : Except Error Nat
  completion : Except Error Nat
  interruption : Except Error Nat
  execution : Except Error Nat

namespace Answers

def counts (answers : Answers) : Except Error Counts :=
  match answers.entry, answers.completion, answers.interruption with
  | .ok runs, .ok fullRuns, .ok interrupts => .ok { runs, fullRuns, interrupts }
  | .error error, _, _ => .error error
  | _, .error error, _ => .error error
  | _, _, .error error => .error error

def wasExecuted (answers : Answers) (kind : Kind) : Except Error (Option Bool) :=
  if kind.isExecutable then
    match answers.execution with
    | .ok count => .ok (some (0 < count))
    | .error error => .error error
  else .ok none

end Answers

namespace View

def answers (view : View) (node : Nat) : Answers :=
  { entry := view.entry node, completion := view.completion node
    interruption := view.interruption node, execution := view.execution node }

end View

inductive Question where
  | count (query : Query)
  | executed (node : Nat)
  | counts (node : Nat)
  deriving DecidableEq, Repr

inductive Reply where
  | count (count : Nat)
  | executed (executed : Option Bool)
  | counts (counts : Counts)
  deriving DecidableEq, Repr

/-- A view together with the counts derived on the way to earlier answers, also to those that
failed. -/
structure Recall where
  view : View
  memo : Memo

namespace Recall

def fresh (view : View) : Recall :=
  ⟨view, .empty view.tree.size⟩

def count : Recall → Query → Except Error Nat × Recall
  | ⟨view, memo⟩, query =>
      let (answer, memo) := view.remember query memo
      (answer, ⟨view, memo⟩)

def executed (memory : Recall) (node : Nat) : Except Error (Option Bool) × Recall :=
  match memory.view.tree.kind? node with
  | none => (.error (.unknownNode node), memory)
  | some kind =>
      if kind.isExecutable then
        match memory.count ⟨.execution, node⟩ with
        | (.ok count, memory) => (.ok (some (0 < count)), memory)
        | (.error error, memory) => (.error error, memory)
      else (.ok none, memory)

def counts (memory : Recall) (node : Nat) : Except Error Counts × Recall :=
  match memory.count ⟨.entry, node⟩ with
  | (.error error, memory) => (.error error, memory)
  | (.ok runs, memory) =>
      match memory.count ⟨.completion, node⟩ with
      | (.error error, memory) => (.error error, memory)
      | (.ok fullRuns, memory) =>
          match memory.count ⟨.interruption, node⟩ with
          | (.error error, memory) => (.error error, memory)
          | (.ok interrupts, memory) => (.ok { runs, fullRuns, interrupts }, memory)

def ask (memory : Recall) : Question → Except Error Reply × Recall
  | .count query =>
      let (answer, memory) := memory.count query
      (answer.map .count, memory)
  | .executed node =>
      let (answer, memory) := memory.executed node
      (answer.map .executed, memory)
  | .counts node =>
      let (answer, memory) := memory.counts node
      (answer.map .counts, memory)

/-- Tell how often the tree was entered. All counts may change, so they are forgotten. -/
def tell : Recall → Nat → Recall
  | ⟨view, memo⟩, runs => ⟨{ view with told := some runs }, memo.clear⟩

def answersFor (memory : Recall) : List Nat → List Answers
  | [] => []
  | node :: rest =>
      let (entry, memory) := memory.count ⟨.entry, node⟩
      let (completion, memory) := memory.count ⟨.completion, node⟩
      let (interruption, memory) := memory.count ⟨.interruption, node⟩
      let (execution, memory) := memory.count ⟨.execution, node⟩
      { entry, completion, interruption, execution } :: memory.answersFor rest

end Recall

def View.survey (view : View) : List Answers :=
  (Recall.fresh view).answersFor view.tree.ids

end ProbeCoverage.Flow
