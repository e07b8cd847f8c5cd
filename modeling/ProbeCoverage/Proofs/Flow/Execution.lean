import ProbeCoverage.Proofs.Flow.Conservation

/-!
Executions between completions and entries. When a node's own code counts as run is said by rules
that are kept apart from those of entries and completions: at the entry, behind the children, at the
completion, or at a point of the kind's own. Where the counts of all nodes are known, the code of a
node still runs no more often than the node is entered. Constructs whose point is a test in front of
everything else run at least as often as they complete. For a `when`, and for the dispatch around
it, this hangs on the outcomes of each test: where they do not fit a word, the bounds can fail.
-/

namespace ProbeCoverage.Flow

open Cover

def Ledger.executions (ledger : Ledger) (node : Covered) : Nat :=
  ledger.value ⟨.execution, node.number⟩

section Equations

variable {ledger : Ledger} {tree : CoverTree} {node kid : Covered}
variable {above : Option Covered} {slot : Nat}

theorem eval_withChild_completion (owner : Option Nat) (place index : Nat) (role : Role)
    (count : Nat) :
    ledger.eval (withChild (node.cell owner place) index role completionOf) = .ok count ↔
      ∃ kid, node.kid? index = some kid ∧ count = ledger.completions kid := by
  rw [withChild, Covered.cell_child?]
  cases held : node.kid? index with
  | none => simp [Ledger.eval, Formula.eval]
  | some kid =>
      simp only [Option.map_some, Option.some.injEq, exists_eq_left']
      exact Ledger.ok_iff

variable (grown : Grown tree) (occurs : Occurs tree.root above slot node)

include grown occurs

theorem solves_execution_onEntry (early : node.kind.execution = .onEntry) :
    ledger.Solves tree ⟨.execution, node.number⟩ ↔
      ledger.executions node = ledger.entries node := by
  rw [Ledger.Solves, rule_execution grown occurs]
  simp only [executionRule, Covered.cell_kind, early, Covered.cell_number]
  exact Ledger.ok_iff

theorem solves_execution_onCompletion (late : node.kind.execution = .onCompletion) :
    ledger.Solves tree ⟨.execution, node.number⟩ ↔
      ledger.executions node = ledger.completions node := by
  rw [Ledger.Solves, rule_execution grown occurs]
  simp only [executionRule, Covered.cell_kind, late, Covered.cell_number]
  exact Ledger.ok_iff

theorem solves_execution_afterChildren (behind : node.kind.execution = .afterChildren) :
    ledger.Solves tree ⟨.execution, node.number⟩ ↔
      ledger.executions node = passedOn ledger.completions (ledger.entries node) node.kids := by
  have single : node.kind ≠ .multipleAssignment := by
    intro same
    simp [same, Kind.execution] at behind
  rw [Ledger.Solves, rule_execution grown occurs]
  simp only [executionRule, Covered.cell_kind, behind, lastCompletion, Covered.cell_number,
    grown.numbered.lastInFlow?_of_occurs occurs, Covered.flowKids, if_neg single, passedOn]
  cases node.kids.getLast? <;> exact Ledger.ok_iff

theorem solves_execution_first
    (kind : node.kind = .shortCircuit ∨ node.kind = .conditional ∨ node.kind = .guarded) :
    ledger.Solves tree ⟨.execution, node.number⟩ ↔
      ∃ first, node.kid? 0 = some first ∧ ledger.executions node = ledger.completions first := by
  rw [Ledger.Solves, rule_execution grown occurs]
  rcases kind with kind | kind | kind <;>
    · simp only [executionRule, Covered.cell_kind, kind, Kind.execution, structuralExecution]
      apply eval_withChild_completion

theorem solves_execution_dispatch (kind : node.kind = .caseDispatch) :
    ledger.Solves tree ⟨.execution, node.number⟩ ↔
      ledger.executions node = ledger.tried node := by
  rw [Ledger.Solves, rule_execution grown occurs]
  simp only [executionRule, Covered.cell_kind, kind, Kind.execution, structuralExecution,
    Covered.cell_child?, Covered.cell_number, Ledger.tried]
  cases node.kid? 0 <;> exact Ledger.ok_iff

theorem solves_execution_clause (kind : node.kind = .whenClause) :
    ledger.Solves tree ⟨.execution, node.number⟩ ↔
      ledger.executions node =
        ledger.arithmetic.add (ledger.matched node) (ledger.passed node) := by
  rw [Ledger.Solves, rule_execution grown occurs]
  simp only [executionRule, Covered.cell_kind, kind, Kind.execution, structuralExecution]
  rw [eval_whenTested grown occurs]
  exact Ledger.ok_iff

theorem solves_execution_assignment (kind : node.kind = .multipleAssignment) :
    ledger.Solves tree ⟨.execution, node.number⟩ ↔
      ∃ value, node.kid? 1 = some value ∧
        ledger.executions node = ledger.completions value := by
  rw [Ledger.Solves, rule_execution grown occurs]
  simp only [executionRule, Covered.cell_kind, kind, Kind.execution, structuralExecution]
  apply eval_withChild_completion

omit occurs in
theorem solves_entry_value (occurs : Occurs tree.root (some node) 1 kid)
    (forward : kid.kind.propagation = .forward) (kind : node.kind = .multipleAssignment) :
    ledger.Solves tree ⟨.entry, kid.number⟩ ↔ ledger.entries kid = ledger.entries node := by
  obtain ⟨⟨higher, place, parentOccurs⟩, _⟩ := occurs.parent
  have last : node.kidsAfter 1 = [] := by
    have length : node.branches.length = 2 :=
      (grown.regular _ _ _ parentOccurs).length_eq (by rw [kind]; rfl)
    rw [Covered.kidsAfter, List.drop_eq_nil_of_le (by omega), List.filterMap_nil]
  rw [solves_entry grown occurs parentOccurs forward]
  simp only [childEntry, Covered.cell_kind, kind, forwardEntry, Covered.cell_number,
    grown.numbered.previousInFlow?_of_occurs occurs, if_true, last, List.head?_nil,
    Option.map_none]
  exact Ledger.ok_iff

end Equations

/-- Kinds whose nodes run their own code in front of everything that can complete them. -/
def runsFirst : Kind → Bool
  | .conditional | .shortCircuit | .caseDispatch | .whenClause | .method => true
  | _ => false

section Bounds

variable {ledger : Ledger} {tree : CoverTree} {node kid : Covered}
variable {above : Option Covered} {slot : Nat}

theorem inRow_of_afterChildren {kind : Kind} (behind : kind.execution = .afterChildren) :
    inRow kind = true ∧ kind ∉ [Kind.multipleAssignment, .targetList, .splatTarget] := by
  cases kind <;> simp_all [Kind.execution, inRow]

theorem execution_of_chain {kind : Kind} (chain : kind.completion = .chain) :
    kind.execution = .onEntry ∨ kind.execution = .afterChildren := by
  cases kind <;> simp_all [Kind.completion, Kind.execution]

theorem entersFirst_of_first {kind : Kind}
    (first : kind = .shortCircuit ∨ kind = .conditional ∨ kind = .guarded) :
    entersFirst kind = true := by
  rcases first with rfl | rfl | rfl <;> rfl

theorem kind_of_structural {kind : Kind} (own : kind.execution = .structural)
    (noHandler : kind ≠ .handler) :
    (kind = .shortCircuit ∨ kind = .conditional ∨ kind = .guarded) ∨ kind = .caseDispatch ∨
      kind = .whenClause ∨ kind = .multipleAssignment := by
  cases kind <;> simp_all [Kind.execution]

variable (orderly : Orderly tree) (balanced : Balanced ledger tree)
variable (occurs : Occurs tree.root above slot node)

include orderly balanced occurs

theorem entries_first (enters : entersFirst node.kind = true) (held : node.kid? 0 = some kid) :
    ledger.entries kid = ledger.entries node := by
  have stands : Occurs tree.root (some node) 0 kid := .child 0 occurs held
  have forward : kid.kind.propagation = .forward := by
    apply forward_kid orderly.grown orderly.targets stands
    cases kind : node.kind <;> simp [kind, entersFirst] at enters ⊢
  exact (solves_entry_first orderly.grown stands forward enters rfl).mp (balanced.entry stands)

/-- A child that is entered with the node completes no more often than the node is entered, and at
least as often as the node completes when no interruption of the child is made good. -/
theorem completions_first (enters : entersFirst node.kind = true) (held : node.kid? 0 = some kid) :
    ledger.completions kid ≤ ledger.entries node ∧
      (ledger.interruptions kid ≤ ledger.interruptions node →
        ledger.completions node ≤ ledger.completions kid) := by
  have grown := orderly.grown
  have entered := entries_first orderly balanced occurs enters held
  have whole := balanced.ends grown occurs
  have ends := balanced.ends grown (.child 0 occurs held)
  constructor
  · omega
  · intro kept
    omega

theorem completions_value_le (assigns : node.kind = .multipleAssignment)
    (held : node.kid? 1 = some kid) : ledger.completions kid ≤ ledger.entries node := by
  have grown := orderly.grown
  have stands : Occurs tree.root (some node) 1 kid := .child 1 occurs held
  have forward : kid.kind.propagation = .forward := by
    cases way : kid.kind.propagation with
    | forward => rfl
    | alternate =>
        obtain ⟨parent, same, place⟩ := parent_of_alternate grown orderly.targets stands way
        obtain rfl : node = parent := by simpa using same
        simp [assigns] at place
  have entered : ledger.entries kid = ledger.entries node :=
    (solves_entry_value grown stands forward assigns).mp (balanced.entry stands)
  have ends := balanced.ends grown stands
  omega

theorem passedOn_kids_le (row : inRow node.kind = true)
    (noTargets : node.kind ∉ [Kind.multipleAssignment, .targetList, .splatTarget]) :
    passedOn ledger.completions (ledger.entries node) node.kids ≤ ledger.entries node := by
  have grown := orderly.grown
  have parts := balanced.row_parts grown occurs (by
    intro place kid held
    have stands : Occurs tree.root (some node) place kid := .child place occurs held
    have forward := forward_kid grown orderly.targets stands noTargets
    exact (solves_entry_inRow grown stands forward row).mp (balanced.entry stands))
  omega

theorem add_matched_passed (held : ledger.Held) (clause : node.kind = .whenClause) :
    ledger.arithmetic.add (ledger.matched node) (ledger.passed node) =
      ledger.matched node + ledger.passed node := by
  obtain ⟨parent, rfl, dispatch⟩ := parent_of_clause orderly.grown orderly.clauses occurs clause
  obtain ⟨⟨_, _, parentOccurs⟩, stands⟩ := occurs.parent
  have member : node ∈ parent.clauses :=
    List.mem_filter.mpr ⟨Covered.mem_kids.mpr ⟨slot, stands⟩, by simpa using clause⟩
  exact Arithmetic.keep_of_holds
    (clause_checked orderly balanced held parentOccurs dispatch member)

variable (executed : ledger.Solves tree ⟨.execution, node.number⟩)

include executed

theorem completions_le_first
    (kind : node.kind = .shortCircuit ∨ node.kind = .conditional ∨ node.kind = .guarded)
    (stands : node.kid? 0 = some kid)
    (kept : ledger.interruptions kid ≤ ledger.interruptions node) :
    ledger.completions node ≤ ledger.executions node := by
  obtain ⟨first, same, runs⟩ := (solves_execution_first orderly.grown occurs kind).mp executed
  obtain rfl : kid = first := by simpa [stands] using same
  rw [runs]
  exact (completions_first orderly balanced occurs (entersFirst_of_first kind) stands).2 kept

variable (held : ledger.Held)

include held

-- by the point at which the kind's own code counts as run
theorem executions_le_entries (noHandler : node.kind ≠ .handler)
    (tallied : node.kind = .whenClause → ledger.Tallied 0 node.tests) :
    ledger.executions node ≤ ledger.entries node := by
  have grown := orderly.grown
  cases point : node.kind.execution with
  | onEntry =>
      rw [(solves_execution_onEntry grown occurs point).mp executed]
  | onCompletion =>
      have ends := balanced.ends grown occurs
      rw [(solves_execution_onCompletion grown occurs point).mp executed]
      omega
  | afterChildren =>
      obtain ⟨row, noTargets⟩ := inRow_of_afterChildren point
      rw [(solves_execution_afterChildren grown occurs point).mp executed]
      exact passedOn_kids_le orderly balanced occurs row noTargets
  | structural =>
      rcases kind_of_structural point noHandler with first | dispatch | clause | assigns
      · obtain ⟨kid, stands, same⟩ := (solves_execution_first grown occurs first).mp executed
        rw [same]
        exact (completions_first orderly balanced occurs (entersFirst_of_first first) stands).1
      · have subject := dispatch_subject orderly balanced occurs dispatch
        rw [(solves_execution_dispatch grown occurs dispatch).mp executed]
        omega
      · -- no test wrapped around, so matches and passes together are at most the entries
        have exact := tallied clause
        rw [(solves_execution_clause grown occurs clause).mp executed,
          add_matched_passed orderly balanced occurs held clause,
          matched_exact grown occurs clause balanced held exact]
        exact clause_bound grown occurs clause balanced exact
      · obtain ⟨value, stands, same⟩ :=
          (solves_execution_assignment grown occurs assigns).mp executed
        rw [same]
        exact completions_value_le orderly balanced occurs assigns stands

/-- A node that runs first, or that completes with its last child, runs its own code at least as
often as it completes. -/
theorem completions_le_executions
    (kind : runsFirst node.kind = true ∨ node.kind.completion = .chain)
    (tallied : node.kind = .caseDispatch →
      ledger.Tallied 0 (node.clauses.flatMap Covered.tests)) :
    ledger.completions node ≤ ledger.executions node := by
  have grown := orderly.grown
  have whole := balanced.ends grown occurs
  rcases kind with own | chain
  · have kinds : (node.kind = .conditional ∨ node.kind = .shortCircuit) ∨
        node.kind = .caseDispatch ∨ node.kind = .whenClause ∨ node.kind = .method := by
      cases same : node.kind <;> simp [same, runsFirst] at own ⊢
    rcases kinds with (kind | kind) | kind | kind | kind
    · obtain ⟨condition, yes, no, stands, _, _, parts⟩ :=
        interruptions_of_conditional orderly balanced held occurs kind
      exact completions_le_first orderly balanced occurs executed (.inr (.inl kind)) stands
        (by omega)
    · obtain ⟨left, right, stands, _, parts⟩ :=
        interruptions_of_shortCircuit orderly balanced held occurs kind
      exact completions_le_first orderly balanced occurs executed (.inl kind) stands (by omega)
    · -- what got past the subject is told by the account of the whole dispatch
      obtain ⟨last, stands, _, kids, later, _⟩ := middle_kids orderly occurs (.inl ⟨kind, rfl⟩)
      have parts := (dispatched_exact orderly balanced held occurs kind stands kids later
        (tallied kind)).interrupted
      have subject := dispatch_subject orderly balanced occurs kind
      rw [(solves_execution_dispatch grown occurs kind).mp executed]
      omega
    · obtain ⟨body, _, matched, completed, ends⟩ := clause_body orderly balanced occurs kind
      rw [(solves_execution_clause grown occurs kind).mp executed,
        add_matched_passed orderly balanced occurs held kind]
      omega
    · rw [(solves_execution_onEntry grown occurs (by rw [kind]; rfl)).mp executed]
      omega
  · rcases execution_of_chain chain with early | behind
    · rw [(solves_execution_onEntry grown occurs early).mp executed]
      omega
    · rw [(solves_execution_afterChildren grown occurs behind).mp executed,
        (solves_completion_chain grown occurs chain).mp (balanced.completion occurs)]

end Bounds

theorem Answers.execution_of_unexecuted {answers : Answers} {kind : Kind}
    (unexecuted : answers.wasExecuted kind = .ok (some false)) : answers.execution = .ok 0 := by
  unfold Answers.wasExecuted at unexecuted
  split at unexecuted
  · cases ran : answers.execution with
    | error error => simp [ran] at unexecuted
    | ok count => simpa [ran] using unexecuted
  · simp at unexecuted

/-- The tests on whose outcomes the executions of a node, or its completions, hang. -/
def testsUnder (tree : CoverTree) (cell : Cell) : List Nat :=
  match cell.kind with
  | .whenClause => matchers tree cell
  | .caseDispatch => clauseTests tree cell
  | _ => []

def View.TestsFit (view : View) (cell : Cell) : Prop :=
  ∀ test ∈ testsUnder view.tree cell, view.arithmetic.Holds (view.outcomes test)

instance (view : View) (cell : Cell) : Decidable (view.TestsFit cell) :=
  List.decidableBAll (fun test => view.arithmetic.Holds (view.outcomes test)) _

section Fitting

variable {view : View} {node : Covered} {above : Option Covered} {slot : Nat}
variable (grown : Grown view.tree) (balanced : Balanced view.ledger view.tree)
variable (occurs : Occurs view.tree.root above slot node)
variable (fit : view.TestsFit (node.cell (above.map Covered.number) slot))

include grown balanced occurs fit

theorem tallied_clause (clause : node.kind = .whenClause) : view.ledger.Tallied 0 node.tests := by
  apply tallied_of_holds grown balanced occurs
  intro test member
  apply fit
  simp only [testsUnder, Covered.cell_kind, clause]
  rw [matchers_of_occurs grown occurs]
  exact List.mem_map_of_mem member

theorem tallied_dispatch (dispatch : node.kind = .caseDispatch) :
    view.ledger.Tallied 0 (node.clauses.flatMap Covered.tests) := by
  apply tallied_clauses grown balanced occurs
  intro test member
  apply fit
  simpa only [testsUnder, Covered.cell_kind, dispatch] using member

end Fitting

end ProbeCoverage.Flow
