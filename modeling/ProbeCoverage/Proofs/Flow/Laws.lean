import Mathlib.Algebra.Order.BigOperators.Group.List
import Mathlib.Algebra.Order.Group.Nat
import ProbeCoverage.Proofs.Flow.Account

/-!
The account of a history solves the rules. What holds of one evaluation of a node holds of the sums
over all of them, and these sums are what the rules speak about.
-/

namespace ProbeCoverage.Flow

open Cover

section Totals

variable {evaluations : List Evaluation} {number other : Evaluation → Nat}

theorem total_congr (same : ∀ e ∈ evaluations, number e = other e) :
    total evaluations number = total evaluations other := by
  unfold total
  rw [List.map_congr_left same]

theorem total_add :
    (total evaluations fun e => number e + other e) =
      total evaluations number + total evaluations other :=
  List.sum_map_add

theorem total_le (less : ∀ e ∈ evaluations, number e ≤ other e) :
    total evaluations number ≤ total evaluations other :=
  List.sum_le_sum less

theorem total_one : (total evaluations fun _ => 1) = evaluations.length := by
  simp [total]

theorem total_outcome (outcome : Outcome) :
    (total evaluations fun e => if e.outcome = outcome then 1 else 0) =
      evaluations.countP fun e => e.outcome = outcome := by
  induction evaluations with
  | nil => rfl
  | cons e rest ih =>
      rw [List.countP_cons, ← ih]
      simp [total, Nat.add_comm]

theorem total_passedOn (through : Evaluation → Covered → Nat) (nodes : List Covered) :
    (total evaluations fun e => passedOn (through e) (number e) nodes) =
      passedOn (fun node => total evaluations fun e => through e node) (total evaluations number)
        nodes := by
  unfold passedOn
  cases nodes.getLast? <;> rfl

theorem total_sum (through : Evaluation → Covered → Nat) (nodes : List Covered) :
    (total evaluations fun e => (nodes.map (through e)).sum) =
      (nodes.map fun node => total evaluations fun e => through e node).sum := by
  induction nodes with
  | nil => simp [total]
  | cons node rest ih =>
      simp only [List.map_cons, List.sum_cons, total_add, ih]

end Totals

section Laws

variable {tree : CoverTree} {ledger : Ledger} {log : List Evaluation}
variable (account : Account tree ledger log) (orderly : Orderly tree)
variable {above : Option Covered} {slot : Nat} {node kid : Covered}

include account

theorem Account.entries_eq (node : Covered) :
    ledger.entries node = total (evaluationsOf log node) fun _ => 1 := by
  rw [account.entries, total_one]

omit account in
theorem ended_eq (outcome : Outcome) (node : Covered) :
    ended log outcome node =
      total (evaluationsOf log node) fun e => if e.outcome = outcome then 1 else 0 :=
  (total_outcome outcome).symm

theorem Account.completions_parts (occurs : Occurs tree.root above slot node) :
    ledger.completions node =
      ended log .done node + if node.kind.isMatcher then ended log .passed node else 0 := by
  rw [account.completions occurs, ended, ended]
  induction evaluationsOf log node with
  | nil => simp
  | cons e rest ih =>
      simp only [List.countP_cons, ih]
      cases wraps : node.kind.isMatcher <;> cases e.outcome <;> simp [completes, wraps] <;> omega

theorem Account.completions_eq (occurs : Occurs tree.root above slot node)
    (plain : node.kind.isMatcher = false) : ledger.completions node = ended log .done node := by
  simp [account.completions_parts occurs, plain]

theorem Account.started (occurs : Occurs tree.root (some node) slot kid) :
    ledger.entries kid = total (evaluationsOf log node) fun e => startedIn e.steps kid := by
  have parts : ledger.entries kid =
      ended log .done kid + ended log .interrupted kid + ended log .passed kid := by
    rw [account.entries_eq, ended_eq, ended_eq, ended_eq, ← total_add, ← total_add]
    apply total_congr
    intro e _
    cases e.outcome <;> rfl
  rw [parts, account.endings occurs, account.endings occurs, account.endings occurs, ← total_add,
    ← total_add]
  apply total_congr
  intro e _
  exact (startedIn_eq kid e.steps).symm

theorem Account.completions_kid (occurs : Occurs tree.root (some node) slot kid)
    (plain : kid.kind.isMatcher = false) :
    ledger.completions kid =
      total (evaluationsOf log node) fun e => endedIn e.steps .done kid := by
  rw [account.completions_eq occurs plain, account.endings occurs]

theorem Account.hits_tell (occurs : Occurs tree.root above slot node) {tracker : Tracker}
    (owned : tracker ∈ node.kind.trackers) {outcome : Outcome}
    (each : ∀ e ∈ evaluationsOf log node,
      hitsIn e.steps tracker = if e.outcome = outcome then 1 else 0) :
    ledger.hitsOn node tracker = ended log outcome node := by
  rw [account.hitsOn occurs owned, ended_eq]
  exact total_congr each

theorem Account.interruption (grown : Grown tree) (occurs : Occurs tree.root above slot node) :
    ledger.Solves tree ⟨.interruption, node.number⟩ := by
  apply (solves_interruption grown occurs).mpr
  have parts := List.length_eq_countP_add_countP (l := evaluationsOf log node)
    fun e => completes node.kind e.outcome
  simp only [Bool.not_eq_true, Bool.decide_eq_false] at parts
  rw [account.entries, account.completions occurs, account.interruptions occurs]
  omega

section Rows

variable (known : verdicts node.kind ≠ [])

include known

omit account in
theorem inRow_of_known : inRow node.kind = true ∧ node.kind ≠ .whenClause ∧
    node.kind ∉ [Kind.multipleAssignment, .targetList, .splatTarget] := by
  cases kind : node.kind <;> simp_all [verdicts, inRow]

include orderly

theorem Account.passed_inRow (occurs : Occurs tree.root above slot node) {nodes : List Covered}
    (inside : ∀ kid ∈ nodes, kid ∈ node.kids) (number : Evaluation → Nat)
    (each : ∀ e ∈ evaluationsOf log node, number e = passedOn (endedIn e.steps .done) 1 nodes) :
    total (evaluationsOf log node) number =
      passedOn ledger.completions (ledger.entries node) nodes := by
  rw [total_congr each, total_passedOn, ← account.entries_eq]
  apply passedOn_congr _ rfl
  intro kid member
  obtain ⟨place, held⟩ := Covered.mem_kids.mp (inside kid member)
  have stands : Occurs tree.root (some node) place kid := .child place occurs held
  exact (account.completions_kid stands
    (plain_kid orderly.grown stands (inRow_of_known known).2.1)).symm

theorem Account.entry_inRow (occurs : Occurs tree.root (some node) slot kid) :
    ledger.Solves tree ⟨.entry, kid.number⟩ := by
  have grown := orderly.grown
  obtain ⟨⟨_, _, parentOccurs⟩, held⟩ := occurs.parent
  obtain ⟨row, _, ordinary⟩ := inRow_of_known known
  have forward := forward_kid grown orderly.targets occurs ordinary
  have distinct := grown.numbered.kids_nodup parentOccurs
  apply (solves_entry_inRow grown occurs forward row).mpr
  rw [account.started occurs, Ledger.reached]
  apply account.passed_inRow orderly known parentOccurs
  · exact fun earlier member => Covered.kidsBefore_subset member
  · intro e member
    exact ((account.behaves parentOccurs e member).evaluates known).started distinct
      (Covered.kids_split held)

theorem Account.completion_chain (occurs : Occurs tree.root above slot node)
    (chain : verdicts node.kind = [([], .done)]) :
    ledger.Solves tree ⟨.completion, node.number⟩ := by
  have grown := orderly.grown
  have kind : node.kind.completion = .chain ∧ node.kind.isMatcher = false := by
    cases kind : node.kind <;> simp [kind, verdicts] at chain <;> exact ⟨rfl, rfl⟩
  apply (solves_completion_chain grown occurs kind.1).mpr
  rw [account.completions_eq occurs kind.2, ended_eq]
  apply account.passed_inRow orderly known occurs fun _ member => member
  intro e member
  exact ((account.behaves occurs e member).evaluates known).finished
    (grown.numbered.kids_nodup occurs) chain

omit known in
theorem Account.ended_childless (occurs : Occurs tree.root above slot node)
    (chain : verdicts node.kind = [([], .done)]) (childless : node.kids = []) :
    ended log .done node = ledger.entries node := by
  rw [ended_eq, account.entries_eq]
  apply total_congr
  intro e member
  have evaluates := (account.behaves occurs e member).evaluates (by simp [chain])
  rw [evaluates.finished (orderly.grown.numbered.kids_nodup occurs) chain, childless, passedOn_nil]

theorem Account.completion_counted (occurs : Occurs tree.root above slot node)
    (counted : node.kind.completion = .counted .completion) :
    ledger.Solves tree ⟨.completion, node.number⟩ := by
  have kind : node.kind = .constant ∨ node.kind = .call := by
    cases kind : node.kind <;> simp_all [verdicts, Kind.completion]
  apply (solves_completion_counted orderly.grown occurs counted).mpr
  rw [account.completions_eq occurs
    (by rcases kind with same | same <;> simp [same, Kind.isMatcher])]
  symm
  apply account.hits_tell occurs (by rcases kind with same | same <;> simp [same, Kind.trackers])
  intro e member
  apply ((account.behaves occurs e member).evaluates known).told (by simp)
  rcases kind with same | same <;> simp [same, verdicts]

end Rows

section Tests

variable (wraps : node.kind.isMatcher = true)

include wraps

theorem Account.hits_test (occurs : Occurs tree.root above slot node) {tracker : Tracker}
    {outcome : Outcome} (tells : tracker = .matched ∧ outcome = .done ∨
      tracker = .missed ∧ outcome = .passed) :
    ledger.hitsOn node tracker = ended log outcome node := by
  have kind : node.kind = .matcher ∨ node.kind = .splatMatcher := by
    cases kind : node.kind <;> simp_all [Kind.isMatcher]
  have known : verdicts node.kind = verdicts .matcher := by
    rcases kind with same | same
    · rw [same]
    · rw [same]
      rfl
  have owned : tracker ∈ node.kind.trackers := by
    rcases tells with ⟨rfl, _⟩ | ⟨rfl, _⟩ <;> simp [tracker_of_isMatcher wraps]
  apply account.hits_tell occurs owned
  intro e member
  apply ((account.behaves occurs e member).evaluates (by rw [known]; simp [verdicts])).told
  · rcases tells with ⟨_, rfl⟩ | ⟨_, rfl⟩ <;> simp
  · rw [known]
    rcases tells with ⟨rfl, rfl⟩ | ⟨rfl, rfl⟩ <;> simp [verdicts]

theorem Account.completion_test (grown : Grown tree) (occurs : Occurs tree.root above slot node) :
    ledger.Solves tree ⟨.completion, node.number⟩ := by
  apply (solves_completion_test grown occurs wraps).mpr
  rw [account.hits_test wraps occurs (.inl ⟨rfl, rfl⟩),
    account.hits_test wraps occurs (.inr ⟨rfl, rfl⟩), account.completions_parts occurs,
    if_pos wraps, account.add_eq]

end Tests

section Programs

variable (wrapper : node.kind = .root)

include wrapper

theorem Account.hits_root (occurs : Occurs tree.root above slot node) :
    ledger.hitsOn node .root = ledger.entries node := by
  rw [account.hitsOn occurs (by simp [wrapper, Kind.trackers]), account.entries_eq]
  apply total_congr
  intro e member
  have behaves := account.behaves occurs e member
  simp only [Behaves, wrapper] at behaves
  obtain ⟨_, _, hit, _⟩ := behaves.counts
  exact hit

theorem Account.entry_program (orderly : Orderly tree)
    (occurs : Occurs tree.root (some node) slot kid) :
    ledger.Solves tree ⟨.entry, kid.number⟩ := by
  have grown := orderly.grown
  obtain ⟨⟨_, _, parentOccurs⟩, held⟩ := occurs.parent
  have forward := forward_kid grown orderly.targets occurs (by simp [wrapper])
  apply (solves_entry_of_root grown occurs forward wrapper).mpr
  rw [account.untold, Option.getD_none, account.hits_root wrapper parentOccurs,
    account.entries_eq node, account.started occurs]
  have first : slot = 0 := by
    have bound := Covered.slot_lt held
    rw [(grown.regular _ _ _ parentOccurs).length_eq (by rw [wrapper]; rfl)] at bound
    omega
  apply total_congr
  intro e member
  have behaves := account.behaves parentOccurs e member
  simp only [Behaves, wrapper] at behaves
  obtain ⟨program, stands, _, started, _⟩ := behaves.counts
  obtain rfl := Option.some.inj (stands.symm.trans (first ▸ held))
  exact started

theorem Account.completion_program (orderly : Orderly tree)
    (occurs : Occurs tree.root above slot node) :
    ledger.Solves tree ⟨.completion, node.number⟩ := by
  have grown := orderly.grown
  apply (solves_completion_chain grown occurs (by simp [wrapper, Kind.completion])).mpr
  have kids : node.kids = (node.kid? 0).toList := by
    have single : node.branches.length = 1 :=
      (grown.regular _ _ _ occurs).length_eq (by rw [wrapper]; rfl)
    obtain ⟨branch, only⟩ := List.length_eq_one_iff.mp single
    rw [Covered.kids, Covered.kid?, only]
    cases branch <;> rfl
  have starts (e : Evaluation) (member : e ∈ evaluationsOf log node) :
      Starts node e.steps e.outcome := by
    have behaves := account.behaves occurs e member
    simpa only [Behaves, wrapper] using behaves
  rw [account.completions_eq occurs (by simp [wrapper, Kind.isMatcher]), ended_eq, kids]
  cases first : node.kid? 0 with
  | none =>
      -- a run needs a program, so nothing was evaluated
      rw [Option.toList_none, passedOn_nil, account.entries_eq]
      apply total_congr
      intro e member
      obtain ⟨program, stands, _⟩ := (starts e member).counts
      simp [first] at stands
  | some program =>
      have stands : Occurs tree.root (some node) 0 program := .child 0 occurs first
      rw [Option.toList_some, passedOn_singleton,
        account.completions_kid stands (plain_kid grown stands (by simp [wrapper]))]
      apply total_congr
      intro e member
      obtain ⟨found, again, _, _, ends⟩ := (starts e member).counts
      obtain rfl := Option.some.inj (first.symm.trans again)
      exact ends

end Programs

section Operands

variable (kind : node.kind = .shortCircuit)

include kind orderly

theorem Account.operands (occurs : Occurs tree.root above slot node) :
    ∃ left right, node.kid? 0 = some left ∧ node.kid? 1 = some right ∧
      ledger.entries left = ledger.entries node ∧
      ledger.entries right = ledger.hitsOn node .rightOperand ∧
      ledger.entries right ≤ ledger.completions left ∧
      ledger.completions node + ledger.entries right =
        ledger.completions left + ledger.completions right := by
  have grown := orderly.grown
  obtain ⟨left, first⟩ :=
    slot_filled orderly.filled occurs 0 (by simp [kind, CoverTree.neededSlots])
  obtain ⟨right, second⟩ :=
    slot_filled orderly.filled occurs 1 (by simp [kind, CoverTree.neededSlots])
  have leftOccurs : Occurs tree.root (some node) 0 left := .child 0 occurs first
  have rightOccurs : Occurs tree.root (some node) 1 right := .child 1 occurs second
  have ordinary : node.kind ≠ .whenClause := by simp [kind]
  have counts (e : Evaluation) (member : e ∈ evaluationsOf log node) := by
    have behaves := account.behaves occurs e member
    simp only [Behaves, kind] at behaves
    exact behaves.counts first second (grown.kid_ne occurs first second (by simp))
  refine ⟨left, right, first, second, ?_⟩
  rw [account.started leftOccurs, account.started rightOccurs, account.entries_eq,
    account.hitsOn occurs (by simp [kind, Kind.trackers]),
    account.completions_kid leftOccurs (plain_kid grown leftOccurs ordinary),
    account.completions_kid rightOccurs (plain_kid grown rightOccurs ordinary),
    account.completions_eq occurs (by simp [kind, Kind.isMatcher]), ended_eq, ← total_add,
    ← total_add]
  exact ⟨total_congr fun e member => (counts e member).1,
    total_congr fun e member => (counts e member).2.1,
    total_le fun e member => (counts e member).2.2.1,
    total_congr fun e member => (counts e member).2.2.2⟩

theorem Account.entry_operand (occurs : Occurs tree.root (some node) slot kid) :
    ledger.Solves tree ⟨.entry, kid.number⟩ := by
  have grown := orderly.grown
  obtain ⟨⟨_, _, parentOccurs⟩, held⟩ := occurs.parent
  have forward := forward_kid grown orderly.targets occurs (by simp [kind])
  obtain ⟨left, right, first, second, enters, follows, _⟩ :=
    account.operands orderly kind parentOccurs
  have bound := Covered.slot_lt held
  rw [(grown.regular _ _ _ parentOccurs).length_eq (by rw [kind]; rfl)] at bound
  obtain rfl | rfl : slot = 0 ∨ slot = 1 := by omega
  · obtain rfl := Option.some.inj (first.symm.trans held)
    exact (solves_entry_first grown occurs forward (by rw [kind]; rfl) rfl).mpr enters
  · obtain rfl := Option.some.inj (second.symm.trans held)
    exact (solves_entry_later grown occurs forward (by rw [kind]; rfl) (by simp)).mpr follows

theorem Account.completion_operands (occurs : Occurs tree.root above slot node) :
    ledger.Solves tree ⟨.completion, node.number⟩ := by
  obtain ⟨left, right, first, second, _, _, enough, sum⟩ := account.operands orderly kind occurs
  apply (solves_completion_shortCircuit orderly.grown occurs kind first second).mpr
  rw [account.add_eq]
  omega

end Operands

section Branches

variable (kind : node.kind = .conditional)

include kind orderly

theorem Account.branches (occurs : Occurs tree.root above slot node) :
    ∃ condition yes no, node.kid? 0 = some condition ∧ node.kid? 1 = some yes ∧
      node.kid? 2 = some no ∧ ledger.entries condition = ledger.entries node ∧
      ledger.entries yes + ledger.entries no = ledger.completions condition ∧
      ledger.completions node = ledger.completions yes + ledger.completions no ∧
      (trackedBranch node.kind node.branches = some 1 →
        ledger.entries yes = ledger.hitsOn node .branch) ∧
      (trackedBranch node.kind node.branches = some 2 →
        ledger.entries no = ledger.hitsOn node .branch) ∧
      (trackedBranch node.kind node.branches = none → ledger.entries no = 0) := by
  have grown := orderly.grown
  have filled (place : Nat) (needed : place ∈ [0, 1, 2]) : ∃ kid, node.kid? place = some kid :=
    slot_filled orderly.filled occurs place (by simpa [kind, CoverTree.neededSlots] using needed)
  obtain ⟨condition, held⟩ := filled 0 (by simp)
  obtain ⟨yes, first⟩ := filled 1 (by simp)
  obtain ⟨no, second⟩ := filled 2 (by simp)
  have ordinary : node.kind ≠ .whenClause := by simp [kind]
  have conditionOccurs : Occurs tree.root (some node) 0 condition := .child 0 occurs held
  have yesOccurs : Occurs tree.root (some node) 1 yes := .child 1 occurs first
  have noOccurs : Occurs tree.root (some node) 2 no := .child 2 occurs second
  have apart : [condition.number, yes.number, no.number].Nodup := by
    simp [grown.kid_ne occurs held first (by simp), grown.kid_ne occurs held second (by simp),
      grown.kid_ne occurs first second (by simp)]
  have counts (e : Evaluation) (member : e ∈ evaluationsOf log node) := by
    have behaves := account.behaves occurs e member
    simp only [Behaves, kind] at behaves
    exact behaves.counts held first second apart
  refine ⟨condition, yes, no, held, first, second, ?_⟩
  rw [account.started conditionOccurs, account.started yesOccurs, account.started noOccurs,
    account.entries_eq, account.hitsOn occurs (by simp [kind, Kind.trackers]),
    account.completions_kid conditionOccurs (plain_kid grown conditionOccurs ordinary),
    account.completions_kid yesOccurs (plain_kid grown yesOccurs ordinary),
    account.completions_kid noOccurs (plain_kid grown noOccurs ordinary),
    account.completions_eq occurs (by simp [kind, Kind.isMatcher]), ended_eq, ← total_add,
    ← total_add]
  refine ⟨total_congr fun e member => (counts e member).1,
    total_congr fun e member => (counts e member).2.1,
    total_congr fun e member => (counts e member).2.2.1, ?_, ?_, ?_⟩
  · intro tracked
    exact total_congr fun e member => (counts e member).2.2.2.1 tracked
  · intro tracked
    exact total_congr fun e member => (counts e member).2.2.2.2.1 tracked
  · intro untracked
    rw [total_congr fun e member => (counts e member).2.2.2.2.2 untracked]
    simp [total]

theorem Account.entry_branch (occurs : Occurs tree.root (some node) slot kid) :
    ledger.Solves tree ⟨.entry, kid.number⟩ := by
  have grown := orderly.grown
  obtain ⟨⟨_, _, parentOccurs⟩, held⟩ := occurs.parent
  have forward := forward_kid grown orderly.targets occurs (by simp [kind])
  obtain ⟨condition, yes, no, stands, first, second, enters, share, _, taken, other, neither⟩ :=
    account.branches orderly kind parentOccurs
  have bound := Covered.slot_lt held
  rw [(grown.regular _ _ _ parentOccurs).length_eq (by rw [kind]; rfl)] at bound
  obtain rfl | rfl | rfl : slot = 0 ∨ slot = 1 ∨ slot = 2 := by omega
  · obtain rfl := Option.some.inj (stands.symm.trans held)
    exact (solves_entry_first grown occurs forward (by rw [kind]; rfl) rfl).mpr enters
  · obtain rfl := Option.some.inj (first.symm.trans held)
    apply (solves_entry_branch grown occurs forward kind (by simp) stands).mpr
    unfold Ledger.BranchLaw
    cases found : trackedBranch node.kind node.branches with
    | none =>
        have nothing := neither found
        simp only [if_true]
        omega
    | some tracked =>
        rcases trackedBranch_cases found with rfl | rfl
        · simpa using taken found
        · have rest := other found
          simp only [show (2 : Nat) ≠ 1 by simp, if_false]
          omega
  · obtain rfl := Option.some.inj (second.symm.trans held)
    apply (solves_entry_branch grown occurs forward kind (by simp) stands).mpr
    unfold Ledger.BranchLaw
    cases found : trackedBranch node.kind node.branches with
    | none => simpa using neither found
    | some tracked =>
        rcases trackedBranch_cases found with rfl | rfl
        · have rest := taken found
          simp only [show (1 : Nat) ≠ 2 by simp, if_false]
          omega
        · simpa using other found

theorem Account.completion_branches (occurs : Occurs tree.root above slot node) :
    ledger.Solves tree ⟨.completion, node.number⟩ := by
  obtain ⟨_, yes, no, _, first, second, _, _, sum, _⟩ := account.branches orderly kind occurs
  apply (solves_completion_conditional orderly.grown occurs kind first second).mpr
  rw [account.add_eq, sum]

end Branches

end Laws

end ProbeCoverage.Flow
