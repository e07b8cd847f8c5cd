import Mathlib.Algebra.BigOperators.Group.List.Basic
import ProbeCoverage.Proofs.Flow.Ledger

/-!
Interruptions are conserved. Where the counts of all nodes are known, an interruption of a node is
an interruption of one of the nodes below it: no entry is lost between a node and its children. The
argument is the same wherever control passes along a row: what comes in at the front goes out at the
end, less what each node of the row keeps. Children of a sequence keep their interruptions, tests of
a `when` their matches and interruptions, and clauses of a dispatch whatever their tests keep.

Only one sum is not checked by a difference: the matches and misses of a test. Where these do not
fit a word, the law of the dispatch around the test holds modulo the size of a word and no further.
-/

namespace ProbeCoverage.Flow

open Cover

section Rows

variable (ledger : Ledger) {k : Nat}

/-- Along a row of nodes, what comes in goes out at the end or is kept by one of them. Numbers are
compared modulo `k`, so with `k` zero they are equal. -/
theorem telescope (through kept : Covered → Nat) (start : Nat) (nodes : List Covered)
    (linked : ∀ before node after, nodes = before ++ node :: after →
      ledger.entries node = passedOn through start before)
    (parted : ∀ node ∈ nodes, ledger.entries node ≡ through node + kept node [MOD k]) :
    start ≡ passedOn through start nodes + (nodes.map kept).sum [MOD k] := by
  induction nodes generalizing start with
  | nil => exact .rfl
  | cons node rest ih =>
      have entered : ledger.entries node = start := linked [] node rest rfl
      have later := ih (through node)
        (fun before other after split => by
          rw [linked (node :: before) other after (by rw [split]; rfl), passedOn_cons])
        (fun other member => parted other (List.mem_cons_of_mem _ member))
      have here := parted node List.mem_cons_self
      rw [passedOn_cons, List.map_cons, List.sum_cons, ← entered]
      calc ledger.entries node
        _ ≡ through node + kept node [MOD k] := here
        _ ≡ passedOn through (through node) rest + (rest.map kept).sum + kept node [MOD k] :=
            later.add_right _
        _ = passedOn through (through node) rest + (kept node + (rest.map kept).sum) := by omega

theorem sum_modEq (number other : Covered → Nat) (nodes : List Covered)
    (each : ∀ node ∈ nodes, number node ≡ other node [MOD k]) :
    (nodes.map number).sum ≡ (nodes.map other).sum [MOD k] := by
  induction nodes with
  | nil => exact .rfl
  | cons node rest ih =>
      rw [List.map_cons, List.map_cons, List.sum_cons, List.sum_cons]
      exact (each node List.mem_cons_self).add
        (ih fun other member => each other (List.mem_cons_of_mem _ member))

theorem sum_filterMap (pick : Covered → Option Covered) (number other : Covered → Nat)
    (nodes : List Covered)
    (each : ∀ node ∈ nodes, ∃ picked, pick node = some picked ∧ number node = other picked) :
    (nodes.map number).sum = ((nodes.filterMap pick).map other).sum := by
  induction nodes with
  | nil => rfl
  | cons node rest ih =>
      obtain ⟨picked, found, same⟩ := each node List.mem_cons_self
      have later := ih fun other member => each other (List.mem_cons_of_mem _ member)
      rw [List.filterMap_cons_some found, List.map_cons, List.map_cons, List.sum_cons,
        List.sum_cons, same, later]

end Rows

section Nodes

variable {ledger : Ledger} {tree : CoverTree} {node kid : Covered}
variable {above : Option Covered} {slot : Nat}

theorem Balanced.ends (balanced : Balanced ledger tree) (grown : Grown tree)
    (occurs : Occurs tree.root above slot node) :
    ledger.entries node = ledger.completions node + ledger.interruptions node := by
  have solved := (solves_interruption grown occurs).mp (balanced.interruption occurs)
  omega

def Ledger.Tallied (ledger : Ledger) (k : Nat) (tests : List Covered) : Prop :=
  ∀ test ∈ tests,
    ledger.completions test ≡ ledger.hitsOn test .matched + ledger.hitsOn test .missed [MOD k]

theorem inRow_of_chain {kind : Kind} (chain : kind.completion = .chain) (ordinary : kind ≠ .root) :
    inRow kind = true ∧ kind ∉ [Kind.multipleAssignment, .targetList, .splatTarget] := by
  cases kind <;> simp_all [Kind.completion, inRow]

/-- Whatever enters a node whose children are entered one after the other comes out behind the last
of them, or interrupts one. -/
theorem Balanced.row_parts (balanced : Balanced ledger tree) (grown : Grown tree)
    (occurs : Occurs tree.root above slot node)
    (linked : ∀ place kid, node.kid? place = some kid →
      ledger.entries kid = ledger.reached node place) :
    ledger.entries node =
      passedOn ledger.completions (ledger.entries node) node.kids +
        (node.kids.map ledger.interruptions).sum := by
  rw [← Nat.modEq_zero_iff]
  apply telescope
  · intro before kid after split
    obtain ⟨place, held, front, _⟩ := Covered.slot_of_split split
    rw [linked place kid held, Ledger.reached, front]
  · intro kid member
    obtain ⟨place, held⟩ := Covered.mem_kids.mp member
    rw [balanced.ends grown (.child place occurs held)]

theorem Balanced.row (balanced : Balanced ledger tree) (grown : Grown tree)
    (occurs : Occurs tree.root above slot node)
    (linked : ∀ place kid, node.kid? place = some kid →
      ledger.entries kid = ledger.reached node place)
    (out : ledger.completions node = passedOn ledger.completions (ledger.entries node) node.kids) :
    ledger.interruptions node = (node.kids.map ledger.interruptions).sum := by
  have passes := balanced.row_parts grown occurs linked
  have parts := balanced.ends grown occurs
  omega

/-- One branch has the hits and the other one the rest, so together they have all completions of
the condition. -/
theorem branches_share {condition yes no : Covered}
    (takes : ledger.BranchLaw node condition 1 yes)
    (leaves : ledger.BranchLaw node condition 2 no) :
    ledger.completions condition = ledger.entries yes + ledger.entries no := by
  unfold Ledger.BranchLaw at takes leaves
  cases found : trackedBranch node.kind node.branches with
  | none =>
      simp [found] at takes leaves
      omega
  | some tracked =>
      rcases trackedBranch_cases found with rfl | rfl <;> simp [found] at takes leaves <;> omega

section Tests

variable (grown : Grown tree) (occurs : Occurs tree.root above slot node)
variable (kind : node.kind = .whenClause)

include grown occurs kind

theorem test_forward {test : Covered} {place : Nat} (held : node.kid? place = some test)
    (inside : place < node.branches.length - 1) :
    test.kind.isMatcher = true ∧ test.kind.propagation = .forward := by
  have wraps : test.kind.isMatcher = true := by
    simpa [(grown.regular _ _ _ occurs).test_kid held kind] using inside
  refine ⟨wraps, ?_⟩
  cases same : test.kind <;> simp [same, Kind.isMatcher] at wraps <;> rfl

variable (balanced : Balanced ledger tree)

include balanced

theorem test_before {test : Covered} {place : Nat} (held : node.kid? (place + 1) = some test)
    (inside : place + 1 < node.branches.length - 1) :
    ∃ previous, node.kid? place = some previous := by
  have stands : Occurs tree.root (some node) (place + 1) test := .child _ occurs held
  have forward := (test_forward grown occurs kind held inside).2
  have solved := (solves_entry grown stands occurs forward).mp (balanced.entry stands)
  cases found : node.kid? place with
  | some previous => exact ⟨previous, rfl⟩
  | none =>
      have last : place + 1 ≠ node.branches.length - 1 := by omega
      simp [childEntry, kind, whenChildEntry, last, withChild, found, Ledger.eval, Formula.eval]
        at solved

theorem tests_linked {before after : List Covered} {test : Covered}
    (split : node.tests = before ++ test :: after) :
    ledger.entries test =
      passedOn (fun previous => ledger.hitsOn previous .missed) (ledger.entries node) before := by
  obtain ⟨kids, _⟩ := when_kids grown occurs kind
  have sourceOrder : node.kids = before ++ test :: (after ++ node.last?.toList) := by
    rw [kids, split, List.append_assoc, List.cons_append]
  obtain ⟨place, stands, front, _⟩ := Covered.slot_of_split sourceOrder
  have bound : place < node.branches.length - 1 := by
    have member : test ∈ node.tests := by simp [split]
    simpa [(grown.regular _ _ _ occurs).test_kid stands kind] using (List.mem_filter.mp member).2
  have testOccurs : Occurs tree.root (some node) place test := .child place occurs stands
  have forward := (test_forward grown occurs kind stands bound).2
  rw [← front]
  cases place with
  | zero =>
      exact (solves_entry_first_test grown testOccurs forward kind (by omega) rfl).mp
        (balanced.entry testOccurs)
  | succ previous =>
      obtain ⟨kid, found⟩ := test_before grown occurs kind balanced stands bound
      have earlier := (test_forward grown occurs kind found (by omega)).1
      rw [Covered.kidsBefore_succ found, passedOn, List.getLast?_concat]
      exact (solves_entry_next_test grown testOccurs forward kind (by omega) (by omega) found
        earlier).mp (balanced.entry testOccurs)

theorem clause_flow {k : Nat} (tallied : ledger.Tallied k node.tests) :
    ledger.entries node ≡
      passedOn (fun test => ledger.hitsOn test .missed) (ledger.entries node) node.tests +
        (ledger.allMatches node + (node.tests.map ledger.interruptions).sum) [MOD k] := by
  rw [Ledger.allMatches, ← List.sum_map_add]
  apply telescope
  · exact fun before test after split => tests_linked grown occurs kind balanced split
  · intro test member
    obtain ⟨_, place, stands⟩ := occurs_of_test occurs member
    rw [balanced.ends grown stands, ← Nat.add_assoc, Nat.add_comm (ledger.hitsOn test .missed)]
    exact (tallied test member).add_right _

/-- Matches and passes of a `when` are entries of it, unless a test wrapped around. -/
theorem clause_bound (exact : ledger.Tallied 0 node.tests) :
    ledger.allMatches node + ledger.passed node ≤ ledger.entries node := by
  have flow := Nat.modEq_zero_iff.mp (clause_flow grown occurs kind balanced exact)
  unfold passedOn at flow
  unfold Ledger.passed
  cases last : node.tests.getLast? <;> simp only [last] at flow ⊢ <;> omega

/-- Where no test wrapped around, neither did the sum of their matches. -/
theorem matched_exact (held : ledger.Held) (exact : ledger.Tallied 0 node.tests) :
    ledger.matched node = ledger.allMatches node := by
  have bound := clause_bound grown occurs kind balanced exact
  exact held.keep_eq (Nat.le_of_add_right_le bound)

end Tests

variable (orderly : Orderly tree) (balanced : Balanced ledger tree)

include orderly balanced

theorem interruptions_of_root (wrapper : tree.root.kind = .root) :
    ledger.interruptions tree.root = (tree.root.kids.map ledger.interruptions).sum := by
  have grown := orderly.grown
  have chain : tree.root.kind.completion = .chain := by simp [wrapper, Kind.completion]
  apply balanced.row grown .top _
    ((solves_completion_chain grown .top chain).mp (balanced.completion .top))
  intro place kid held
  have stands : Occurs tree.root (some tree.root) place kid := .child place .top held
  have forward := forward_kid grown orderly.targets stands (by simp [wrapper])
  -- the wrapper has one slot, so nothing comes before the program
  have first : place = 0 := by
    have bound := Covered.slot_lt held
    have arity := (grown.regular _ _ _ .top).arity
    simp [wrapper, Kind.arity, Ast.Arity.accepts, Ast.Arity.exactly] at arity
    omega
  rw [(solves_entry_of_root grown stands forward wrapper).mp (balanced.entry stands), first,
    ← (solves_top grown wrapper).mp (balanced.entry .top)]
  rfl

theorem interruptions_of_chain (occurs : Occurs tree.root above slot node)
    (chain : node.kind.completion = .chain) :
    ledger.interruptions node = (node.kids.map ledger.interruptions).sum := by
  have grown := orderly.grown
  by_cases wrapper : node.kind = .root
  · obtain rfl := grown.root_of_kind occurs wrapper
    exact interruptions_of_root orderly balanced wrapper
  · obtain ⟨row, noTargets⟩ := inRow_of_chain chain wrapper
    apply balanced.row grown occurs _
      ((solves_completion_chain grown occurs chain).mp (balanced.completion occurs))
    intro place kid held
    have stands : Occurs tree.root (some node) place kid := .child place occurs held
    have forward := forward_kid grown orderly.targets stands noTargets
    exact (solves_entry_inRow grown stands forward row).mp (balanced.entry stands)

theorem interruptions_of_conditional (held : ledger.Held)
    (occurs : Occurs tree.root above slot node) (kind : node.kind = .conditional) :
    ∃ condition yes no, node.kid? 0 = some condition ∧ node.kid? 1 = some yes ∧
      node.kid? 2 = some no ∧
      ledger.interruptions node =
        ledger.interruptions condition + ledger.interruptions yes + ledger.interruptions no := by
  have grown := orderly.grown
  have filled (place : Nat) (needed : place ∈ [0, 1, 2]) : ∃ kid, node.kid? place = some kid :=
    slot_filled orderly.filled occurs place (by simpa [kind, CoverTree.neededSlots] using needed)
  obtain ⟨condition, first⟩ := filled 0 (by decide)
  obtain ⟨yes, second⟩ := filled 1 (by decide)
  obtain ⟨no, third⟩ := filled 2 (by decide)
  refine ⟨condition, yes, no, first, second, third, ?_⟩
  have below {place : Nat} {kid : Covered} (stands : node.kid? place = some kid) :
      Occurs tree.root (some node) place kid := .child place occurs stands
  have forward {place : Nat} {kid : Covered} (stands : node.kid? place = some kid) :=
    forward_kid grown orderly.targets (below stands) (by simp [kind])
  have enters : ledger.entries condition = ledger.entries node :=
    (solves_entry_first grown (below first) (forward first) (by rw [kind]; rfl) rfl).mp
      (balanced.entry (below first))
  have decides : ledger.completions condition = ledger.entries yes + ledger.entries no :=
    branches_share
      ((solves_entry_branch grown (below second) (forward second) kind (by decide) first).mp
        (balanced.entry (below second)))
      ((solves_entry_branch grown (below third) (forward third) kind (by decide) first).mp
        (balanced.entry (below third)))
  have joins :=
    (solves_completion_conditional grown occurs kind second third).mp (balanced.completion occurs)
  have whole := balanced.ends grown occurs
  have conditionEnds := balanced.ends grown (below first)
  have yesEnds := balanced.ends grown (below second)
  have noEnds := balanced.ends grown (below third)
  have within : ledger.completions yes + ledger.completions no ≤ ledger.entries node := by omega
  rw [Arithmetic.add, held.keep_eq within] at joins
  omega

theorem interruptions_of_shortCircuit (held : ledger.Held)
    (occurs : Occurs tree.root above slot node) (kind : node.kind = .shortCircuit) :
    ∃ left right, node.kid? 0 = some left ∧ node.kid? 1 = some right ∧
      ledger.interruptions node = ledger.interruptions left + ledger.interruptions right := by
  have grown := orderly.grown
  have filled (place : Nat) (needed : place ∈ [0, 1]) : ∃ kid, node.kid? place = some kid :=
    slot_filled orderly.filled occurs place (by simpa [kind, CoverTree.neededSlots] using needed)
  obtain ⟨left, first⟩ := filled 0 (by decide)
  obtain ⟨right, second⟩ := filled 1 (by decide)
  refine ⟨left, right, first, second, ?_⟩
  have leftOccurs : Occurs tree.root (some node) 0 left := .child 0 occurs first
  have rightOccurs : Occurs tree.root (some node) 1 right := .child 1 occurs second
  have forward := forward_kid grown orderly.targets leftOccurs (by simp [kind])
  have enters : ledger.entries left = ledger.entries node :=
    (solves_entry_first grown leftOccurs forward (by rw [kind]; rfl) rfl).mp
      (balanced.entry leftOccurs)
  obtain ⟨enough, joins⟩ :=
    (solves_completion_shortCircuit grown occurs kind first second).mp (balanced.completion occurs)
  have whole := balanced.ends grown occurs
  have leftEnds := balanced.ends grown leftOccurs
  have rightEnds := balanced.ends grown rightOccurs
  have within : ledger.completions left - ledger.entries right + ledger.completions right ≤
      ledger.entries node := by omega
  rw [Arithmetic.add, held.keep_eq within] at joins
  omega

section Clauses

variable {k : Nat}

/-- Whatever enters a `when` matches one of its tests, interrupts one, or passes the last one. -/
theorem clause_parts (occurs : Occurs tree.root above slot node) (kind : node.kind = .whenClause)
    (tallied : ledger.Tallied k node.tests) :
    ledger.entries node ≡
      ledger.passed node +
        (ledger.allMatches node + (node.tests.map ledger.interruptions).sum) [MOD k] := by
  obtain ⟨_, _, _, someTest⟩ := clause_kids orderly occurs kind
  have flow := clause_flow orderly.grown occurs kind balanced tallied
  unfold passedOn at flow
  unfold Ledger.passed
  cases found : node.tests.getLast? with
  | none => exact absurd (List.getLast?_eq_none_iff.mp found) someTest
  | some test => simpa only [found] using flow

/-- How often the clauses of a dispatch were tried: as often as its subject completed, or as the
dispatch was entered when it has none. -/
def Ledger.tried (ledger : Ledger) (node : Covered) : Nat :=
  passedOn ledger.completions (ledger.entries node) (node.kid? 0).toList

theorem clause_linked (held : ledger.Held) (occurs : Occurs tree.root above slot node)
    (kind : node.kind = .caseDispatch) {before after : List Covered}
    (sourceOrder : node.kids = (node.kid? 0).toList ++ (before ++ kid :: after))
    (clauses : ∀ clause ∈ before, clause.kind = .whenClause) :
    ledger.entries kid = passedOn ledger.passed (ledger.tried node) before := by
  have grown := orderly.grown
  obtain ⟨_, _, _, _, _, plain⟩ := middle_kids orderly occurs (.inl ⟨kind, rfl⟩)
  rw [← List.append_assoc] at sourceOrder
  obtain ⟨place, stands, front, _⟩ := Covered.slot_of_split sourceOrder
  have kidOccurs : Occurs tree.root (some node) place kid := .child place occurs stands
  have later : place ≠ 0 := by
    rintro rfl
    simp [Covered.kidsBefore, stands] at front
  have forward := forward_kid grown orderly.targets kidOccurs (by simp [kind])
  rw [((solves_entry_clause grown kidOccurs forward held kind later).mp
    (balanced.entry kidOccurs)).2, front]
  unfold passedOn
  rw [List.getLast?_append]
  cases previous : before.getLast? with
  | some clause => simp [clauses clause (List.mem_of_getLast? previous)]
  | none =>
      unfold Ledger.tried passedOn
      cases subject : node.kid? 0 with
      | none => rfl
      | some kid => simp [plain kid subject]

/-- Whatever stands behind a clause asks whether the clause was tried too often for one word. -/
theorem clause_checked (held : ledger.Held) (occurs : Occurs tree.root above slot node)
    (kind : node.kind = .caseDispatch) {clause : Covered} (member : clause ∈ node.clauses) :
    ledger.arithmetic.Holds (ledger.matched clause + ledger.passed clause) := by
  have grown := orderly.grown
  obtain ⟨last, _, _, kids, _, _⟩ := middle_kids orderly occurs (.inl ⟨kind, rfl⟩)
  obtain ⟨before, after, parts⟩ := List.append_of_mem member
  obtain ⟨next, rest, later⟩ : ∃ next rest, after ++ [last] = next :: rest :=
    List.exists_cons_of_ne_nil (by simp)
  have split : node.kids = ((node.kid? 0).toList ++ (before ++ [clause])) ++ next :: rest := by
    simp [kids, parts, ← later]
  obtain ⟨place, stands, front, _⟩ := Covered.slot_of_split split
  have nextOccurs : Occurs tree.root (some node) place next := .child place occurs stands
  have behind : place ≠ 0 := by
    rintro rfl
    simp [Covered.kidsBefore] at front
  have forward := forward_kid grown orderly.targets nextOccurs (by simp [kind])
  have entered := (solves_entry_clause grown nextOccurs forward held kind behind).mp
    (balanced.entry nextOccurs)
  refine entered.1 clause ?_ (occurs_of_kidsOfKind occurs member).1
  rw [front, ← List.append_assoc]
  simp

/-- Whatever comes to the clauses of a dispatch comes to its last body, or matches or interrupts a
test. -/
theorem dispatch_parts (held : ledger.Held) (occurs : Occurs tree.root above slot node)
    (kind : node.kind = .caseDispatch) {last : Covered}
    (kids : node.kids = (node.kid? 0).toList ++ (node.clauses ++ [last]))
    (tallied : ledger.Tallied k (node.clauses.flatMap Covered.tests)) :
    ledger.tried node ≡
      ledger.entries last +
        (node.clauses.map fun clause =>
          ledger.allMatches clause + (clause.tests.map ledger.interruptions).sum).sum [MOD k] := by
  have falls : ledger.entries last = passedOn ledger.passed (ledger.tried node) node.clauses := by
    apply clause_linked orderly balanced held occurs kind kids
    intro clause member
    exact (occurs_of_kidsOfKind occurs member).1
  rw [falls]
  apply telescope
  · intro before clause after split
    have sourceOrder :
        node.kids = (node.kid? 0).toList ++ (before ++ clause :: (after ++ [last])) := by
      rw [kids, split, List.append_assoc, List.cons_append]
    apply clause_linked orderly balanced held occurs kind sourceOrder
    intro earlier member
    have inside : earlier ∈ node.clauses := by simp [split, member]
    exact (occurs_of_kidsOfKind occurs inside).1
  · intro clause member
    obtain ⟨isClause, place, stands⟩ := occurs_of_kidsOfKind occurs member
    apply clause_parts orderly balanced stands isClause
    exact fun test inside => tallied test (List.mem_flatMap.mpr ⟨clause, member, inside⟩)

theorem clause_body (occurs : Occurs tree.root above slot node) (kind : node.kind = .whenClause) :
    ∃ body, node.last? = some body ∧ ledger.matched node = ledger.entries body ∧
      ledger.completions node = ledger.completions body ∧
      ledger.entries body = ledger.completions body + ledger.interruptions body := by
  have grown := orderly.grown
  obtain ⟨body, held, _, _⟩ := clause_kids orderly occurs kind
  have bodyOccurs : Occurs tree.root (some node) (node.branches.length - 1) body :=
    .child _ occurs held
  have forward := forward_kid grown orderly.targets bodyOccurs (by simp [kind])
  refine ⟨body, held, ?_, ?_, balanced.ends grown bodyOccurs⟩
  · exact ((solves_entry_body grown bodyOccurs forward kind rfl).mp
      (balanced.entry bodyOccurs)).symm
  · exact (solves_completion_clause grown occurs kind held).mp (balanced.completion occurs)

theorem dispatch_subject (occurs : Occurs tree.root above slot node)
    (kind : node.kind = .caseDispatch) :
    ledger.entries node =
      ledger.tried node + ((node.kid? 0).toList.map ledger.interruptions).sum := by
  have grown := orderly.grown
  unfold Ledger.tried passedOn
  cases held : node.kid? 0 with
  | none => rfl
  | some subject =>
      have stands : Occurs tree.root (some node) 0 subject := .child 0 occurs held
      have forward := forward_kid grown orderly.targets stands (by simp [kind])
      have enters : ledger.entries subject = ledger.entries node :=
        (solves_entry_first grown stands forward (by rw [kind]; rfl) rfl).mp
          (balanced.entry stands)
      have ends := balanced.ends grown stands
      simp only [Option.toList_some, List.getLast?_singleton, List.map_cons, List.map_nil,
        List.sum_cons, List.sum_nil]
      omega

theorem dispatch_bodies (occurs : Occurs tree.root above slot node) :
    (node.clauses.map ledger.matched).sum =
        ((node.clauses.filterMap Covered.last?).map ledger.entries).sum ∧
      (node.clauses.map ledger.completions).sum =
        ((node.clauses.filterMap Covered.last?).map ledger.completions).sum ∧
      ((node.clauses.filterMap Covered.last?).map ledger.entries).sum =
        ((node.clauses.filterMap Covered.last?).map ledger.completions).sum +
          ((node.clauses.filterMap Covered.last?).map ledger.interruptions).sum := by
  have bodies (clause : Covered) (member : clause ∈ node.clauses) :
      ∃ body, clause.last? = some body ∧ ledger.matched clause = ledger.entries body ∧
        ledger.completions clause = ledger.completions body ∧
        ledger.entries body = ledger.completions body + ledger.interruptions body := by
    obtain ⟨isClause, place, stands⟩ := occurs_of_kidsOfKind occurs member
    exact clause_body orderly balanced stands isClause
  refine ⟨sum_filterMap Covered.last? ledger.matched ledger.entries _ ?_,
    sum_filterMap Covered.last? ledger.completions ledger.completions _ ?_, ?_⟩
  · intro clause member
    obtain ⟨body, found, same, _⟩ := bodies clause member
    exact ⟨body, found, same⟩
  · intro clause member
    obtain ⟨body, found, _, same, _⟩ := bodies clause member
    exact ⟨body, found, same⟩
  · rw [← List.sum_map_add]
    congr 1
    apply List.map_congr_left
    intro body member
    obtain ⟨clause, inside, found⟩ := List.mem_filterMap.mp member
    obtain ⟨other, same, _, _, ends⟩ := bodies clause inside
    obtain rfl : other = body := by simpa [found] using same.symm
    exact ends

structure Ledger.Dispatched (ledger : Ledger) (same : Nat → Nat → Prop) (node last : Covered) :
    Prop where
  tried : same (ledger.tried node)
    (((node.clauses.filterMap Covered.last?).map ledger.entries).sum + ledger.entries last +
      ((node.clauses.flatMap Covered.tests).map ledger.interruptions).sum)
  interrupted : same (ledger.interruptions node)
    (((node.kid? 0).toList.map ledger.interruptions).sum +
      ((node.clauses.flatMap Covered.tests).map ledger.interruptions).sum +
      ((node.clauses.filterMap Covered.last?).map ledger.interruptions).sum +
      ledger.interruptions last)

variable {last : Covered}

theorem dispatch_tried (held : ledger.Held) (occurs : Occurs tree.root above slot node)
    (kind : node.kind = .caseDispatch)
    (kids : node.kids = (node.kid? 0).toList ++ (node.clauses ++ [last]))
    (tallied : ledger.Tallied k (node.clauses.flatMap Covered.tests))
    (summed : ∀ clause ∈ node.clauses, ledger.allMatches clause ≡ ledger.matched clause [MOD k]) :
    ledger.tried node ≡
      ((node.clauses.filterMap Covered.last?).map ledger.entries).sum + ledger.entries last +
        ((node.clauses.flatMap Covered.tests).map ledger.interruptions).sum [MOD k] := by
  have tests : (node.clauses.map fun clause => (clause.tests.map ledger.interruptions).sum).sum =
      ((node.clauses.flatMap Covered.tests).map ledger.interruptions).sum := by
    rw [List.map_flatMap, List.flatMap_def, List.sum_flatten, List.map_map]
    rfl
  have parts := dispatch_parts orderly balanced held occurs kind kids tallied
  rw [List.sum_map_add, tests] at parts
  rw [← (dispatch_bodies orderly balanced occurs).1, Nat.add_comm _ (ledger.entries last),
    Nat.add_assoc]
  exact parts.trans ((Nat.ModEq.rfl.add ((sum_modEq _ _ _ summed).add_right _)))

/-- Once it is known where the tries of a dispatch go, so is where its interruptions go. -/
theorem dispatched_of_tried (occurs : Occurs tree.root above slot node)
    (kind : node.kind = .caseDispatch) (stands : node.last? = some last)
    (later : node.kidsAfter 0 = node.clauses ++ [last])
    (tried : ledger.tried node ≡
      ((node.clauses.filterMap Covered.last?).map ledger.entries).sum + ledger.entries last +
        ((node.clauses.flatMap Covered.tests).map ledger.interruptions).sum [MOD k])
    (joins : ledger.completions node ≡
      ((node.kidsAfter 0).map ledger.completions).sum [MOD k]) :
    ledger.Dispatched (Nat.ModEq k) node last := by
  refine ⟨tried, ?_⟩
  obtain ⟨_, completed, ended⟩ := dispatch_bodies orderly balanced occurs
  have subject := dispatch_subject orderly balanced occurs kind
  have whole := balanced.ends orderly.grown occurs
  have lastEnds := balanced.ends orderly.grown (.child _ occurs stands)
  rw [later, List.map_append, List.sum_append, completed, List.map_singleton, List.sum_singleton]
    at joins
  apply joins.add_left_cancel
  rw [← whole, subject]
  refine (tried.add_right _).trans ?_
  rw [lastEnds, ended]
  exact congrArg (· % k) (by omega)

theorem dispatched_modulus (held : ledger.Held) (occurs : Occurs tree.root above slot node)
    (kind : node.kind = .caseDispatch) (stands : node.last? = some last)
    (kids : node.kids = (node.kid? 0).toList ++ (node.clauses ++ [last]))
    (later : node.kidsAfter 0 = node.clauses ++ [last]) :
    ledger.Dispatched (Nat.ModEq ledger.arithmetic.modulus) node last := by
  have grown := orderly.grown
  apply dispatched_of_tried orderly balanced occurs kind stands later
  · apply dispatch_tried orderly balanced held occurs kind kids
    · intro test member
      obtain ⟨clause, inside, listed⟩ := List.mem_flatMap.mp member
      obtain ⟨_, _, clauseOccurs⟩ := occurs_of_kidsOfKind occurs inside
      obtain ⟨wraps, _, testOccurs⟩ := occurs_of_test clauseOccurs listed
      rw [(solves_completion_test grown testOccurs wraps).mp (balanced.completion testOccurs)]
      exact Nat.mod_modEq _ _
    · exact fun clause _ => (Nat.mod_modEq _ _).symm
  · rw [(solves_completion_later grown occurs (.inl kind)).mp (balanced.completion occurs)]
    exact Nat.mod_modEq _ _

theorem dispatched_exact (held : ledger.Held) (occurs : Occurs tree.root above slot node)
    (kind : node.kind = .caseDispatch) (stands : node.last? = some last)
    (kids : node.kids = (node.kid? 0).toList ++ (node.clauses ++ [last]))
    (later : node.kidsAfter 0 = node.clauses ++ [last])
    (exact : ledger.Tallied 0 (node.clauses.flatMap Covered.tests)) :
    ledger.Dispatched Eq node last := by
  have grown := orderly.grown
  have tried := dispatch_tried orderly balanced held occurs kind kids exact (by
    intro clause member
    obtain ⟨isClause, place, clauseOccurs⟩ := occurs_of_kidsOfKind occurs member
    rw [matched_exact grown clauseOccurs isClause balanced held
      fun test inside => exact test (List.mem_flatMap.mpr ⟨clause, member, inside⟩)])
  -- the completions are entries of the dispatch, so their sum does not wrap around
  have joins := (solves_completion_later grown occurs (.inl kind)).mp (balanced.completion occurs)
  obtain ⟨_, completed, ended⟩ := dispatch_bodies orderly balanced occurs
  have subject := dispatch_subject orderly balanced occurs kind
  have lastEnds := balanced.ends grown (.child _ occurs stands)
  have within : ((node.kidsAfter 0).map ledger.completions).sum ≤ ledger.entries node := by
    rw [later, List.map_append, List.sum_append, completed, List.map_singleton, List.sum_singleton]
    have total := Nat.modEq_zero_iff.mp tried
    omega
  rw [held.keep_eq within] at joins
  have dispatched := dispatched_of_tried orderly balanced occurs kind stands later tried
    (Nat.modEq_zero_iff.mpr joins)
  exact ⟨Nat.modEq_zero_iff.mp dispatched.tried, Nat.modEq_zero_iff.mp dispatched.interrupted⟩

end Clauses

end Nodes

section Views

def lastChild? (cell : Cell) : Option Nat :=
  cell.child? (cell.children.length - 1)

def clauses (tree : CoverTree) (cell : Cell) : List Nat :=
  cell.nodes.filter fun child => tree.kind? child = some .whenClause

def clauseBodies (tree : CoverTree) (cell : Cell) : List Nat :=
  (clauses tree cell).filterMap fun clause => (tree.cell? clause).bind lastChild?

def clauseTests (tree : CoverTree) (cell : Cell) : List Nat :=
  (clauses tree cell).flatMap fun clause => ((tree.cell? clause).map (matchers tree)).getD []

def View.outcomes (view : View) (test : Nat) : Nat :=
  view.hitsAt test .matched + view.hitsAt test .missed

/-- What comes to the clauses of a dispatch enters a body or interrupts a test, and what interrupts
the dispatch interrupts one of its parts, with numbers compared by `same`. -/
structure DispatchConserved (same : Nat → Nat → Prop) (tree : CoverTree) (counts : Nat → Counts)
    (cell : Cell) (last : Nat) : Prop where
  tried : same
    (match cell.child? 0 with
      | some subject => (counts subject).fullRuns
      | none => (counts cell.number).runs)
    (((clauseBodies tree cell).map fun body => (counts body).runs).sum + (counts last).runs +
      ((clauseTests tree cell).map fun test => (counts test).interrupts).sum)
  interrupted : same (counts cell.number).interrupts
    (((cell.child? 0).toList.map fun subject => (counts subject).interrupts).sum +
      ((clauseTests tree cell).map fun test => (counts test).interrupts).sum +
      ((clauseBodies tree cell).map fun body => (counts body).interrupts).sum +
      (counts last).interrupts)

/-- No interruption of the node is lost or made up: each belongs to one of the nodes below it. For a
dispatch this is so up to whole words, and exactly where the outcomes of each test fit a word. -/
structure Conserved (view : View) (counts : Nat → Counts) (cell : Cell) : Prop where
  chain : cell.kind.completion = .chain →
    (counts cell.number).interrupts = (cell.nodes.map fun child => (counts child).interrupts).sum
  conditional : cell.kind = .conditional →
    ∃ condition yes no, cell.child? 0 = some condition ∧ cell.child? 1 = some yes ∧
      cell.child? 2 = some no ∧
      (counts cell.number).interrupts =
        (counts condition).interrupts + (counts yes).interrupts + (counts no).interrupts
  shortCircuit : cell.kind = .shortCircuit →
    ∃ left right, cell.child? 0 = some left ∧ cell.child? 1 = some right ∧
      (counts cell.number).interrupts = (counts left).interrupts + (counts right).interrupts
  dispatch : cell.kind = .caseDispatch →
    ∃ last, lastChild? cell = some last ∧
      DispatchConserved (Nat.ModEq view.arithmetic.modulus) view.tree counts cell last ∧
      ((∀ test ∈ clauseTests view.tree cell, view.arithmetic.Holds (view.outcomes test)) →
        DispatchConserved Eq view.tree counts cell last)

def View.ledger (view : View) : Ledger where
  hits := view.hits
  told := view.told
  value query :=
    match view.derive query with
    | .ok count => count
    | .error _ => 0
  arithmetic := view.arithmetic

theorem View.Held.ledger {view : View} (held : view.Held) : view.ledger.Held := by
  refine ⟨held.hits, fun query => ?_⟩
  cases derived : view.derive query with
  | ok count => simpa [View.ledger, derived] using held.derive derived
  | error fault => simpa [View.ledger, derived] using view.arithmetic.holds_zero

theorem View.ledger_solves {view : View} {query : Query} {count : Nat}
    (derived : view.derive query = .ok count) :
    view.ledger.value query = count ∧ view.ledger.Solves view.tree query := by
  have value : view.ledger.value query = count := by simp [View.ledger, derived]
  refine ⟨value, ?_⟩
  rw [Ledger.Solves, value]
  apply Formula.eval_extend _ _ (view.derive_solves query count derived)
  intro asked known found
  simp [View.ledger, found]

variable {view : View} {node : Covered} {above : Option Covered} {slot : Nat}

def Agrees (ledger : Ledger) (counts : Nat → Counts) (tree : CoverTree) : Prop :=
  ∀ {above slot node}, Occurs tree.root above slot node →
    ledger.entries node = (counts node.number).runs ∧
    ledger.completions node = (counts node.number).fullRuns ∧
    ledger.interruptions node = (counts node.number).interrupts

/-- Where the three counts of every node are known, the derived counts are a ledger that holds and
solves them. -/
theorem ledger_of_counts {counts : Nat → Counts} (grown : Grown view.tree)
    (known : ∀ id < view.tree.size, (view.answers id).counts = .ok (counts id)) :
    Agrees view.ledger counts view.tree ∧ Balanced view.ledger view.tree := by
  have answered {above : Option Covered} {slot : Nat} {node : Covered}
      (occurs : Occurs view.tree.root above slot node) :=
    Answers.of_counts (known node.number (number_lt_size grown occurs))
  refine ⟨fun occurs => ⟨?_, ?_, ?_⟩, ⟨fun occurs => ?_, fun occurs => ?_, fun occurs => ?_⟩⟩
  · exact (View.ledger_solves (answered occurs).1).1
  · exact (View.ledger_solves (answered occurs).2.1).1
  · exact (View.ledger_solves (answered occurs).2.2).1
  · exact (View.ledger_solves (answered occurs).1).2
  · exact (View.ledger_solves (answered occurs).2.1).2
  · exact (View.ledger_solves (answered occurs).2.2).2

section Numbers

variable {tree : CoverTree} {owner : Option Nat} {place : Nat}

theorem lastChild?_eq (node : Covered) :
    lastChild? (node.cell owner place) = (node.last?).map Covered.number := by
  simp [lastChild?, Covered.last?]

variable (grown : Grown tree) (occurs : Occurs tree.root above slot node)

include grown occurs

theorem clauses_eq : clauses tree (node.cell owner place) = node.clauses.map Covered.number := by
  rw [clauses, Covered.cell_nodes, Covered.clauses, Covered.kidsOfKind,
    List.filter_map]
  congr 1
  apply List.filter_congr
  intro kid member
  obtain ⟨place, held⟩ := Covered.mem_kids.mp member
  simp [grown.numbered.kind?_of_occurs (.child place occurs held)]

theorem clauseBodies_eq :
    clauseBodies tree (node.cell owner place) =
      (node.clauses.filterMap Covered.last?).map Covered.number := by
  rw [clauseBodies, clauses_eq grown occurs, List.filterMap_map, List.map_filterMap]
  apply List.filterMap_congr
  intro clause member
  obtain ⟨_, place, stands⟩ := occurs_of_kidsOfKind occurs member
  simp [grown.numbered.cell?_of_occurs stands, lastChild?_eq]

theorem clauseTests_eq :
    clauseTests tree (node.cell owner place) =
      (node.clauses.flatMap Covered.tests).map Covered.number := by
  rw [clauseTests, clauses_eq grown occurs, List.flatMap_map, List.map_flatMap]
  apply List.flatMap_congr
  intro clause member
  obtain ⟨_, place, stands⟩ := occurs_of_kidsOfKind occurs member
  simp [grown.numbered.cell?_of_occurs stands, matchers_of_occurs grown stands]

end Numbers

section Totals

variable {tree : CoverTree} {ledger : Ledger} {counts : Nat → Counts}

theorem Agrees.entered (agrees : Agrees ledger counts tree) (nodes : List Covered)
    (inside : ∀ node ∈ nodes, ∃ above slot, Occurs tree.root above slot node) :
    nodes.map ledger.entries = (nodes.map Covered.number).map fun id => (counts id).runs := by
  rw [List.map_map]
  apply List.map_congr_left
  intro node member
  obtain ⟨_, _, occurs⟩ := inside node member
  exact (agrees occurs).1

theorem Agrees.interrupted (agrees : Agrees ledger counts tree) (nodes : List Covered)
    (inside : ∀ node ∈ nodes, ∃ above slot, Occurs tree.root above slot node) :
    nodes.map ledger.interruptions =
      (nodes.map Covered.number).map fun id => (counts id).interrupts := by
  rw [List.map_map]
  apply List.map_congr_left
  intro node member
  obtain ⟨_, _, occurs⟩ := inside node member
  exact (agrees occurs).2.2

theorem occurs_of_clause_body (occurs : Occurs tree.root above slot node) :
    ∀ body ∈ node.clauses.filterMap Covered.last?,
      ∃ above slot, Occurs tree.root above slot body := by
  intro body member
  obtain ⟨clause, inside, found⟩ := List.mem_filterMap.mp member
  obtain ⟨_, place, stands⟩ := occurs_of_kidsOfKind occurs inside
  exact ⟨_, _, .child _ stands found⟩

theorem occurs_of_clause_test (occurs : Occurs tree.root above slot node) :
    ∀ test ∈ node.clauses.flatMap Covered.tests,
      ∃ above slot, Occurs tree.root above slot test := by
  intro test member
  obtain ⟨clause, inside, found⟩ := List.mem_flatMap.mp member
  obtain ⟨_, place, stands⟩ := occurs_of_kidsOfKind occurs inside
  exact ⟨_, (occurs_of_test stands found).2⟩

theorem Agrees.dispatched (agrees : Agrees ledger counts tree) (grown : Grown tree)
    (occurs : Occurs tree.root above slot node) {last : Covered} (stands : node.last? = some last)
    {same : Nat → Nat → Prop} (dispatched : ledger.Dispatched same node last) :
    DispatchConserved same tree counts (node.cell (above.map Covered.number) slot) last.number := by
  have bodies := occurs_of_clause_body occurs
  have tests := occurs_of_clause_test occurs
  have subject : ∀ subject ∈ (node.kid? 0).toList,
      ∃ above slot, Occurs tree.root above slot subject := by
    intro subject member
    exact ⟨_, _, .child 0 occurs (by simpa using member)⟩
  have lastOccurs := agrees (.child _ occurs stands)
  obtain ⟨tried, interrupted⟩ := dispatched
  rw [agrees.entered _ bodies, agrees.interrupted _ tests, lastOccurs.1] at tried
  rw [agrees.interrupted _ bodies, agrees.interrupted _ tests, agrees.interrupted _ subject,
    lastOccurs.2.2, (agrees occurs).2.2] at interrupted
  constructor
  · rw [clauseBodies_eq grown occurs, clauseTests_eq grown occurs, Covered.cell_child?]
    rw [Ledger.tried] at tried
    cases held : node.kid? 0 with
    | none => simpa [held, passedOn, (agrees occurs).1] using tried
    | some subject =>
        simpa [held, passedOn, (agrees (.child 0 occurs held)).2.1] using tried
  · rw [clauseBodies_eq grown occurs, clauseTests_eq grown occurs, Covered.cell_child?]
    cases held : node.kid? 0 <;> simpa [held] using interrupted

end Totals

section Dispatches

variable {counts : Nat → Counts}

theorem hitsAt_of_occurs (grown : Grown view.tree) (occurs : Occurs view.tree.root above slot node)
    {tracker : Tracker} (owned : tracker ∈ node.kind.trackers) :
    view.hitsAt node.number tracker = view.ledger.hitsOn node tracker := by
  obtain ⟨index, found, _⟩ := trackerIndex?_of_mem owned
  rw [View.hitsAt, grown.numbered.trackerSlot?_of_occurs occurs, found]
  simp [Ledger.hitsOn, Covered.slotOf, found, View.ledger]

theorem tallied_of_holds (grown : Grown view.tree) (balanced : Balanced view.ledger view.tree)
    (occurs : Occurs view.tree.root above slot node)
    (fits : ∀ test ∈ node.tests, view.arithmetic.Holds (view.outcomes test.number)) :
    view.ledger.Tallied 0 node.tests := by
  intro test member
  obtain ⟨wraps, _, stands⟩ := occurs_of_test occurs member
  have outcome := fits test member
  rw [View.outcomes, hitsAt_of_occurs grown stands (by simp [tracker_of_isMatcher wraps]),
    hitsAt_of_occurs grown stands (by simp [tracker_of_isMatcher wraps])] at outcome
  rw [(solves_completion_test grown stands wraps).mp (balanced.completion stands)]
  exact Nat.modEq_zero_iff.mpr (Arithmetic.keep_of_holds outcome)

theorem tallied_clauses (grown : Grown view.tree) (balanced : Balanced view.ledger view.tree)
    (occurs : Occurs view.tree.root above slot node)
    (fits : ∀ test ∈ clauseTests view.tree (node.cell (above.map Covered.number) slot),
      view.arithmetic.Holds (view.outcomes test)) :
    view.ledger.Tallied 0 (node.clauses.flatMap Covered.tests) := by
  rw [clauseTests_eq grown occurs] at fits
  intro test member
  obtain ⟨clause, inside, listed⟩ := List.mem_flatMap.mp member
  obtain ⟨_, _, clauseOccurs⟩ := occurs_of_kidsOfKind occurs inside
  refine tallied_of_holds grown balanced clauseOccurs (fun test here => ?_) test listed
  exact fits _ (List.mem_map.mpr ⟨test, List.mem_flatMap.mpr ⟨clause, inside, here⟩, rfl⟩)

theorem conserved_dispatch (orderly : Orderly view.tree) (held : view.Held)
    (balanced : Balanced view.ledger view.tree) (agrees : Agrees view.ledger counts view.tree)
    (occurs : Occurs view.tree.root above slot node) (kind : node.kind = .caseDispatch) :
    ∃ last, lastChild? (node.cell (above.map Covered.number) slot) = some last ∧
      DispatchConserved (Nat.ModEq view.arithmetic.modulus) view.tree counts
        (node.cell (above.map Covered.number) slot) last ∧
      ((∀ test ∈ clauseTests view.tree (node.cell (above.map Covered.number) slot),
          view.arithmetic.Holds (view.outcomes test)) →
        DispatchConserved Eq view.tree counts (node.cell (above.map Covered.number) slot)
          last) := by
  have grown := orderly.grown
  obtain ⟨last, stands, _, kids, later, _⟩ := middle_kids orderly occurs (.inl ⟨kind, rfl⟩)
  refine ⟨last.number, by simp [lastChild?_eq, stands], ?_, ?_⟩
  · exact agrees.dispatched grown occurs stands
      (dispatched_modulus orderly balanced held.ledger occurs kind stands kids later)
  · intro fits
    apply agrees.dispatched grown occurs stands
    apply dispatched_exact orderly balanced held.ledger occurs kind stands kids later
    exact tallied_clauses grown balanced occurs fits

end Dispatches

theorem conserved_of_occurs {counts : Nat → Counts} (orderly : Orderly view.tree)
    (held : view.Held) (balanced : Balanced view.ledger view.tree)
    (agrees : Agrees view.ledger counts view.tree)
    (occurs : Occurs view.tree.root above slot node) :
    Conserved view counts (node.cell (above.map Covered.number) slot) := by
  have below : ∀ kid ∈ node.kids, ∃ above slot, Occurs view.tree.root above slot kid := by
    intro kid inside
    obtain ⟨place, stands⟩ := Covered.mem_kids.mp inside
    exact ⟨some node, place, .child place occurs stands⟩
  constructor
  · intro chain
    have sum := interruptions_of_chain orderly balanced occurs chain
    rw [agrees.interrupted _ below, (agrees occurs).2.2] at sum
    rwa [Covered.cell_nodes, Covered.cell_number]
  · intro kind
    obtain ⟨condition, yes, no, first, second, third, sum⟩ :=
      interruptions_of_conditional orderly balanced held.ledger occurs kind
    refine ⟨condition.number, yes.number, no.number, by simp [first], by simp [second],
      by simp [third], ?_⟩
    rwa [(agrees occurs).2.2, (agrees (.child 0 occurs first)).2.2,
      (agrees (.child 1 occurs second)).2.2, (agrees (.child 2 occurs third)).2.2] at sum
  · intro kind
    obtain ⟨left, right, first, second, sum⟩ :=
      interruptions_of_shortCircuit orderly balanced held.ledger occurs kind
    refine ⟨left.number, right.number, by simp [first], by simp [second], ?_⟩
    rwa [(agrees occurs).2.2, (agrees (.child 0 occurs first)).2.2,
      (agrees (.child 1 occurs second)).2.2] at sum
  · exact fun kind => conserved_dispatch orderly held balanced agrees occurs kind

def View.countsAt (view : View) (id : Nat) : Counts :=
  match (view.answers id).counts with
  | .ok counts => counts
  | .error _ => ⟨0, 0, 0⟩

def View.complete (view : View) : Bool :=
  view.tree.ids.all fun id => (view.answers id).counts.toOption.isSome

theorem View.counts_eq_countsAt {view : View} (complete : view.complete = true) :
    ∀ id < view.tree.size, (view.answers id).counts = .ok (view.countsAt id) := by
  intro id bound
  have some := List.all_eq_true.mp complete id (List.mem_range.mpr bound)
  unfold View.countsAt
  cases counts : (view.answers id).counts with
  | error fault => simp [counts, Except.toOption] at some
  | ok counts => rfl

def guardedDispatch : Ast.Node :=
  let call (name : String) : Ast.Child := .node (.mk "send" [.atom .nil, .atom (.text name)] none)
  .mk "case"
    [call "subject",
     .node (.mk "when" [call "first", call "second", call "body"] none),
     .node (.mk "when"
       [call "third",
        .node (.mk "if"
          [.node (.mk "and" [call "left", call "right"] none), call "yes", .atom .nil] none)] none),
     .atom .nil] none

def dispatchHits : Probe.Hits :=
  ⟨#[10, 9, 2, 5, 8, 1, 3, 5, 2, 2, 1, 3, 1, 1, 2, 0, 1]⟩

def pairedTests : Ast.Node :=
  let literal (value : Int) : Ast.Child := .node (.mk "int" [.atom (.int value)] none)
  .mk "case"
    [.node (.mk "lvar" [.atom (.text "x")] none),
     .node (.mk "when"
       [literal 1, literal 2, .node (.mk "send" [.atom .nil, .atom (.text "b")] none)] none),
     .atom .nil] none

/-- The first test matched and missed half a word of times each, with no entry at all. -/
def halfWords : Probe.Hits :=
  ⟨#[0, 9223372036854775808, 9223372036854775808, 9223372036854775807, 0, 0]⟩

end Views

end ProbeCoverage.Flow
