import Mathlib.Data.Nat.ModEq
import ProbeCoverage.Proofs.Cover.Identity
import ProbeCoverage.Proofs.Flow.Dependence

/-!
The rules as equations. A ledger gives a number to every count. It solves the rule of a count when
the rule, evaluated with these numbers, yields the number of the count. For each kind of node this
comes to a plain equation between entries, completions and hits, in which sums are taken as the
arithmetic of the ledger takes them.
-/

namespace ProbeCoverage

open Cover

namespace Flow

open Probe (Hits)

/-- Hits, how often the tree was entered if that was told, and a number for every count. -/
structure Ledger where
  hits : Hits
  told : Option Nat
  value : Query → Nat
  arithmetic : Arithmetic

/-- What goes on behind some nodes, of which the last one lets something through. -/
def passedOn (through : Covered → Nat) (start : Nat) (nodes : List Covered) : Nat :=
  match nodes.getLast? with
  | some last => through last
  | none => start

theorem passedOn_nil (through : Covered → Nat) (start : Nat) :
    passedOn through start [] = start := rfl

theorem passedOn_singleton (through : Covered → Nat) (start : Nat) (node : Covered) :
    passedOn through start [node] = through node := rfl

theorem passedOn_cons (through : Covered → Nat) (start : Nat) (node : Covered)
    (rest : List Covered) :
    passedOn through start (node :: rest) = passedOn through (through node) rest := by
  unfold passedOn
  rw [List.getLast?_cons]
  cases rest.getLast? <;> rfl

namespace Ledger

variable (ledger : Ledger)

def eval (formula : Formula) : Except Error Nat :=
  formula.eval ledger.arithmetic ledger.hits ledger.told fun asked => .ok (ledger.value asked)

def Solves (tree : CoverTree) (query : Query) : Prop :=
  ledger.eval (rule tree query) = .ok (ledger.value query)

def entries (node : Covered) : Nat := ledger.value ⟨.entry, node.number⟩

def completions (node : Covered) : Nat := ledger.value ⟨.completion, node.number⟩

def interruptions (node : Covered) : Nat := ledger.value ⟨.interruption, node.number⟩

def hitsOn (node : Covered) (tracker : Tracker) : Nat := ledger.hits.get (node.slotOf tracker)

def reached (node : Covered) (slot : Nat) : Nat :=
  passedOn ledger.completions (ledger.entries node) (node.kidsBefore slot)

/-- How often control went on behind the target at a slot: to the next target, or out of the node. -/
def handedOn (node : Covered) (slot : Nat) : Nat :=
  let next := if node.kind = .multipleAssignment then (node.kidsBefore slot).getLast?
    else (node.kidsAfter slot).head?
  match next with
  | some next => ledger.entries next
  | none => ledger.completions node

/-- Entry of the branch of a conditional at a slot. The counter is on one of the branches, and the
other one has the rest; of two empty branches the first one has everything. -/
def BranchLaw (node condition : Covered) (slot : Nat) (branch : Covered) : Prop :=
  match trackedBranch node.kind node.branches with
  | some tracked =>
      if tracked = slot then ledger.entries branch = ledger.hitsOn node .branch
      else
        ledger.hitsOn node .branch ≤ ledger.completions condition ∧
          ledger.entries branch = ledger.completions condition - ledger.hitsOn node .branch
  | none => ledger.entries branch = if slot = 1 then ledger.completions condition else 0

def allMatches (clause : Covered) : Nat :=
  (clause.tests.map fun test => ledger.hitsOn test .matched).sum

/-- The matches of all tests of a `when`, as they are added up. -/
def matched (clause : Covered) : Nat :=
  ledger.arithmetic.keep (ledger.allMatches clause)

def passed (clause : Covered) : Nat :=
  match clause.tests.getLast? with
  | some test => ledger.hitsOn test .missed
  | none => 0

def tested (handler : Covered) : Nat :=
  match handler.kid? 0 with
  | some exceptions => ledger.completions exceptions
  | none => ledger.entries handler

structure Held : Prop where
  hits : ∀ slot, ledger.arithmetic.Holds (ledger.hits.get slot)
  value : ∀ query, ledger.arithmetic.Holds (ledger.value query)

theorem held_of_exact {ledger : Ledger} (exact : ledger.arithmetic = .exact) : ledger.Held := by
  constructor <;> intro _ <;> rw [exact] <;> trivial

theorem Held.passed {ledger : Ledger} (held : ledger.Held) (clause : Covered) :
    ledger.arithmetic.Holds (ledger.passed clause) := by
  unfold Ledger.passed
  cases clause.tests.getLast? with
  | none => exact ledger.arithmetic.holds_zero
  | some test => exact held.hits _

theorem Held.keep_eq {ledger : Ledger} (held : ledger.Held) {sum : Nat} {node : Covered}
    (within : sum ≤ ledger.entries node) : ledger.arithmetic.keep sum = sum :=
  Arithmetic.keep_of_holds ((held.value _).mono within)

section Evaluation

variable {ledger} {first second : Formula} {a b : Nat}

theorem eval_entryOf (node : Covered) :
    ledger.eval (entryOf node.number) = .ok (ledger.entries node) := rfl

theorem eval_completionOf (node : Covered) :
    ledger.eval (completionOf node.number) = .ok (ledger.completions node) := rfl

theorem eval_plus (left : ledger.eval first = .ok a) (right : ledger.eval second = .ok b) :
    ledger.eval (.plus first second) = .ok (ledger.arithmetic.add a b) := by
  unfold eval at *
  simp only [Formula.eval, left, right]

theorem eval_after (left : ledger.eval first = .ok a) (right : ledger.eval second = .ok b) :
    ledger.eval (.after first second) = .ok b := by
  unfold eval at *
  simp only [Formula.eval, left, right]

theorem eval_supplied (otherwise : ledger.eval first = .ok a) :
    ledger.eval (.supplied first) = .ok (ledger.told.getD a) := by
  unfold eval at *
  cases told : ledger.told with
  | none => simpa [Formula.eval, told] using otherwise
  | some runs => simp [Formula.eval]

theorem ok_iff : (.ok a : Except Error Nat) = .ok b ↔ b = a := by
  rw [Except.ok.injEq, eq_comm]

theorem eval_minus_iff {blame : Blame} {count : Nat} (left : ledger.eval first = .ok a)
    (right : ledger.eval second = .ok b) :
    ledger.eval (.minus blame first second) = .ok count ↔ b ≤ a ∧ count = a - b := by
  unfold eval at *
  simp only [Formula.eval, left, right]
  by_cases enough : b ≤ a
  · simp [enough, eq_comm]
  · simp [enough]

theorem eval_sum {α : Type} (items : List α) (formula : α → Formula) (number : α → Nat)
    (each : ∀ item ∈ items, ledger.eval (formula item) = .ok (number item)) :
    ledger.eval (.sum (items.map formula)) =
      .ok (ledger.arithmetic.keep (items.map number).sum) := by
  -- every partial sum is kept to a word, which is the same as keeping the whole sum once
  have folded (start : Formula) (count : Nat)
      (begun : ledger.eval start = .ok (ledger.arithmetic.keep count)) :
      ledger.eval ((items.map formula).foldl .plus start) =
        .ok (ledger.arithmetic.keep (count + (items.map number).sum)) := by
    induction items generalizing start count with
    | nil => simpa using begun
    | cons item rest ih =>
        rw [List.map_cons, List.foldl_cons, List.map_cons, List.sum_cons, ← Nat.add_assoc]
        apply ih (fun other member => each other (List.mem_cons_of_mem _ member))
        rw [eval_plus begun (each item List.mem_cons_self), Arithmetic.add,
          Arithmetic.keep_keep_add]
  simpa [Formula.sum] using folded .zero 0 (congrArg _ (Arithmetic.keep_zero _).symm)

end Evaluation

end Ledger

section Equations

variable {ledger : Ledger} {tree : CoverTree} {node kid : Covered}
variable {above higher : Option Covered} {slot place : Nat}

theorem hitsOf_of_occurs (grown : Grown tree) (occurs : Occurs tree.root above slot node)
    {tracker : Tracker} (owned : tracker ∈ node.kind.trackers) :
    hitsOf tree node.number tracker = .hits (node.slotOf tracker) := by
  obtain ⟨index, found, _⟩ := trackerIndex?_of_mem owned
  rw [hitsOf, grown.numbered.trackerSlot?_of_occurs occurs]
  simp [Covered.slotOf, found]

theorem eval_hitsOf (grown : Grown tree) (occurs : Occurs tree.root above slot node)
    (tracker : Tracker) (owned : tracker ∈ node.kind.trackers) :
    ledger.eval (hitsOf tree node.number tracker) = .ok (ledger.hitsOn node tracker) := by
  rw [hitsOf_of_occurs grown occurs owned]
  rfl

theorem solves_interruption (grown : Grown tree) (occurs : Occurs tree.root above slot node) :
    ledger.Solves tree ⟨.interruption, node.number⟩ ↔
      ledger.completions node ≤ ledger.entries node ∧
        ledger.interruptions node = ledger.entries node - ledger.completions node := by
  rw [Ledger.Solves, rule_interruption grown occurs]
  exact Ledger.eval_minus_iff (Ledger.eval_entryOf node) (Ledger.eval_completionOf node)

theorem solves_entry (grown : Grown tree) (occurs : Occurs tree.root (some node) slot kid)
    (parentOccurs : Occurs tree.root higher place node)
    (forward : kid.kind.propagation = .forward) :
    ledger.Solves tree ⟨.entry, kid.number⟩ ↔
      ledger.eval (childEntry tree (node.cell (higher.map Covered.number) place)
        (kid.cell (some node.number) slot)) = .ok (ledger.entries kid) := by
  have noSetter : kid.kind ≠ .setterTarget := by
    intro same
    simp [same, Kind.propagation] at forward
  rw [Ledger.Solves, rule_entry_below grown occurs parentOccurs, if_neg noSetter,
    if_neg (by simp [forward])]
  rfl

def inRow : Kind → Bool
  | .root | .conditional | .shortCircuit | .caseDispatch | .whenClause | .guarded => false
  | .handler | .method | .block | .optionalParameter | .setterTarget => false
  | .multipleAssignment | .operatorAssignment | .booleanAssignment => false
  | _ => true

def entersFirst : Kind → Bool
  | .conditional | .shortCircuit | .caseDispatch | .guarded | .handler => true
  | .operatorAssignment | .booleanAssignment => true
  | _ => false

def laterTracker? : Kind → Option Tracker
  | .shortCircuit => some .rightOperand
  | .handler => some .handlerEntry
  | .operatorAssignment => some .reader
  | .booleanAssignment => some .longBranch
  | _ => none

theorem solves_top (grown : Grown tree) (wrapper : tree.root.kind = .root) :
    ledger.Solves tree ⟨.entry, tree.root.number⟩ ↔
      ledger.entries tree.root = ledger.told.getD (ledger.hitsOn tree.root .root) := by
  rw [Ledger.Solves, rule_entry grown .top]
  simp only [entryRule, Option.map_none, Covered.cell_parent, Covered.cell_kind, wrapper, if_true,
    Covered.cell_number]
  rw [Ledger.eval_supplied (eval_hitsOf grown .top .root (by simp [wrapper, Kind.trackers]))]
  exact Ledger.ok_iff

section Tests

variable (grown : Grown tree) (occurs : Occurs tree.root above slot node)

include grown occurs

theorem matchers_of_occurs (owner : Option Nat) (index : Nat) :
    matchers tree (node.cell owner index) = node.tests.map Covered.number := by
  rw [matchers, Covered.cell_nodes, Covered.tests, List.filter_map]
  congr 1
  apply List.filter_congr
  intro kid member
  obtain ⟨place, held⟩ := Covered.mem_kids.mp member
  simp [grown.numbered.kind?_of_occurs (.child place occurs held)]

theorem eval_test_hits {test : Covered} (member : test ∈ node.tests) {tracker : Tracker}
    (outcome : tracker = .matched ∨ tracker = .missed) :
    ledger.eval (hitsOf tree test.number tracker) = .ok (ledger.hitsOn test tracker) := by
  obtain ⟨wraps, place, testOccurs⟩ := occurs_of_test occurs member
  apply eval_hitsOf grown testOccurs
  rw [tracker_of_isMatcher wraps]
  simpa using outcome

theorem eval_whenBodyEntry (owner : Option Nat) (index : Nat) :
    ledger.eval (whenBodyEntry tree (node.cell owner index)) = .ok (ledger.matched node) := by
  rw [whenBodyEntry, matchers_of_occurs grown occurs, List.map_map]
  apply Ledger.eval_sum
  intro test member
  exact eval_test_hits grown occurs member (.inl rfl)

theorem eval_whenTested (owner : Option Nat) (index : Nat) :
    ledger.eval (whenTested tree (node.cell owner index)) =
      .ok (ledger.arithmetic.add (ledger.matched node) (ledger.passed node)) := by
  apply Ledger.eval_plus (eval_whenBodyEntry grown occurs owner index)
  rw [matchers_of_occurs grown occurs, List.getLast?_map, Ledger.passed]
  cases last : node.tests.getLast? with
  | none => rfl
  | some test => exact eval_test_hits grown occurs (List.mem_of_getLast? last) (.inr rfl)

/-- A `when` passes on what got past its last test, unless it was tried too often for one word. -/
theorem eval_whenFallThrough (held : ledger.Held) (owner : Option Nat) (index count : Nat) :
    ledger.eval (whenFallThrough tree (node.cell owner index)) = .ok count ↔
      ledger.arithmetic.Holds (ledger.matched node + ledger.passed node) ∧
        count = ledger.passed node := by
  rw [whenFallThrough, Ledger.eval_minus_iff (eval_whenTested grown occurs owner index)
    (eval_whenBodyEntry grown occurs owner index)]
  exact Arithmetic.part_of_sum_iff (ledger.arithmetic.holds_keep _) (held.passed node)

end Tests

section Entries

variable (grown : Grown tree) (occurs : Occurs tree.root (some node) slot kid)
variable (forward : kid.kind.propagation = .forward)

include grown occurs forward

theorem solves_entry_of_root (parent : node.kind = .root) :
    ledger.Solves tree ⟨.entry, kid.number⟩ ↔
      ledger.entries kid = ledger.told.getD (ledger.hitsOn node .root) := by
  obtain ⟨⟨higher, place, parentOccurs⟩, _⟩ := occurs.parent
  rw [solves_entry grown occurs parentOccurs forward]
  simp only [childEntry, Covered.cell_kind, parent, Covered.cell_number]
  rw [Ledger.eval_supplied (eval_hitsOf grown parentOccurs .root (by simp [parent, Kind.trackers]))]
  exact Ledger.ok_iff

theorem solves_entry_inRow (parent : inRow node.kind = true) :
    ledger.Solves tree ⟨.entry, kid.number⟩ ↔
      ledger.entries kid = ledger.reached node slot := by
  obtain ⟨⟨higher, place, parentOccurs⟩, _⟩ := occurs.parent
  have single : node.kind ≠ .multipleAssignment := by
    intro same
    simp [same, inRow] at parent
  have along : childEntry tree (node.cell (higher.map Covered.number) place)
      (kid.cell (some node.number) slot) =
      forwardEntry tree (node.cell (higher.map Covered.number) place)
        (kid.cell (some node.number) slot) := by
    simp only [childEntry, Covered.cell_kind]
    split <;> simp_all [inRow]
  rw [solves_entry grown occurs parentOccurs forward, along]
  simp only [forwardEntry, Covered.cell_number, grown.numbered.previousInFlow?_of_occurs occurs,
    if_neg single, Ledger.reached, passedOn]
  cases (node.kidsBefore slot).getLast? with
  | none => exact Ledger.ok_iff
  | some previous => exact Ledger.ok_iff

theorem solves_entry_first (parent : entersFirst node.kind = true) (first : slot = 0) :
    ledger.Solves tree ⟨.entry, kid.number⟩ ↔ ledger.entries kid = ledger.entries node := by
  obtain ⟨⟨higher, place, parentOccurs⟩, _⟩ := occurs.parent
  rw [solves_entry grown occurs parentOccurs forward]
  simp only [childEntry, Covered.cell_kind, Covered.cell_index, first, if_true]
  split <;> simp_all only [entersFirst, Bool.false_eq_true] <;> exact Ledger.ok_iff

theorem solves_entry_later {tracker : Tracker} (parent : laterTracker? node.kind = some tracker)
    (later : slot ≠ 0) :
    ledger.Solves tree ⟨.entry, kid.number⟩ ↔
      ledger.entries kid = ledger.hitsOn node tracker := by
  obtain ⟨⟨higher, place, parentOccurs⟩, _⟩ := occurs.parent
  have owned : tracker ∈ node.kind.trackers := by
    cases kind : node.kind <;> simp [kind, laterTracker?, Kind.trackers] at parent ⊢ <;>
      simp [← parent]
  have counted : childEntry tree (node.cell (higher.map Covered.number) place)
      (kid.cell (some node.number) slot) = hitsOf tree node.number tracker := by
    simp only [childEntry, Covered.cell_kind, Covered.cell_index, Covered.cell_number, later,
      if_false]
    split <;> simp_all [laterTracker?]
  rw [solves_entry grown occurs parentOccurs forward, counted,
    eval_hitsOf grown parentOccurs tracker owned]
  exact Ledger.ok_iff

theorem solves_entry_branch (parent : node.kind = .conditional) (later : slot ≠ 0)
    {condition : Covered} (held : node.kid? 0 = some condition) :
    ledger.Solves tree ⟨.entry, kid.number⟩ ↔ ledger.BranchLaw node condition slot kid := by
  obtain ⟨⟨higher, place, parentOccurs⟩, _⟩ := occurs.parent
  have taken : ledger.eval (hitsOf tree node.number .branch) = .ok (ledger.hitsOn node .branch) :=
    eval_hitsOf grown parentOccurs .branch (by simp [parent, Kind.trackers])
  have decided : ledger.eval (completionOf condition.number) = .ok (ledger.completions condition) :=
    Ledger.eval_completionOf condition
  rw [solves_entry grown occurs parentOccurs forward]
  simp only [childEntry, Covered.cell_kind, parent, Covered.cell_index, later, if_false,
    branchEntry, withChild, Covered.cell_child?, held, Option.map_some, Covered.cell_tracked,
    Covered.cell_number, Ledger.BranchLaw]
  cases trackedBranch Kind.conditional node.branches with
  | none =>
      by_cases second : slot = 1
      · simp only [second, if_true]
        exact Ledger.ok_iff
      · -- the condition is asked and its count dropped
        simp only [second, if_false]
        rw [Ledger.eval_after decided rfl]
        exact Ledger.ok_iff
  | some tracked =>
      by_cases same : tracked = slot
      · simp only [same, if_true]
        rw [Ledger.eval_after decided taken]
        exact Ledger.ok_iff
      · simp only [same, if_false]
        exact Ledger.eval_minus_iff decided taken

/-- Entry of a clause of a dispatch, or of its last body: from the clause in front, or from the
subject. -/
theorem solves_entry_clause (held : ledger.Held) (parent : node.kind = .caseDispatch)
    (later : slot ≠ 0) :
    ledger.Solves tree ⟨.entry, kid.number⟩ ↔
      (∀ previous ∈ (node.kidsBefore slot).getLast?, previous.kind = .whenClause →
        ledger.arithmetic.Holds (ledger.matched previous + ledger.passed previous)) ∧
      ledger.entries kid =
        passedOn
          (fun previous =>
            if previous.kind = .whenClause then ledger.passed previous
            else ledger.completions previous)
          (ledger.entries node) (node.kidsBefore slot) := by
  obtain ⟨⟨higher, place, parentOccurs⟩, _⟩ := occurs.parent
  rw [solves_entry grown occurs parentOccurs forward]
  simp only [childEntry, Covered.cell_kind, parent, Covered.cell_index, later, if_false,
    clauseEntry, Covered.cell_number, passedOn]
  rcases previous_cell grown occurs with ⟨last, absent⟩ | ⟨previous, _, index, stands, last, found⟩
  · simp only [absent, last, Ledger.eval_entryOf, Ledger.ok_iff]
    simp
  · simp only [found, last, Covered.cell_kind, Covered.cell_number]
    by_cases clause : previous.kind = .whenClause
    · simp only [clause, if_true]
      rw [eval_whenFallThrough grown stands held]
      simp [clause]
    · simp only [clause, if_false, Ledger.eval_completionOf, Ledger.ok_iff]
      simp [clause]

theorem solves_entry_body (parent : node.kind = .whenClause)
    (last : slot = node.branches.length - 1) :
    ledger.Solves tree ⟨.entry, kid.number⟩ ↔ ledger.entries kid = ledger.matched node := by
  obtain ⟨⟨higher, place, parentOccurs⟩, _⟩ := occurs.parent
  rw [solves_entry grown occurs parentOccurs forward]
  simp only [childEntry, Covered.cell_kind, parent, Covered.cell_index, whenChildEntry,
    Covered.cell_children, List.length_map, last, if_true]
  rw [eval_whenBodyEntry grown parentOccurs]
  exact Ledger.ok_iff

theorem solves_entry_first_test (parent : node.kind = .whenClause)
    (notLast : slot ≠ node.branches.length - 1) (first : slot = 0) :
    ledger.Solves tree ⟨.entry, kid.number⟩ ↔ ledger.entries kid = ledger.entries node := by
  obtain ⟨⟨higher, place, parentOccurs⟩, _⟩ := occurs.parent
  subst first
  rw [solves_entry grown occurs parentOccurs forward]
  simp only [childEntry, Covered.cell_kind, parent, Covered.cell_index, whenChildEntry,
    Covered.cell_children, List.length_map, notLast, if_false, if_true, Covered.cell_number]
  exact Ledger.ok_iff

theorem solves_entry_next_test (parent : node.kind = .whenClause)
    (notLast : slot ≠ node.branches.length - 1) (later : slot ≠ 0) {previous : Covered}
    (held : node.kid? (slot - 1) = some previous) (wraps : previous.kind.isMatcher = true) :
    ledger.Solves tree ⟨.entry, kid.number⟩ ↔
      ledger.entries kid = ledger.hitsOn previous .missed := by
  obtain ⟨⟨higher, place, parentOccurs⟩, _⟩ := occurs.parent
  have member : previous ∈ node.tests :=
    List.mem_filter.mpr ⟨Covered.mem_kids.mpr ⟨_, held⟩, wraps⟩
  rw [solves_entry grown occurs parentOccurs forward]
  simp only [childEntry, Covered.cell_kind, parent, Covered.cell_index, whenChildEntry,
    Covered.cell_children, List.length_map, notLast, later, if_false, withChild,
    Covered.cell_child?, held, Option.map_some]
  rw [eval_test_hits grown parentOccurs member (.inr rfl)]
  exact Ledger.ok_iff

theorem solves_entry_unguarded (parent : node.kind = .guarded) (later : slot ≠ 0)
    {body : Covered} (held : node.kid? 0 = some body) (noHandler : kid.kind ≠ .handler) :
    ledger.Solves tree ⟨.entry, kid.number⟩ ↔ ledger.entries kid = ledger.completions body := by
  obtain ⟨⟨higher, place, parentOccurs⟩, _⟩ := occurs.parent
  rw [solves_entry grown occurs parentOccurs forward]
  simp only [childEntry, Covered.cell_kind, parent, Covered.cell_index, later, if_false,
    guardedChildEntry, withChild, Covered.cell_child?, held, Option.map_some, noHandler]
  exact Ledger.ok_iff

theorem solves_entry_handler (parent : node.kind = .guarded) (later : slot ≠ 0)
    {body : Covered} (held : node.kid? 0 = some body) (handles : kid.kind = .handler)
    {previous : Covered} (last : (node.kidsBefore slot).getLast? = some previous) :
    ledger.Solves tree ⟨.entry, kid.number⟩ ↔
      if previous.kind = .handler then
        ledger.hitsOn previous .handlerEntry ≤ ledger.tested previous ∧
          ledger.entries kid = ledger.tested previous - ledger.hitsOn previous .handlerEntry
      else ledger.entries kid = ledger.interruptions body := by
  obtain ⟨⟨higher, place, parentOccurs⟩, _⟩ := occurs.parent
  rw [solves_entry grown occurs parentOccurs forward]
  simp only [childEntry, Covered.cell_kind, parent, Covered.cell_index, later, if_false,
    guardedChildEntry, withChild, Covered.cell_child?, held, Option.map_some, handles, if_true,
    Covered.cell_number]
  rcases previous_cell grown occurs with ⟨none, _⟩ | ⟨other, _, index, stands, same, found⟩
  · simp [none] at last
  · obtain rfl : other = previous := by simpa [same] using last
    simp only [found, Covered.cell_kind]
    by_cases chained : other.kind = .handler
    · simp only [chained, if_true, handlerUnhandled, Covered.cell_number]
      apply Ledger.eval_minus_iff
      · simp only [handlerTested, Covered.cell_child?, Ledger.tested, Covered.cell_number]
        cases other.kid? 0 <;> rfl
      · exact eval_hitsOf grown stands .handlerEntry (by simp [chained, Kind.trackers])
    · simp only [chained, if_false]
      exact Ledger.ok_iff

end Entries

section Completions

variable (grown : Grown tree) (occurs : Occurs tree.root above slot node)

include grown occurs

theorem solves_completion_chain (chain : node.kind.completion = .chain) :
    ledger.Solves tree ⟨.completion, node.number⟩ ↔
      ledger.completions node =
        passedOn ledger.completions (ledger.entries node) node.kids := by
  have single : node.kind ≠ .multipleAssignment := by
    intro same
    simp [same, Kind.completion] at chain
  rw [Ledger.Solves, rule_completion grown occurs]
  simp only [completionRule, Covered.cell_kind, chain, lastCompletion, Covered.cell_number,
    grown.numbered.lastInFlow?_of_occurs occurs, Covered.flowKids, if_neg single, passedOn]
  cases node.kids.getLast? <;> exact Ledger.ok_iff

theorem solves_completion_counted {tracker : Tracker}
    (counted : node.kind.completion = .counted tracker) :
    ledger.Solves tree ⟨.completion, node.number⟩ ↔
      ledger.completions node = ledger.hitsOn node tracker := by
  have owned : tracker ∈ node.kind.trackers := by
    cases kind : node.kind <;> simp [kind, Kind.completion, Kind.trackers] at counted ⊢ <;>
      simp [← counted]
  rw [Ledger.Solves, rule_completion grown occurs]
  simp only [completionRule, Covered.cell_kind, counted, Covered.cell_number]
  rw [eval_hitsOf grown occurs tracker owned]
  exact Ledger.ok_iff

theorem solves_completion_shortCircuit (kind : node.kind = .shortCircuit) {left right : Covered}
    (first : node.kid? 0 = some left) (second : node.kid? 1 = some right) :
    ledger.Solves tree ⟨.completion, node.number⟩ ↔
      ledger.entries right ≤ ledger.completions left ∧
        ledger.completions node = ledger.arithmetic.add
          (ledger.completions left - ledger.entries right) (ledger.completions right) := by
  rw [Ledger.Solves, rule_completion grown occurs]
  simp only [completionRule, Covered.cell_kind, kind, Kind.completion, structuralCompletion,
    shortCircuitCompletion, withChild, Covered.cell_child?, first, second, Option.map_some]
  have decided : ledger.eval (completionOf left.number) = .ok (ledger.completions left) :=
    Ledger.eval_completionOf left
  have followed : ledger.eval (entryOf right.number) = .ok (ledger.entries right) :=
    Ledger.eval_entryOf right
  constructor
  · intro solved
    obtain ⟨a, b, skipped, completed, sum⟩ := Formula.eval_plus_ok solved
    obtain ⟨enough, rfl⟩ := (Ledger.eval_minus_iff decided followed).mp skipped
    obtain rfl : ledger.completions right = b := Except.ok.inj completed
    exact ⟨enough, sum⟩
  · rintro ⟨enough, sum⟩
    rw [← Ledger.completions, sum]
    exact Ledger.eval_plus ((Ledger.eval_minus_iff decided followed).mpr ⟨enough, rfl⟩)
      (Ledger.eval_completionOf right)

theorem solves_completion_conditional (kind : node.kind = .conditional) {yes no : Covered}
    (first : node.kid? 1 = some yes) (second : node.kid? 2 = some no) :
    ledger.Solves tree ⟨.completion, node.number⟩ ↔
      ledger.completions node =
        ledger.arithmetic.add (ledger.completions yes) (ledger.completions no) := by
  rw [Ledger.Solves, rule_completion grown occurs]
  simp only [completionRule, Covered.cell_kind, kind, Kind.completion, structuralCompletion,
    childCompletion, Covered.cell_child?, first, second, Option.map_some]
  rw [Ledger.eval_plus (Ledger.eval_completionOf yes) (Ledger.eval_completionOf no)]
  exact Ledger.ok_iff

theorem rule_completion_later (kind : node.kind = .caseDispatch ∨ node.kind = .guarded) :
    rule tree ⟨.completion, node.number⟩ =
      .sum ((node.kidsAfter 0).map fun kid => completionOf kid.number) := by
  have structural : completionRule tree (node.cell (above.map Covered.number) slot) =
      laterCompletions (node.cell (above.map Covered.number) slot) := by
    rcases kind with same | same <;>
      simp [completionRule, same, Kind.completion, structuralCompletion]
  rw [rule_completion grown occurs, structural, laterCompletions, Covered.cell_children,
    ← List.map_drop, Covered.nodes_of_branches, List.map_map]
  rfl

theorem solves_completion_later (kind : node.kind = .caseDispatch ∨ node.kind = .guarded) :
    ledger.Solves tree ⟨.completion, node.number⟩ ↔
      ledger.completions node =
        ledger.arithmetic.keep ((node.kidsAfter 0).map ledger.completions).sum := by
  have total : ledger.eval (.sum ((node.kidsAfter 0).map fun kid => completionOf kid.number)) =
      .ok (ledger.arithmetic.keep ((node.kidsAfter 0).map ledger.completions).sum) :=
    Ledger.eval_sum _ _ _ fun kid _ => rfl
  rw [Ledger.Solves, rule_completion_later grown occurs kind, total]
  exact Ledger.ok_iff

theorem solves_completion_clause (kind : node.kind = .whenClause) {body : Covered}
    (held : node.kid? (node.branches.length - 1) = some body) :
    ledger.Solves tree ⟨.completion, node.number⟩ ↔
      ledger.completions node = ledger.completions body := by
  rw [Ledger.Solves, rule_completion grown occurs]
  simp only [completionRule, Covered.cell_kind, kind, Kind.completion, structuralCompletion,
    childCompletion, Covered.cell_child?, Covered.cell_children, List.length_map, held,
    Option.map_some]
  exact Ledger.ok_iff

theorem solves_completion_test (wraps : node.kind.isMatcher = true) :
    ledger.Solves tree ⟨.completion, node.number⟩ ↔
      ledger.completions node =
        ledger.arithmetic.add (ledger.hitsOn node .matched) (ledger.hitsOn node .missed) := by
  have counted (tracker : Tracker) (outcome : tracker = .matched ∨ tracker = .missed) :
      ledger.eval (hitsOf tree node.number tracker) = .ok (ledger.hitsOn node tracker) := by
    apply eval_hitsOf grown occurs
    rw [tracker_of_isMatcher wraps]
    simpa using outcome
  have structural : completionRule tree (node.cell (above.map Covered.number) slot) =
      .plus (hitsOf tree node.number .matched) (hitsOf tree node.number .missed) := by
    cases kind : node.kind <;> simp [kind, Kind.isMatcher] at wraps <;>
      simp [completionRule, kind, Kind.completion, structuralCompletion]
  rw [Ledger.Solves, rule_completion grown occurs, structural,
    Ledger.eval_plus (counted .matched (.inl rfl)) (counted .missed (.inr rfl))]
  exact Ledger.ok_iff

theorem solves_completion_handler (kind : node.kind = .handler) {body : Covered}
    (held : node.kid? 2 = some body) :
    ledger.Solves tree ⟨.completion, node.number⟩ ↔
      ledger.completions node = ledger.completions body := by
  rw [Ledger.Solves, rule_completion grown occurs]
  simp only [completionRule, Covered.cell_kind, kind, Kind.completion, structuralCompletion,
    Covered.cell_child?, held, Option.map_some]
  exact Ledger.ok_iff

end Completions

section Targets

variable (grown : Grown tree) (occurs : Occurs tree.root (some node) slot kid)

include grown occurs

theorem solves_entry_setter (setter : kid.kind = .setterTarget) :
    ledger.Solves tree ⟨.entry, kid.number⟩ ↔ ledger.entries kid = ledger.hitsOn kid .entry := by
  obtain ⟨⟨_, _, parentOccurs⟩, _⟩ := occurs.parent
  rw [Ledger.Solves, rule_entry_below grown occurs parentOccurs, if_pos setter,
    eval_hitsOf grown occurs .entry (by simp [setter, Kind.trackers])]
  exact Ledger.ok_iff

variable (alternate : kid.kind.propagation = .alternate)

include alternate

/-- A target that nothing can fail in on its own is entered as often as it completes. -/
theorem solves_entry_target (safe : kid.kind ≠ .setterTarget)
    (single : node.kind ≠ .multipleAssignment) :
    ledger.Solves tree ⟨.entry, kid.number⟩ ↔ ledger.entries kid = ledger.completions kid := by
  obtain ⟨⟨_, _, parentOccurs⟩, _⟩ := occurs.parent
  rw [Ledger.Solves, rule_entry_below grown occurs parentOccurs, if_neg safe,
    if_pos ⟨alternate, single⟩]
  exact Ledger.ok_iff

theorem solves_completion_target :
    ledger.Solves tree ⟨.completion, kid.number⟩ ↔
      ledger.completions kid = ledger.handedOn node slot := by
  rw [Ledger.Solves, rule_completion_target grown occurs alternate, Ledger.handedOn]
  cases (if node.kind = .multipleAssignment then (node.kidsBefore slot).getLast?
    else (node.kidsAfter slot).head?) <;> exact Ledger.ok_iff

end Targets

end Equations

structure Balanced (ledger : Ledger) (tree : CoverTree) : Prop where
  entry : ∀ {above slot node}, Occurs tree.root above slot node →
    ledger.Solves tree ⟨.entry, node.number⟩
  completion : ∀ {above slot node}, Occurs tree.root above slot node →
    ledger.Solves tree ⟨.completion, node.number⟩
  interruption : ∀ {above slot node}, Occurs tree.root above slot node →
    ledger.Solves tree ⟨.interruption, node.number⟩

end Flow

end ProbeCoverage
