import ProbeCoverage.Proofs.Flow.Steps

/-!
Accounts of runs. The log of a run lists its evaluations. Entries, completions and hits of a run are
sums over its log, and so are the outcomes of a node, which come from the steps of its parent's
evaluations. Numbers and slots of different nodes differ, so the sums for one node run over its own
evaluations only.
-/

namespace ProbeCoverage.Flow

open Cover

structure Evaluation where
  node : Covered
  steps : List Step
  outcome : Outcome

def Evaluation.Sound (evaluation : Evaluation) : Prop :=
  Behaves evaluation.node evaluation.steps evaluation.outcome

def hitsAt (node : Covered) (steps : List Step) (slot : Nat) : Nat :=
  steps.countP fun
    | .child _ _ => false
    | .probe tracker => node.slotOf tracker = slot

theorem hitsAt_probe (node : Covered) (tracker : Tracker) (steps : List Step) (slot : Nat) :
    hitsAt node (.probe tracker :: steps) slot =
      hitsAt node steps slot + if node.slotOf tracker = slot then 1 else 0 := by
  rw [hitsAt, List.countP_cons]
  simp [hitsAt]

theorem hitsAt_child (node kid : Covered) (outcome : Outcome) (steps : List Step) (slot : Nat) :
    hitsAt node (.child kid outcome :: steps) slot = hitsAt node steps slot := by
  rw [hitsAt, List.countP_cons]
  simp [hitsAt]

/-- Events are what some steps and the evaluations below them leave behind; `owned` are the hits of
the steps themselves. -/
structure Logged (owned : Nat → Nat) (steps : List Step) (events : List Event)
    (log : List Evaluation) : Prop where
  entered : ∀ node, events.count (.entered node) = log.countP fun e => e.node.number = node
  completed : ∀ node, events.count (.completed node) =
    log.countP fun e => e.node.number = node && completes e.node.kind e.outcome
  left : ∀ node, events.count (.left node) =
    log.countP fun e => e.node.number = node && !completes e.node.kind e.outcome
  hit : ∀ slot, events.count (.hit slot) =
    owned slot + (log.map fun e => hitsAt e.node e.steps slot).sum
  ended : ∀ node outcome, (log.countP fun e => e.node.number = node && e.outcome = outcome) =
    steps.countP (Step.ends node outcome) +
      (log.map fun e => e.steps.countP (Step.ends node outcome)).sum

namespace Logged

variable {owned : Nat → Nat} {steps inner : List Step} {events below : List Event}
variable {log belowLog : List Evaluation}

theorem nil : Logged (fun _ => 0) [] [] [] := by
  constructor <;> intros <;> rfl

theorem probe {node : Covered} {tracker : Tracker}
    (logged : Logged (hitsAt node steps) steps events log) :
    Logged (hitsAt node (.probe tracker :: steps)) (.probe tracker :: steps)
      (.hit (node.slotOf tracker) :: events) log where
  entered id := by simpa using logged.entered id
  completed id := by simpa using logged.completed id
  left id := by simpa using logged.left id
  hit slot := by
    rw [List.count_cons, logged.hit, hitsAt_probe]
    simp only [beq_iff_eq, Event.hit.injEq]
    omega
  ended id outcome := by
    rw [logged.ended, List.countP_cons]
    simp [Step.ends]

theorem child {kid : Covered} {outcome : Outcome}
    (inside : Logged (hitsAt kid inner) inner below belowLog)
    (after : Logged owned steps events log) :
    Logged owned (.child kid outcome :: steps) (enclose kid outcome below ++ events)
      (⟨kid, inner, outcome⟩ :: (belowLog ++ log)) where
  entered id := by
    have ends : [ending kid outcome].count (.entered id) = 0 := by
      unfold ending
      split <;> rfl
    rw [enclose, List.cons_append, List.count_cons, List.count_append, List.count_append,
      inside.entered, after.entered, ends, List.countP_cons, List.countP_append]
    simp
  completed id := by
    rw [enclose, List.cons_append, List.count_cons, List.count_append, List.count_append,
      inside.completed, after.completed, List.countP_cons, List.countP_append]
    cases full : completes kid.kind outcome <;> simp [ending, full, List.count_cons]
    omega
  left id := by
    rw [enclose, List.cons_append, List.count_cons, List.count_append, List.count_append,
      inside.left, after.left, List.countP_cons, List.countP_append]
    cases full : completes kid.kind outcome <;> simp [ending, full, List.count_cons]
    omega
  hit slot := by
    have ends : [ending kid outcome].count (.hit slot) = 0 := by
      unfold ending
      split <;> rfl
    rw [enclose, List.cons_append, List.count_cons, List.count_append, List.count_append,
      inside.hit, after.hit, ends, List.map_cons, List.sum_cons, List.map_append, List.sum_append]
    simp
    omega
  ended id other := by
    rw [List.countP_cons, List.countP_append, inside.ended, after.ended, List.countP_cons,
      List.map_cons, List.sum_cons, List.map_append, List.sum_append]
    by_cases same : kid.number = id <;> by_cases alike : outcome = other <;>
      simp [Step.ends, same, alike] <;> omega

end Logged

section Logs

variable {tree : CoverTree} {node : Covered} {steps : List Step} {events : List Event}

def Faithful (tree : CoverTree) (log : List Evaluation) : Prop :=
  ∀ e ∈ log, e.Sound ∧ ∃ above slot, Occurs tree.root above slot e.node

theorem Plays.logged (plays : Plays node steps events) {above : Option Covered} {slot : Nat}
    (occurs : Occurs tree.root above slot node) (owned : ∀ step ∈ steps, step.OwnedBy node) :
    ∃ log, Logged (hitsAt node steps) steps events log ∧ Faithful tree log := by
  induction plays generalizing above slot with
  | nil node => exact ⟨[], .nil, by simp [Faithful]⟩
  | probe tracker _ ih =>
      obtain ⟨log, logged, faithful⟩ := ih occurs (List.forall_mem_cons.mp owned).2
      exact ⟨log, logged.probe, faithful⟩
  | @child node kid outcome inner steps below events behaves _ _ ihBelow ihAfter =>
      obtain ⟨inside, later⟩ := List.forall_mem_cons.mp owned
      obtain ⟨place, held⟩ := Covered.mem_kids.mp inside
      have stands : Occurs tree.root (some node) place kid := .child place occurs held
      obtain ⟨belowLog, belowLogged, belowFaithful⟩ := ihBelow stands behaves.owned
      obtain ⟨log, logged, faithful⟩ := ihAfter occurs later
      have hitsSame : hitsAt node (.child kid outcome :: steps) = hitsAt node steps := by
        funext place
        exact hitsAt_child node kid outcome steps place
      refine ⟨_, hitsSame ▸ belowLogged.child logged, ?_⟩
      refine List.forall_mem_cons.mpr ⟨⟨behaves, _, _, stands⟩, ?_⟩
      exact List.forall_mem_append.mpr ⟨belowFaithful, faithful⟩

/-- Runs of a program evaluate nothing but the root from outside. -/
theorem History.logged (history : History tree.root events) :
    ∃ steps log, (∀ step ∈ steps, ∃ outcome, step = .child tree.root outcome) ∧
      Logged (fun _ => 0) steps events log ∧ Faithful tree log := by
  induction history with
  | nil => exact ⟨[], [], by simp, .nil, by simp [Faithful]⟩
  | @run inner outcome below events behaves plays _ ih =>
      obtain ⟨belowLog, belowLogged, belowFaithful⟩ := plays.logged .top behaves.owned
      obtain ⟨steps, log, roots, logged, faithful⟩ := ih
      refine ⟨.child tree.root outcome :: steps, _, ?_, belowLogged.child logged, ?_⟩
      · exact List.forall_mem_cons.mpr ⟨⟨outcome, rfl⟩, roots⟩
      · refine List.forall_mem_cons.mpr ⟨⟨behaves, _, _, .top⟩, ?_⟩
        exact List.forall_mem_append.mpr ⟨belowFaithful, faithful⟩

end Logs

def evaluationsOf (log : List Evaluation) (node : Covered) : List Evaluation :=
  log.filter fun e => e.node.number = node.number

def total (evaluations : List Evaluation) (number : Evaluation → Nat) : Nat :=
  (evaluations.map number).sum

def ended (log : List Evaluation) (outcome : Outcome) (node : Covered) : Nat :=
  (evaluationsOf log node).countP fun e => e.outcome = outcome

def ledgerOf (hits : Probe.Hits) (events : List Event) : Ledger where
  hits := hits
  told := none
  arithmetic := .exact
  value query :=
    match query.measure with
    | .entry => events.count (.entered query.node)
    | .completion => events.count (.completed query.node)
    | .interruption => events.count (.left query.node)
    | .execution => 0

/-- The ledger is the sum of the evaluations, node by node. -/
structure Account (tree : CoverTree) (ledger : Ledger) (log : List Evaluation) : Prop where
  untold : ledger.told = none
  exact : ledger.arithmetic = .exact
  behaves : ∀ {above slot node}, Occurs tree.root above slot node →
    ∀ e ∈ evaluationsOf log node, Behaves node e.steps e.outcome
  entries : ∀ node, ledger.entries node = (evaluationsOf log node).length
  completions : ∀ {above slot node}, Occurs tree.root above slot node →
    ledger.completions node =
      (evaluationsOf log node).countP fun e => completes node.kind e.outcome
  interruptions : ∀ {above slot node}, Occurs tree.root above slot node →
    ledger.interruptions node =
      (evaluationsOf log node).countP fun e => !completes node.kind e.outcome
  hitsOn : ∀ {above slot node tracker}, Occurs tree.root above slot node →
    tracker ∈ node.kind.trackers →
    ledger.hitsOn node tracker =
      total (evaluationsOf log node) fun e => hitsIn e.steps tracker
  endings : ∀ {slot node kid}, Occurs tree.root (some node) slot kid → ∀ outcome,
    ended log outcome kid =
      total (evaluationsOf log node) fun e => endedIn e.steps outcome kid

theorem Account.keep_eq {tree : CoverTree} {ledger : Ledger} {log : List Evaluation}
    (account : Account tree ledger log) (n : Nat) : ledger.arithmetic.keep n = n := by
  rw [account.exact, Arithmetic.keep_exact]

theorem Account.add_eq {tree : CoverTree} {ledger : Ledger} {log : List Evaluation}
    (account : Account tree ledger log) (a b : Nat) : ledger.arithmetic.add a b = a + b :=
  account.keep_eq (a + b)

section Accounts

variable {tree : CoverTree} {node kid : Covered} {above : Option Covered} {slot : Nat}
variable {log : List Evaluation}

theorem sum_filter {α : Type} (items : List α) (keep : α → Bool) (number other : α → Nat)
    (same : ∀ item ∈ items, number item = if keep item then other item else 0) :
    (items.map number).sum = ((items.filter keep).map other).sum := by
  induction items with
  | nil => rfl
  | cons item rest ih =>
      have later := ih fun other member => same other (List.mem_cons_of_mem _ member)
      rw [List.map_cons, List.sum_cons, later, same item List.mem_cons_self, List.filter_cons]
      cases keep item <;> simp

theorem Faithful.node_eq (faithful : Faithful tree log) (grown : Grown tree)
    (occurs : Occurs tree.root above slot node) :
    ∀ e ∈ evaluationsOf log node, e.node = node ∧ Behaves node e.steps e.outcome := by
  intro e member
  obtain ⟨inside, same⟩ := List.mem_filter.mp member
  obtain ⟨sound, _, _, stands⟩ := faithful e inside
  have equal := grown.unique stands occurs (by simpa using same)
  exact ⟨equal, equal ▸ sound⟩

theorem Faithful.countP_kind (faithful : Faithful tree log) (grown : Grown tree)
    (occurs : Occurs tree.root above slot node) (test : Kind → Outcome → Bool) :
    (log.countP fun e => e.node.number = node.number && test e.node.kind e.outcome) =
      (evaluationsOf log node).countP fun e => test node.kind e.outcome := by
  rw [evaluationsOf, List.countP_filter]
  apply List.countP_congr
  intro e member
  by_cases same : e.node.number = node.number
  · have equal := (faithful.node_eq grown occurs e
      (List.mem_filter.mpr ⟨member, by simpa using same⟩)).1
    simp [equal]
  · simp [same]

theorem hitsAt_own (grown : Grown tree) (occurs : Occurs tree.root above slot node)
    {tracker : Tracker} (owned : tracker ∈ node.kind.trackers) {steps : List Step}
    (own : ∀ step ∈ steps, step.OwnedBy node) :
    hitsAt node steps (node.slotOf tracker) = hitsIn steps tracker := by
  apply List.countP_congr
  intro step member
  cases step with
  | child => rfl
  | probe counter =>
      have held : counter ∈ node.kind.trackers := own _ member
      simp only [Step.hits, decide_eq_true_eq]
      constructor
      · intro same
        exact (grown.unique_slot occurs occurs held owned same).2
      · intro same
        rw [same]

theorem hitsAt_other (grown : Grown tree) (occurs : Occurs tree.root above slot node)
    {other : Covered} {around : Option Covered} {place : Nat}
    (otherOccurs : Occurs tree.root around place other) (different : other.number ≠ node.number)
    {tracker : Tracker} (owned : tracker ∈ node.kind.trackers) {steps : List Step}
    (own : ∀ step ∈ steps, step.OwnedBy other) :
    hitsAt other steps (node.slotOf tracker) = 0 := by
  apply List.countP_eq_zero.mpr
  intro step member
  cases step with
  | child => simp
  | probe counter =>
      intro same
      have equal := grown.unique_slot otherOccurs occurs (own _ member) owned (by simpa using same)
      exact different (by rw [equal.1])

theorem ended_below (grown : Grown tree) (occurs : Occurs tree.root (some node) slot kid)
    {other : Covered} {around : Option Covered} {place : Nat}
    (otherOccurs : Occurs tree.root around place other) (different : other.number ≠ node.number)
    {steps : List Step} (own : ∀ step ∈ steps, step.OwnedBy other) (outcome : Outcome) :
    endedIn steps outcome kid = 0 := by
  apply List.countP_eq_zero.mpr
  intro step member
  cases step with
  | probe => simp [Step.ends]
  | child inner found =>
      intro same
      obtain ⟨index, held⟩ := Covered.mem_kids.mp (own _ member)
      have number : inner.number = kid.number := (by simpa [Step.ends] using same :
        inner.number = kid.number ∧ found = outcome).1
      have parents := grown.unique_parent (.child index otherOccurs held) occurs number
      exact different (by rw [parents])

theorem Faithful.hits_total (faithful : Faithful tree log) (grown : Grown tree)
    (occurs : Occurs tree.root above slot node) {tracker : Tracker}
    (owned : tracker ∈ node.kind.trackers) :
    (log.map fun e => hitsAt e.node e.steps (node.slotOf tracker)).sum =
      total (evaluationsOf log node) fun e => hitsIn e.steps tracker := by
  apply sum_filter
  intro e member
  obtain ⟨sound, _, _, stands⟩ := faithful e member
  by_cases same : e.node.number = node.number
  · obtain rfl := grown.unique stands occurs same
    simp [hitsAt_own grown occurs owned sound.owned]
  · simp [same, hitsAt_other grown occurs stands same owned sound.owned]

theorem Faithful.ended_total (faithful : Faithful tree log) (grown : Grown tree)
    (occurs : Occurs tree.root (some node) slot kid) (outcome : Outcome) :
    (log.map fun e => endedIn e.steps outcome kid).sum =
      total (evaluationsOf log node) fun e => endedIn e.steps outcome kid := by
  apply sum_filter
  intro e member
  obtain ⟨sound, _, _, stands⟩ := faithful e member
  by_cases same : e.node.number = node.number
  · simp [same]
  · simp [same, ended_below grown occurs stands same sound.owned]

/-- Every history has an account. -/
theorem History.account {events : List Event} (grown : Grown tree)
    (history : History tree.root events) {hits : Probe.Hits}
    (recorded : ∀ slot, hits.get slot = events.count (.hit slot)) :
    ∃ log, Account tree (ledgerOf hits events) log := by
  obtain ⟨steps, log, roots, logged, faithful⟩ := history.logged
  refine ⟨log, rfl, rfl, ?_, ?_, ?_, ?_, ?_, ?_⟩
  · intro above slot node occurs e member
    exact (faithful.node_eq grown occurs e member).2
  · intro node
    exact (logged.entered node.number).trans (by rw [evaluationsOf, List.countP_eq_length_filter])
  · intro above slot node occurs
    exact (logged.completed node.number).trans (faithful.countP_kind grown occurs completes)
  · intro above slot node occurs
    exact (logged.left node.number).trans
      (faithful.countP_kind grown occurs fun kind outcome => !completes kind outcome)
  · intro above slot node tracker occurs owned
    rw [Ledger.hitsOn, ledgerOf, recorded, logged.hit, Nat.zero_add]
    exact faithful.hits_total grown occurs owned
  · intro slot node kid occurs outcome
    -- runs are started at the root, which is no one's child
    have outside : steps.countP (Step.ends kid.number outcome) = 0 := by
      apply List.countP_eq_zero.mpr
      intro step member
      obtain ⟨found, rfl⟩ := roots step member
      simp [Step.ends, (grown.root_not_below occurs).symm]
    have own : ended log outcome kid =
        log.countP fun e => e.node.number = kid.number && e.outcome = outcome := by
      rw [ended, evaluationsOf, List.countP_filter]
      simp only [Bool.and_comm]
    rw [own, logged.ended, outside, Nat.zero_add]
    exact faithful.ended_total grown occurs outcome

end Accounts

end ProbeCoverage.Flow
