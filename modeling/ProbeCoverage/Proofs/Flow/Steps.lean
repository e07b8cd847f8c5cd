import ProbeCoverage.Proofs.Flow.Ledger
import ProbeCoverage.Proofs.Flow.Runs

/-!
What one evaluation of a node counts: how often it starts a child, how often the child ends in each
way, and how often it hits a counter. For each construct these numbers are bound by equations of the
same form as the rules, with one evaluation in the place of all of them.
-/

namespace ProbeCoverage.Flow

open Cover

def Step.starts (node : Nat) : Step → Bool
  | .child kid _ => kid.number = node
  | .probe _ => false

def Step.ends (node : Nat) (outcome : Outcome) : Step → Bool
  | .child kid found => kid.number = node && found = outcome
  | .probe _ => false

def Step.hits (tracker : Tracker) : Step → Bool
  | .child _ _ => false
  | .probe found => found = tracker

def startedIn (steps : List Step) (kid : Covered) : Nat := steps.countP (Step.starts kid.number)

def endedIn (steps : List Step) (outcome : Outcome) (kid : Covered) : Nat :=
  steps.countP (Step.ends kid.number outcome)

def hitsIn (steps : List Step) (tracker : Tracker) : Nat := steps.countP (Step.hits tracker)

section Counts

variable (kid other : Covered) (outcome found : Outcome) (tracker counter : Tracker)
variable (steps rest : List Step) (probes : List Tracker)

@[simp] theorem startedIn_nil : startedIn [] kid = 0 := rfl

@[simp] theorem startedIn_child :
    startedIn (.child other found :: steps) kid =
      startedIn steps kid + if other.number = kid.number then 1 else 0 := by
  simp [startedIn, List.countP_cons, Step.starts]

@[simp] theorem startedIn_probe :
    startedIn (.probe tracker :: steps) kid = startedIn steps kid := by
  simp [startedIn, Step.starts]

@[simp] theorem startedIn_append :
    startedIn (steps ++ rest) kid = startedIn steps kid + startedIn rest kid :=
  List.countP_append

@[simp] theorem startedIn_probes : startedIn (probes.map .probe) kid = 0 := by
  induction probes <;> simp_all

@[simp] theorem endedIn_nil : endedIn [] outcome kid = 0 := rfl

@[simp] theorem endedIn_child :
    endedIn (.child other found :: steps) outcome kid =
      endedIn steps outcome kid + if other.number = kid.number ∧ found = outcome then 1 else 0 := by
  simp [endedIn, List.countP_cons, Step.ends]

@[simp] theorem endedIn_probe :
    endedIn (.probe tracker :: steps) outcome kid = endedIn steps outcome kid := by
  simp [endedIn, Step.ends]

@[simp] theorem endedIn_append :
    endedIn (steps ++ rest) outcome kid = endedIn steps outcome kid + endedIn rest outcome kid :=
  List.countP_append

@[simp] theorem endedIn_probes : endedIn (probes.map .probe) outcome kid = 0 := by
  induction probes <;> simp_all

@[simp] theorem hitsIn_nil : hitsIn [] tracker = 0 := rfl

@[simp] theorem hitsIn_child :
    hitsIn (.child other found :: steps) tracker = hitsIn steps tracker := by
  simp [hitsIn, Step.hits]

@[simp] theorem hitsIn_probe :
    hitsIn (.probe counter :: steps) tracker =
      hitsIn steps tracker + if counter = tracker then 1 else 0 := by
  simp [hitsIn, List.countP_cons, Step.hits]

@[simp] theorem hitsIn_append :
    hitsIn (steps ++ rest) tracker = hitsIn steps tracker + hitsIn rest tracker :=
  List.countP_append

@[simp] theorem hitsIn_probes : hitsIn (probes.map .probe) tracker = probes.count tracker := by
  induction probes with
  | nil => rfl
  | cons probe rest ih => simp [ih, List.count_cons]

theorem startedIn_eq :
    startedIn steps kid =
      endedIn steps .done kid + endedIn steps .interrupted kid + endedIn steps .passed kid := by
  induction steps with
  | nil => rfl
  | cons step rest ih =>
      cases step with
      | probe tracker => simpa using ih
      | child inner found =>
          simp only [startedIn_child, endedIn_child, ih]
          by_cases same : inner.number = kid.number <;> cases found <;> simp [same] <;> omega

theorem endedIn_of_startedIn {steps kid} (never : startedIn steps kid = 0) :
    endedIn steps outcome kid = 0 := by
  have parts := startedIn_eq kid steps
  cases outcome <;> omega

end Counts

section Turns

variable {onward : Covered → Outcome} {finish outcome : Outcome} {kids : List Covered}
variable {steps : List Step}

theorem passedOn_congr {through other : Covered → Nat} {start begun : Nat} {nodes : List Covered}
    (same : ∀ node ∈ nodes, through node = other node) (starts : start = begun) :
    passedOn through start nodes = passedOn other begun nodes := by
  unfold passedOn
  cases last : nodes.getLast? with
  | none => exact starts
  | some node => exact same node (List.mem_of_getLast? last)

theorem passedOn_zero {through : Covered → Nat} {nodes : List Covered}
    (nothing : ∀ node ∈ nodes, through node = 0) : passedOn through 0 nodes = 0 := by
  unfold passedOn
  cases last : nodes.getLast? with
  | none => rfl
  | some node => exact nothing node (List.mem_of_getLast? last)

theorem number_ne_of_outside {first node : Covered}
    (outside : first.number ∉ kids.map Covered.number) (member : node ∈ kids) :
    first.number ≠ node.number :=
  (ne_of_mem_of_not_mem (List.mem_map_of_mem member) outside).symm

namespace InTurn

theorem startedIn_outside (turn : InTurn onward finish kids steps outcome) {kid : Covered}
    (outside : kid.number ∉ kids.map Covered.number) : startedIn steps kid = 0 := by
  induction turn with
  | finish => rfl
  | stop inner rest _ =>
      simp only [List.map_cons, List.mem_cons, not_or] at outside
      simp [Ne.symm outside.1]
  | next inner _ ih =>
      simp only [List.map_cons, List.mem_cons, not_or] at outside
      simp [Ne.symm outside.1, ih outside.2]

theorem endedIn_outside (turn : InTurn onward finish kids steps outcome) {kid : Covered}
    (outside : kid.number ∉ kids.map Covered.number) (found : Outcome) :
    endedIn steps found kid = 0 :=
  endedIn_of_startedIn found (turn.startedIn_outside outside)

theorem hitsIn_eq_zero (turn : InTurn onward finish kids steps outcome) (tracker : Tracker) :
    hitsIn steps tracker = 0 := by
  induction turn with
  | finish => rfl
  | stop => simp
  | next _ _ ih => simpa using ih

section Distinct

variable {first : Covered} {rest : List Covered}
variable (distinct : first.number ∉ rest.map Covered.number)

include distinct

theorem endedIn_later (ended found : Outcome) {node : Covered} (member : node ∈ rest) :
    endedIn (.child first ended :: steps) found node = endedIn steps found node := by
  simp [number_ne_of_outside distinct member]

theorem passedOn_next (turn : InTurn onward finish rest steps outcome) {nodes : List Covered}
    (inside : ∀ node ∈ nodes, node ∈ rest) :
    passedOn (fun node => endedIn (.child first (onward first) :: steps) (onward node) node) 1
        (first :: nodes) =
      passedOn (fun node => endedIn steps (onward node) node) 1 nodes := by
  rw [passedOn_cons]
  apply passedOn_congr
  · intro node member
    exact endedIn_later distinct _ _ (inside node member)
  · simp [turn.endedIn_outside distinct]

theorem passedOn_stop (stopped : outcome ≠ onward first) {nodes : List Covered}
    (inside : ∀ node ∈ nodes, node ∈ rest) :
    passedOn (fun node => endedIn [.child first outcome] (onward node) node) 1 (first :: nodes) =
      0 := by
  have ends : endedIn [.child first outcome] (onward first) first = 0 := by simp [stopped]
  rw [passedOn_cons, ends]
  apply passedOn_zero
  intro node member
  exact endedIn_later distinct _ _ (inside node member)

end Distinct

theorem startedIn_eq (turn : InTurn onward finish kids steps outcome)
    (distinct : (kids.map Covered.number).Nodup) {before after : List Covered} {kid : Covered}
    (split : kids = before ++ kid :: after) :
    startedIn steps kid = passedOn (fun node => endedIn steps (onward node) node) 1 before := by
  induction turn generalizing before with
  | finish => simp at split
  | stop first rest stopped =>
      rw [List.map_cons, List.nodup_cons] at distinct
      cases before with
      | nil =>
          obtain ⟨rfl, rfl⟩ := List.cons.inj split
          simp [passedOn]
      | cons front before =>
          -- the turn ended in front of the node
          obtain ⟨rfl, rfl⟩ := List.cons.inj split
          have apart : first.number ≠ kid.number := fun same => distinct.1 (by simp [same])
          rw [passedOn_stop distinct.1 stopped (by simp +contextual)]
          simp [apart]
  | next first turn ih =>
      rw [List.map_cons, List.nodup_cons] at distinct
      cases before with
      | nil =>
          obtain ⟨rfl, rfl⟩ := List.cons.inj split
          simp [passedOn, turn.startedIn_outside distinct.1]
      | cons front before =>
          obtain ⟨rfl, rfl⟩ := List.cons.inj split
          have apart : first.number ≠ kid.number := fun same => distinct.1 (by simp [same])
          rw [passedOn_next distinct.1 turn (by simp +contextual), ← ih distinct.2 rfl]
          simp [apart]

theorem finished (turn : InTurn (fun _ => finish) finish kids steps outcome)
    (distinct : (kids.map Covered.number).Nodup) :
    (if outcome = finish then 1 else 0) = passedOn (endedIn steps finish) 1 kids := by
  induction turn with
  | finish => simp [passedOn]
  | stop first rest stopped =>
      rw [List.map_cons, List.nodup_cons] at distinct
      rw [if_neg stopped]
      exact (passedOn_stop distinct.1 stopped fun _ member => member).symm
  | next first turn ih =>
      rw [List.map_cons, List.nodup_cons] at distinct
      rw [ih distinct.2]
      exact (passedOn_next distinct.1 turn fun _ member => member).symm

theorem stopped (turn : InTurn (fun _ => finish) finish kids steps outcome)
    (distinct : (kids.map Covered.number).Nodup) {found : Outcome} (different : found ≠ finish) :
    (if outcome = found then 1 else 0) = (kids.map (endedIn steps found)).sum := by
  induction turn with
  | finish => simp [different.symm]
  | stop first rest _ =>
      rw [List.map_cons, List.nodup_cons] at distinct
      rw [List.map_cons, List.sum_cons, List.map_congr_left fun node member =>
        endedIn_later distinct.1 _ found member]
      simp
  | next first turn ih =>
      rw [List.map_cons, List.nodup_cons] at distinct
      rw [ih distinct.2, List.map_cons, List.sum_cons, List.map_congr_left fun node member =>
        endedIn_later distinct.1 _ found member]
      simp [turn.endedIn_outside distinct.1, different.symm]

end InTurn

end Turns

section Owners

variable {node : Covered} {kids : List Covered} {steps : List Step} {outcome : Outcome}

def Step.OwnedBy (node : Covered) : Step → Prop
  | .child kid _ => kid ∈ node.kids
  | .probe tracker => tracker ∈ node.kind.trackers

theorem InTurn.owned {onward : Covered → Outcome} {finish : Outcome}
    (turn : InTurn onward finish kids steps outcome) (inside : ∀ kid ∈ kids, kid ∈ node.kids) :
    ∀ step ∈ steps, step.OwnedBy node := by
  induction turn with
  | finish => simp
  | stop kid rest _ =>
      intro step member
      rw [List.mem_singleton.mp member]
      exact inside kid List.mem_cons_self
  | next kid _ ih =>
      intro step member
      rcases List.mem_cons.mp member with rfl | later
      · exact inside kid List.mem_cons_self
      · exact ih (fun other inner => inside other (List.mem_cons_of_mem _ inner)) step later

theorem firstDone_owned : ∀ step ∈ firstDone node, step.OwnedBy node := by
  intro step member
  obtain ⟨kid, held, rfl⟩ := List.mem_map.mp member
  exact Covered.mem_kids.mpr ⟨0, by simpa using held⟩

theorem verdicts_owned {kind : Kind} {probes : List Tracker}
    (verdict : (probes, outcome) ∈ verdicts kind) :
    ∀ tracker ∈ probes, tracker ∈ kind.trackers := by
  cases kind <;> simp [verdicts] at verdict <;> simp_all [Kind.trackers]
  all_goals rcases verdict with ⟨rfl, _⟩ | ⟨rfl, _⟩ | ⟨rfl, _⟩ <;> simp

theorem kid_owned {slot : Nat} {kid : Covered} (held : node.kid? slot = some kid) :
    (Step.child kid outcome).OwnedBy node :=
  Covered.mem_kids.mpr ⟨slot, held⟩

theorem mem_kids_of_mem_kidsOfKind (kind : Kind) : ∀ kid ∈ node.kidsOfKind kind, kid ∈ node.kids :=
  fun _ member => (List.mem_filter.mp member).1

theorem mem_kids_of_mem_tests : ∀ kid ∈ node.tests, kid ∈ node.kids :=
  fun _ member => (List.mem_filter.mp member).1

theorem Starts.owned (kind : node.kind = .root) (behaves : Starts node steps outcome) :
    ∀ step ∈ steps, step.OwnedBy node := by
  have counter : (Step.probe .root).OwnedBy node := by
    simp [Step.OwnedBy, kind, Kind.trackers]
  cases behaves with
  | program held _ => simp [kid_owned held, counter]

theorem ShortCircuits.owned (kind : node.kind = .shortCircuit)
    (behaves : ShortCircuits node steps outcome) : ∀ step ∈ steps, step.OwnedBy node := by
  have counter : (Step.probe .rightOperand).OwnedBy node := by
    simp [Step.OwnedBy, kind, Kind.trackers]
  cases behaves with
  | stops left | decides left => simp [kid_owned left]
  | goesOn left right _ => simp [kid_owned left, kid_owned right, counter]

theorem Chooses.owned (kind : node.kind = .conditional) (behaves : Chooses node steps outcome) :
    ∀ step ∈ steps, step.OwnedBy node := by
  have counter : (Step.probe .branch).OwnedBy node := by
    simp [Step.OwnedBy, kind, Kind.trackers]
  cases behaves with
  | stops condition => simp [kid_owned condition]
  | counted condition _ branch _ _ => simp [kid_owned condition, kid_owned branch, counter]
  | uncounted condition _ branch _ _ _ => simp [kid_owned condition, kid_owned branch]

theorem Dispatches.owned (behaves : Dispatches node steps outcome) :
    ∀ step ∈ steps, step.OwnedBy node := by
  cases behaves with
  | stops subject => simp [kid_owned subject]
  | goesOn tried _ =>
      refine List.forall_mem_append.mpr ⟨firstDone_owned, tried.owned ?_⟩
      refine List.forall_mem_append.mpr ⟨mem_kids_of_mem_kidsOfKind _, ?_⟩
      intro kid last
      exact Covered.mem_kids.mpr ⟨_, show node.last? = some kid by simpa using last⟩

theorem Matches.owned (behaves : Matches node steps outcome) :
    ∀ step ∈ steps, step.OwnedBy node := by
  cases behaves with
  | misses tried _ => exact tried.owned mem_kids_of_mem_tests
  | runs tried body _ =>
      refine List.forall_mem_append.mpr ⟨tried.owned mem_kids_of_mem_tests, ?_⟩
      simp [kid_owned body]

theorem Guards.owned (behaves : Guards node steps outcome) :
    ∀ step ∈ steps, step.OwnedBy node := by
  cases behaves with
  | unharmed body last _ => simp [kid_owned body, kid_owned last]
  | handled body tried _ | unhandled body tried =>
      exact List.forall_mem_cons.mpr
        ⟨kid_owned body, tried.owned (mem_kids_of_mem_kidsOfKind _)⟩

theorem Handles.owned (kind : node.kind = .handler) (behaves : Handles node steps outcome) :
    ∀ step ∈ steps, step.OwnedBy node := by
  have counter : (Step.probe .handlerEntry).OwnedBy node := by
    simp [Step.OwnedBy, kind, Kind.trackers]
  cases behaves with
  | stops exceptions => simp [kid_owned exceptions]
  | passes => exact firstDone_owned
  | runs body row _ =>
      refine List.forall_mem_append.mpr
        ⟨firstDone_owned, List.forall_mem_cons.mpr ⟨counter, row.owned ?_⟩⟩
      intro kid member
      rcases List.mem_append.mp member with assigned | last
      · exact Covered.mem_kids.mpr ⟨1, by simpa using assigned⟩
      · rw [List.mem_singleton.mp last]
        exact Covered.mem_kids.mpr ⟨2, body⟩

theorem Assigns.owned (kind : node.kind = .operatorAssignment ∨ node.kind = .booleanAssignment)
    (behaves : Assigns node steps outcome) : ∀ step ∈ steps, step.OwnedBy node := by
  have stores : (Step.probe .completion).OwnedBy node := by
    rcases kind with kind | kind <;> simp [Step.OwnedBy, kind, Kind.trackers]
  have counter {tracker : Tracker} (counted : valueTracker? node.kind = some tracker) :
      (Step.probe tracker).OwnedBy node := by
    rcases kind with kind | kind <;>
      simp only [kind, valueTracker?, Option.some.injEq] at counted <;>
      simp [Step.OwnedBy, kind, Kind.trackers, ← counted]
  cases behaves with
  | stops target => simp [kid_owned target]
  | unread => exact firstDone_owned
  | keeps _ => exact List.forall_mem_append.mpr ⟨firstDone_owned, by simp [stores]⟩
  | valueStops counted value | refused counted value | assigns counted value =>
      refine List.forall_mem_append.mpr ⟨firstDone_owned, ?_⟩
      simp [counter counted, kid_owned value, stores]

theorem Evaluates.owned (behaves : Evaluates node steps outcome) :
    ∀ step ∈ steps, step.OwnedBy node := by
  cases behaves with
  | stops _ row => exact row.owned fun _ member => member
  | ends row verdict =>
      refine List.forall_mem_append.mpr ⟨row.owned fun _ member => member, ?_⟩
      simpa [Step.OwnedBy] using verdicts_owned verdict

theorem Behaves.owned (behaves : Behaves node steps outcome) :
    ∀ step ∈ steps, step.OwnedBy node := by
  unfold Behaves at behaves
  split at behaves
  · exact Starts.owned ‹_› behaves
  · exact ShortCircuits.owned ‹_› behaves
  · exact Chooses.owned ‹_› behaves
  · exact Dispatches.owned behaves
  · exact Matches.owned behaves
  · exact Guards.owned behaves
  · exact Handles.owned ‹_› behaves
  · exact Assigns.owned (.inl ‹_›) behaves
  · exact Assigns.owned (.inr ‹_›) behaves
  · exact Evaluates.owned behaves

end Owners

section Constructs

variable {node : Covered} {steps : List Step} {outcome : Outcome}

theorem Starts.counts (starts : Starts node steps outcome) :
    ∃ program, node.kid? 0 = some program ∧ hitsIn steps .root = 1 ∧ startedIn steps program = 1 ∧
      (if outcome = .done then 1 else 0) = endedIn steps .done program := by
  cases starts with
  | program held _ => exact ⟨_, held, by simp⟩

theorem ShortCircuits.counts (behaves : ShortCircuits node steps outcome) {left right : Covered}
    (first : node.kid? 0 = some left) (second : node.kid? 1 = some right)
    (apart : left.number ≠ right.number) :
    startedIn steps left = 1 ∧ startedIn steps right = hitsIn steps .rightOperand ∧
      startedIn steps right ≤ endedIn steps .done left ∧
      (if outcome = .done then 1 else 0) + startedIn steps right =
        endedIn steps .done left + endedIn steps .done right := by
  cases behaves with
  | stops stands =>
      obtain rfl := Option.some.inj (first.symm.trans stands)
      simp [apart]
  | decides stands =>
      obtain rfl := Option.some.inj (first.symm.trans stands)
      simp [apart]
  | goesOn stands follows _ =>
      obtain rfl := Option.some.inj (first.symm.trans stands)
      obtain rfl := Option.some.inj (second.symm.trans follows)
      simp [apart, apart.symm]
      omega

theorem Chooses.counts (behaves : Chooses node steps outcome) {condition yes no : Covered}
    (held : node.kid? 0 = some condition) (first : node.kid? 1 = some yes)
    (second : node.kid? 2 = some no) (apart : [condition.number, yes.number, no.number].Nodup) :
    startedIn steps condition = 1 ∧
      startedIn steps yes + startedIn steps no = endedIn steps .done condition ∧
      (if outcome = .done then 1 else 0) = endedIn steps .done yes + endedIn steps .done no ∧
      (trackedBranch node.kind node.branches = some 1 →
        startedIn steps yes = hitsIn steps .branch) ∧
      (trackedBranch node.kind node.branches = some 2 →
        startedIn steps no = hitsIn steps .branch) ∧
      (trackedBranch node.kind node.branches = none → startedIn steps no = 0) := by
  simp only [List.nodup_cons, List.mem_cons, not_or] at apart
  obtain ⟨⟨conditionYes, conditionNo, _⟩, ⟨yesNo, _⟩, _⟩ := apart
  cases behaves with
  | stops stands =>
      obtain rfl := Option.some.inj (held.symm.trans stands)
      simp [conditionYes, conditionNo]
  | counted stands place branch tracked _ =>
      obtain rfl := Option.some.inj (held.symm.trans stands)
      rcases place with rfl | rfl
      · obtain rfl := Option.some.inj (first.symm.trans branch)
        simp [conditionYes, Ne.symm conditionYes, conditionNo, yesNo, tracked]
      · obtain rfl := Option.some.inj (second.symm.trans branch)
        simp [conditionYes, conditionNo, Ne.symm conditionNo, Ne.symm yesNo, tracked]
  | uncounted stands place branch untracked unique _ =>
      obtain rfl := Option.some.inj (held.symm.trans stands)
      rcases place with rfl | rfl
      · obtain rfl := Option.some.inj (first.symm.trans branch)
        simp [conditionYes, Ne.symm conditionYes, conditionNo, yesNo, untracked]
      · obtain rfl := Option.some.inj (second.symm.trans branch)
        have some : trackedBranch node.kind node.branches ≠ none := fun none => by
          cases unique none
        simp [conditionYes, conditionNo, Ne.symm conditionNo, Ne.symm yesNo, untracked, some]

section Evaluated

theorem Behaves.evaluates (behaves : Behaves node steps outcome) (known : verdicts node.kind ≠ []) :
    Evaluates node steps outcome := by
  unfold Behaves at behaves
  split at behaves
  case h_10 => exact behaves
  all_goals simp_all [verdicts]

/-- The children in a row, and behind them the counters of a verdict. -/
theorem Evaluates.parts (evaluates : Evaluates node steps outcome) :
    ∃ row found probes, steps = row ++ probes.map .probe ∧ InRow node.kids row found ∧
      (found ≠ .done ∧ outcome = .interrupted ∧ probes = [] ∨
        found = .done ∧ (probes, outcome) ∈ verdicts node.kind) := by
  cases evaluates with
  | stops _ row => exact ⟨_, _, [], by simp, row, .inl ⟨by simp, rfl, rfl⟩⟩
  | ends row verdict => exact ⟨_, _, _, rfl, row, .inr ⟨rfl, verdict⟩⟩

theorem Evaluates.started (evaluates : Evaluates node steps outcome)
    (distinct : (node.kids.map Covered.number).Nodup) {before after : List Covered} {kid : Covered}
    (split : node.kids = before ++ kid :: after) :
    startedIn steps kid = passedOn (endedIn steps .done) 1 before := by
  obtain ⟨row, found, probes, rfl, turn, _⟩ := evaluates.parts
  have reached := turn.startedIn_eq distinct split
  simp only [startedIn_append, startedIn_probes, Nat.add_zero, reached]
  apply passedOn_congr _ rfl
  intro node _
  simp

theorem Evaluates.finished (evaluates : Evaluates node steps outcome)
    (distinct : (node.kids.map Covered.number).Nodup) (plain : verdicts node.kind = [([], .done)]) :
    (if outcome = .done then 1 else 0) = passedOn (endedIn steps .done) 1 node.kids := by
  obtain ⟨row, found, probes, rfl, turn, ⟨stopped, rfl, rfl⟩ | ⟨rfl, verdict⟩⟩ := evaluates.parts
  · have whole := turn.finished distinct
    rw [if_neg stopped] at whole
    simpa using whole
  · rw [plain, List.mem_singleton, Prod.mk.injEq] at verdict
    obtain ⟨rfl, rfl⟩ := verdict
    simpa using turn.finished distinct

theorem Evaluates.told (evaluates : Evaluates node steps outcome) {tracker : Tracker}
    {found : Outcome} (ends : found ≠ .interrupted)
    (tells : ∀ verdict ∈ verdicts node.kind,
      verdict.1.count tracker = if verdict.2 = found then 1 else 0) :
    hitsIn steps tracker = if outcome = found then 1 else 0 := by
  obtain ⟨row, _, probes, rfl, turn, ⟨_, rfl, rfl⟩ | ⟨_, verdict⟩⟩ := evaluates.parts
  · simp [turn.hitsIn_eq_zero, ends.symm]
  · simpa [turn.hitsIn_eq_zero] using tells _ verdict

end Evaluated

section Behind

variable {first kid : Covered} {rest before after : List Covered} {tries : List Step}
variable {found : Outcome} (distinct : first.number ∉ rest.map Covered.number)

include distinct

theorem started_behind (split : rest = before ++ kid :: after) :
    startedIn (.child first found :: tries) kid = startedIn tries kid := by
  have apart : first.number ≠ kid.number := fun same => distinct (by simp [same, split])
  simp [apart]

theorem Tried.started_behind (tried : Tried rest tries outcome)
    (unique : (rest.map Covered.number).Nodup) (split : rest = before ++ kid :: after) :
    startedIn (.child first found :: tries) kid =
      passedOn (endedIn (.child first found :: tries) .passed) 1 before := by
  rw [Flow.started_behind distinct split, tried.startedIn_eq unique split]
  apply passedOn_congr _ rfl
  intro node member
  exact (InTurn.endedIn_later distinct _ _ (by simp [split, member])).symm

theorem Tried.stopped_behind (tried : Tried rest tries outcome)
    (unique : (rest.map Covered.number).Nodup) :
    (if outcome = .done then 1 else 0) =
      (rest.map (endedIn (.child first found :: tries) .done)).sum := by
  rw [tried.stopped unique (by simp : Outcome.done ≠ .passed)]
  congr 1
  apply List.map_congr_left
  intro node member
  exact (InTurn.endedIn_later distinct _ _ member).symm

theorem nothing_behind (split : rest = before ++ kid :: after) (way : Outcome) :
    startedIn [.child first found] kid =
      passedOn (endedIn [.child first found] way) 0 before := by
  rw [Flow.started_behind distinct split]
  refine (passedOn_zero ?_).symm
  intro node member
  exact InTurn.endedIn_later distinct _ _ (by simp [split, member])

end Behind

theorem firstDone_none (absent : node.kid? 0 = none) : firstDone node = [] := by
  simp [firstDone, absent]

theorem firstDone_some {first : Covered} (held : node.kid? 0 = some first) :
    firstDone node = [.child first .done] := by
  simp [firstDone, held]

section Dispatched

variable {last : Covered} (held : node.last? = some last)
variable (kids : node.kids = (node.kid? 0).toList ++ (node.clauses ++ [last]))
variable (distinct : (node.kids.map Covered.number).Nodup)

include held kids distinct

theorem Dispatches.started (behaves : Dispatches node steps outcome) {before after : List Covered}
    {kid : Covered} (split : node.clauses ++ [last] = before ++ kid :: after) :
    startedIn steps kid =
      passedOn (endedIn steps .passed)
        (passedOn (endedIn steps .done) 1 (node.kid? 0).toList) before := by
  cases subject : node.kid? 0 with
  | none =>
      rw [kids, subject, Option.toList_none, List.nil_append] at distinct
      cases behaves with
      | stops stands => simp [subject] at stands
      | goesOn tried _ =>
          rw [held, Option.toList_some] at tried
          rw [firstDone_none subject, Option.toList_none, passedOn_nil]
          exact tried.startedIn_eq distinct split
  | some first =>
      rw [kids, subject, Option.toList_some, List.singleton_append, List.map_cons,
        List.nodup_cons] at distinct
      rw [Option.toList_some, passedOn_singleton]
      cases behaves with
      | stops stands =>
          obtain rfl := Option.some.inj (subject.symm.trans stands)
          have missed : endedIn [.child first .interrupted] .done first = 0 := by simp
          rw [missed]
          exact nothing_behind distinct.1 split .passed
      | @goesOn tries _ tried _ =>
          rw [held, Option.toList_some] at tried
          have reached : endedIn (.child first .done :: tries) .done first = 1 := by
            simp [tried.endedIn_outside distinct.1]
          rw [firstDone_some subject, List.singleton_append, reached]
          exact tried.started_behind distinct.1 distinct.2 split

theorem Dispatches.started_first (behaves : Dispatches node steps outcome) {first : Covered}
    (subject : node.kid? 0 = some first) : startedIn steps first = 1 := by
  rw [kids, subject, Option.toList_some, List.singleton_append, List.map_cons,
    List.nodup_cons] at distinct
  cases behaves with
  | stops stands =>
      obtain rfl := Option.some.inj (subject.symm.trans stands)
      simp
  | goesOn tried _ =>
      rw [held, Option.toList_some] at tried
      simp [firstDone_some subject, tried.startedIn_outside distinct.1]

theorem Dispatches.finished (behaves : Dispatches node steps outcome) :
    (if outcome = .done then 1 else 0) =
      ((node.clauses ++ [last]).map (endedIn steps .done)).sum := by
  cases subject : node.kid? 0 with
  | none =>
      rw [kids, subject, Option.toList_none, List.nil_append] at distinct
      cases behaves with
      | stops stands => simp [subject] at stands
      | goesOn tried _ =>
          rw [held, Option.toList_some] at tried
          rw [firstDone_none subject]
          exact tried.stopped distinct (by simp)
  | some first =>
      rw [kids, subject, Option.toList_some, List.singleton_append, List.map_cons,
        List.nodup_cons] at distinct
      cases behaves with
      | stops stands =>
          obtain rfl := Option.some.inj (subject.symm.trans stands)
          rw [List.map_congr_left fun node member => InTurn.endedIn_later distinct.1 _ .done member]
          simp
      | goesOn tried _ =>
          rw [held, Option.toList_some] at tried
          rw [firstDone_some subject, List.singleton_append]
          exact tried.stopped_behind distinct.1 distinct.2

end Dispatched

section Matched

variable {body : Covered} (held : node.last? = some body)

include held

/-- The tests in turn, and behind them the body if one of them matched. -/
theorem Matches.parts (behaves : Matches node steps outcome) :
    ∃ tries found rest, steps = tries ++ rest ∧ Tried node.tests tries found ∧
      (found ≠ .done ∧ outcome = found ∧ rest = [] ∨
        found = .done ∧ outcome ≠ .passed ∧ rest = [.child body outcome]) := by
  cases behaves with
  | misses tried missed => exact ⟨_, _, [], by simp, tried, .inl ⟨missed, rfl, rfl⟩⟩
  | runs tried stands ends =>
      obtain rfl := Option.some.inj (held.symm.trans stands)
      exact ⟨_, _, _, rfl, tried, .inr ⟨rfl, ends, rfl⟩⟩

variable (unique : (node.tests.map Covered.number).Nodup)
variable (apart : body.number ∉ node.tests.map Covered.number)

include unique apart

theorem Matches.started_test (behaves : Matches node steps outcome) {before after : List Covered}
    {test : Covered} (split : node.tests = before ++ test :: after) :
    startedIn steps test = passedOn (endedIn steps .passed) 1 before := by
  obtain ⟨tries, found, rest, rfl, tried, ends⟩ := behaves.parts held
  have other (inner : Covered) (member : inner ∈ node.tests) : startedIn rest inner = 0 := by
    have different := number_ne_of_outside apart member
    rcases ends with ⟨_, _, rfl⟩ | ⟨_, _, rfl⟩ <;> simp [different]
  rw [startedIn_append, other test (by simp [split]), Nat.add_zero, tried.startedIn_eq unique split]
  apply passedOn_congr _ rfl
  intro inner member
  rw [endedIn_append, endedIn_of_startedIn _ (other inner (by simp [split, member])), Nat.add_zero]

theorem Matches.counts (behaves : Matches node steps outcome) :
    startedIn steps body = (node.tests.map (endedIn steps .done)).sum ∧
      (if outcome = .done then 1 else 0) = endedIn steps .done body ∧
      (if outcome = .passed then 1 else 0) = passedOn (endedIn steps .passed) 1 node.tests := by
  obtain ⟨tries, found, rest, rfl, tried, ends⟩ := behaves.parts held
  have other (inner : Covered) (member : inner ∈ node.tests) (ending : Outcome) :
      endedIn (tries ++ rest) ending inner = endedIn tries ending inner := by
    have different := number_ne_of_outside apart member
    rcases ends with ⟨_, _, rfl⟩ | ⟨_, _, rfl⟩ <;> simp [different]
  have matched := tried.stopped unique (by simp : Outcome.done ≠ .passed)
  have missed := tried.finished unique
  rw [List.map_congr_left fun inner member => other inner member .done, ← matched,
    passedOn_congr (fun inner member => other inner member .passed) rfl, ← missed]
  rcases ends with ⟨missed, rfl, rfl⟩ | ⟨rfl, ends, rfl⟩
  · simp [missed, tried.startedIn_outside apart, tried.endedIn_outside apart]
  · simp [ends, tried.startedIn_outside apart, tried.endedIn_outside apart]

end Matched

section Guarded

variable {body last : Covered} (first : node.kid? 0 = some body) (held : node.last? = some last)
variable (unique : (node.handlers.map Covered.number).Nodup)
variable (bodyApart : body.number ∉ node.handlers.map Covered.number)
variable (lastApart : last.number ∉ node.handlers.map Covered.number)
variable (apart : body.number ≠ last.number)

include first held unique bodyApart lastApart apart

theorem Guards.started_handler (behaves : Guards node steps outcome) {before after : List Covered}
    {handler : Covered} (split : node.handlers = before ++ handler :: after) :
    startedIn steps handler =
      passedOn (endedIn steps .passed) (endedIn steps .interrupted body) before := by
  cases behaves with
  | unharmed stands ends _ =>
      obtain rfl := Option.some.inj (first.symm.trans stands)
      obtain rfl := Option.some.inj (held.symm.trans ends)
      have never (inner : Covered) (member : inner ∈ node.handlers) :
          startedIn [.child body .done, .child last outcome] inner = 0 := by
        simp [number_ne_of_outside bodyApart member, number_ne_of_outside lastApart member]
      have calm : endedIn [.child body .done, .child last outcome] .interrupted body = 0 := by
        simp [apart.symm]
      rw [never handler (by simp [split]), calm]
      refine (passedOn_zero ?_).symm
      intro inner member
      exact endedIn_of_startedIn _ (never inner (by simp [split, member]))
  | handled stands tried _ | unhandled stands tried =>
      obtain rfl := Option.some.inj (first.symm.trans stands)
      have harmed (tries : List Step) (outside : endedIn tries .interrupted body = 0) :
          endedIn (.child body .interrupted :: tries) .interrupted body = 1 := by simp [outside]
      rw [harmed _ (tried.endedIn_outside bodyApart _)]
      exact tried.started_behind bodyApart unique split

theorem Guards.counts (behaves : Guards node steps outcome) :
    startedIn steps body = 1 ∧ endedIn steps .done body + endedIn steps .interrupted body = 1 ∧
      startedIn steps last = endedIn steps .done body ∧
      (if outcome = .done then 1 else 0) =
        ((node.handlers ++ [last]).map (endedIn steps .done)).sum := by
  rw [List.map_append, List.sum_append]
  cases behaves with
  | unharmed stands ends _ =>
      obtain rfl := Option.some.inj (first.symm.trans stands)
      obtain rfl := Option.some.inj (held.symm.trans ends)
      have never : node.handlers.map (endedIn [.child body .done, .child last outcome] .done) =
          node.handlers.map fun _ => 0 := by
        apply List.map_congr_left
        intro inner member
        rw [InTurn.endedIn_later bodyApart _ _ member, InTurn.endedIn_later lastApart _ _ member]
        rfl
      simp [never, apart, apart.symm]
  | handled stands tried _ | unhandled stands tried =>
      obtain rfl := Option.some.inj (first.symm.trans stands)
      rw [← tried.stopped_behind bodyApart unique]
      simp [tried.startedIn_outside bodyApart, tried.startedIn_outside lastApart,
        tried.endedIn_outside bodyApart, tried.endedIn_outside lastApart, apart]

end Guarded

section FirstDone

variable {first kid : Covered}

theorem hitsIn_firstDone (tracker : Tracker) : hitsIn (firstDone node) tracker = 0 := by
  unfold firstDone
  cases node.kid? 0 <;> simp

theorem startedIn_firstDone (held : node.kid? 0 = some first) :
    startedIn (firstDone node) first = 1 := by
  simp [firstDone_some held]

theorem startedIn_firstDone_other
    (apart : ∀ first, node.kid? 0 = some first → first.number ≠ kid.number) :
    startedIn (firstDone node) kid = 0 := by
  unfold firstDone
  cases held : node.kid? 0 with
  | none => rfl
  | some first => simp [apart first held]

theorem passedOn_firstDone {rest : List Step}
    (once : ∀ first, node.kid? 0 = some first → startedIn rest first = 0) :
    passedOn (endedIn (firstDone node ++ rest) .done) 1 (node.kid? 0).toList = 1 := by
  cases held : node.kid? 0 with
  | none => rfl
  | some first =>
      have later := endedIn_of_startedIn .done (once first held)
      simp [firstDone_some held, passedOn_singleton, later]

end FirstDone

section Handled

variable {body : Covered} (held : node.kid? 2 = some body)
variable (apart : ∀ {place other : Nat} {kid inner : Covered}, node.kid? place = some kid →
  node.kid? other = some inner → place ≠ other → kid.number ≠ inner.number)

include held apart

theorem handled_apart {first : Covered} (stands : node.kid? 0 = some first) :
    first.number ∉ ((node.kid? 1).toList ++ [body]).map Covered.number := by
  cases assigned : node.kid? 1 with
  | none => simpa using apart stands held (by simp)
  | some target => simpa using ⟨apart stands assigned (by simp), apart stands held (by simp)⟩

theorem handled_unique : (((node.kid? 1).toList ++ [body]).map Covered.number).Nodup := by
  cases assigned : node.kid? 1 with
  | none => simp
  | some target => simpa using apart assigned held (by simp)

theorem Handles.started_later (behaves : Handles node steps outcome) {before after : List Covered}
    {kid : Covered} (split : (node.kid? 1).toList ++ [body] = before ++ kid :: after) :
    startedIn steps kid = passedOn (endedIn steps .done) (hitsIn steps .handlerEntry) before := by
  have other (inner : Covered) (member : inner ∈ (node.kid? 1).toList ++ [body]) :
      startedIn (firstDone node) inner = 0 := by
    apply startedIn_firstDone_other
    intro first stands
    exact number_ne_of_outside (handled_apart held apart stands) member
  cases behaves with
  | stops stands =>
      rw [hitsIn_child, hitsIn_nil]
      exact nothing_behind (handled_apart held apart stands) split .done
  | passes =>
      rw [hitsIn_firstDone, other kid (by simp [split])]
      refine (passedOn_zero ?_).symm
      intro inner member
      exact endedIn_of_startedIn _ (other inner (by simp [split, member]))
  | runs stands row _ =>
      obtain rfl := Option.some.inj (held.symm.trans stands)
      have reached := row.startedIn_eq (handled_unique held apart) split
      simp only [startedIn_append, startedIn_probe, hitsIn_append, hitsIn_probe, if_true,
        hitsIn_firstDone, row.hitsIn_eq_zero, other kid (by simp [split]), Nat.zero_add, reached]
      apply passedOn_congr _ rfl
      intro inner member
      rw [endedIn_append, endedIn_of_startedIn _ (other inner (by simp [split, member]))]
      simp

theorem Handles.counts (behaves : Handles node steps outcome) :
    (∀ first, node.kid? 0 = some first → startedIn steps first = 1) ∧
      passedOn (endedIn steps .done) 1 (node.kid? 0).toList =
        hitsIn steps .handlerEntry + (if outcome = .passed then 1 else 0) ∧
      (if outcome = .done then 1 else 0) = endedIn steps .done body := by
  have bodyOther : startedIn (firstDone node) body = 0 :=
    startedIn_firstDone_other fun first stands => apart stands held (by simp)
  cases behaves with
  | stops stands =>
      refine ⟨?_, ?_, ?_⟩
      · intro first again
        obtain rfl := Option.some.inj (again.symm.trans stands)
        simp
      · simp [stands, passedOn_singleton]
      · simp [apart stands held (by simp)]
  | passes =>
      refine ⟨fun first stands => startedIn_firstDone stands, ?_, ?_⟩
      · simpa [hitsIn_firstDone] using
          passedOn_firstDone
            (show ∀ first, node.kid? 0 = some first → startedIn [] first = 0 by simp)
      · simp [endedIn_of_startedIn _ bodyOther]
  | @runs rest _ _ stands row ends =>
      obtain rfl := Option.some.inj (held.symm.trans stands)
      have once (first : Covered) (stands : node.kid? 0 = some first) :
          startedIn (.probe .handlerEntry :: rest) first = 0 := by
        simpa using row.startedIn_outside (handled_apart held apart stands)
      refine ⟨?_, ?_, ?_⟩
      · intro first stands
        rw [startedIn_append, startedIn_firstDone stands, once first stands]
      · rw [passedOn_firstDone once]
        simp [hitsIn_firstDone, row.hitsIn_eq_zero, ends]
      · rw [row.finished (handled_unique held apart)]
        simp [endedIn_of_startedIn _ bodyOther, passedOn]

end Handled

theorem Assigns.counts (behaves : Assigns node steps outcome) {tracker : Tracker}
    (kind : valueTracker? node.kind = some tracker)
    (apart : ∀ first value, node.kid? 0 = some first → node.last? = some value →
      first.number ≠ value.number) :
    (∀ first, node.kid? 0 = some first → startedIn steps first = 1) ∧
      (∀ value, node.last? = some value → startedIn steps value = hitsIn steps tracker) ∧
      (if outcome = .done then 1 else 0) = hitsIn steps .completion := by
  have plain : tracker ≠ .completion := by
    cases same : node.kind <;> simp [same, valueTracker?] at kind <;> simp [← kind]
  have other (value : Covered) (stands : node.last? = some value) :
      startedIn (firstDone node) value = 0 :=
    startedIn_firstDone_other fun first held => apart first value held stands
  cases behaves with
  | stops held =>
      refine ⟨?_, ?_, by simp⟩
      · intro first again
        obtain rfl := Option.some.inj (again.symm.trans held)
        simp
      · intro value stands
        simp [apart _ value held stands]
  | unread =>
      refine ⟨fun first held => startedIn_firstDone held, ?_, by simp [hitsIn_firstDone]⟩
      intro value stands
      rw [other value stands, hitsIn_firstDone]
  | keeps _ =>
      refine ⟨?_, ?_, by simp [hitsIn_firstDone]⟩
      · intro first held
        simp [startedIn_firstDone held]
      · intro value stands
        simp [other value stands, hitsIn_firstDone, plain.symm]
  | valueStops counter stands | refused counter stands | assigns counter stands =>
      obtain rfl := Option.some.inj (kind.symm.trans counter)
      refine ⟨?_, ?_, by simp [hitsIn_firstDone, plain]⟩
      · intro first held
        simp [startedIn_firstDone held, (apart first _ held stands).symm]
      · intro value again
        obtain rfl := Option.some.inj (again.symm.trans stands)
        simp [other _ stands, hitsIn_firstDone, plain.symm]

end Constructs

end ProbeCoverage.Flow
