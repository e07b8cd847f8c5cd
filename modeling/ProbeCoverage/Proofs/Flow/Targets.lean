import ProbeCoverage.Proofs.Flow.Conservation

/-!
The targets of a multiple assignment. Values go to the targets from left to right, and the counts
are derived from right to left: a target completes as often as the next one is entered, and the last
one of a list as often as the list. Only a setter has a counter of its own; every other target is
entered as often as it completes, and so is a whole list inside a list. Hence a setter that fails
inside such a list was reached more often than the list itself, and more often than the targets in
front of the list.
-/

namespace ProbeCoverage

namespace Cover

def Kind.groupsTargets : Kind → Bool
  | .targetList | .splatTarget => true
  | _ => false

mutual

def Covered.leaves : Covered → List Covered
  | .mk info branches =>
      if info.kind.groupsTargets then leavesOf branches else [.mk info branches]

def leavesOf : List Branch → List Covered
  | [] => []
  | .node covered :: rest => covered.leaves ++ leavesOf rest
  | .atom _ :: rest => leavesOf rest

end

mutual

/-- The single targets of those lists and splats that stand behind another target. -/
def Covered.trailing : Covered → List Covered
  | .mk info branches => if info.kind.groupsTargets then trailingOf branches else []

def trailingOf : List Branch → List Covered
  | [] => []
  | .atom _ :: rest => trailingOf rest
  | .node first :: rest =>
      first.trailing ++
        ((rest.filterMap Branch.covered?).filter fun later => later.kind.groupsTargets).flatMap
          Covered.leaves

end

theorem leavesOf_eq (branches : List Branch) :
    leavesOf branches = (branches.filterMap Branch.covered?).flatMap Covered.leaves := by
  induction branches with
  | nil => rfl
  | cons branch rest ih => cases branch <;> simp [leavesOf, ih, List.filterMap_cons]

theorem trailingOf_eq (branches : List Branch) :
    trailingOf branches =
      match branches.filterMap Branch.covered? with
      | [] => []
      | first :: rest =>
          first.trailing ++ (rest.filter fun later => later.kind.groupsTargets).flatMap
            Covered.leaves := by
  induction branches with
  | nil => rfl
  | cons branch rest ih =>
      cases branch with
      | atom value => simpa [List.filterMap_cons, trailingOf] using ih
      | node covered => simp [trailingOf]

namespace Covered

variable {node : Covered}

theorem leaves_of_group (groups : node.kind.groupsTargets = true) :
    node.leaves = node.kids.flatMap leaves := by
  cases node with
  | mk info branches =>
      rw [leaves]
      exact (if_pos groups).trans (leavesOf_eq branches)

theorem leaves_of_single (single : ¬node.kind.groupsTargets = true) : node.leaves = [node] := by
  cases node with
  | mk info branches =>
      rw [leaves]
      exact if_neg single

theorem trailing_of_group (groups : node.kind.groupsTargets = true) :
    node.trailing =
      match node.kids with
      | [] => []
      | first :: rest =>
          first.trailing ++ (rest.filter fun later => later.kind.groupsTargets).flatMap
            leaves := by
  cases node with
  | mk info branches =>
      rw [trailing]
      exact (if_pos groups).trans (trailingOf_eq branches)

theorem trailing_of_single (single : ¬node.kind.groupsTargets = true) : node.trailing = [] := by
  cases node with
  | mk info branches =>
      rw [trailing]
      exact if_neg single

theorem trailing_subset (node : Covered) : ∀ leaf ∈ node.trailing, leaf ∈ node.leaves := by
  induction node using Covered.induction with
  | step node ih =>
      intro leaf member
      by_cases groups : node.kind.groupsTargets = true
      · rw [leaves_of_group groups]
        rw [trailing_of_group groups] at member
        cases kids : node.kids with
        | nil => simp [kids] at member
        | cons first rest =>
            simp only [kids, List.mem_append] at member
            rcases member with front | behind
            · have below := ih first (kids ▸ List.mem_cons_self) leaf front
              exact List.mem_flatMap.mpr ⟨first, List.mem_cons_self, below⟩
            · obtain ⟨later, inside, below⟩ := List.mem_flatMap.mp behind
              exact List.mem_flatMap.mpr
                ⟨later, List.mem_cons_of_mem _ (List.mem_of_mem_filter inside), below⟩
      · simp [trailing_of_single groups] at member

theorem groupsTargets_cases (groups : node.kind.groupsTargets = true) :
    node.kind = .targetList ∨ node.kind = .splatTarget := by
  cases kind : node.kind <;> simp [kind, Kind.groupsTargets] at groups ⊢

end Covered

theorem occurs_of_leaf {root node leaf : Covered} {above : Option Covered} {slot : Nat}
    (occurs : Occurs root above slot node) (member : leaf ∈ node.leaves) :
    ∃ around place, Occurs root around place leaf := by
  induction node using Covered.induction generalizing above slot with
  | step node ih =>
      by_cases groups : node.kind.groupsTargets = true
      · rw [Covered.leaves_of_group groups, List.mem_flatMap] at member
        obtain ⟨kid, inside, below⟩ := member
        obtain ⟨place, held⟩ := Covered.mem_kids.mp inside
        exact ih kid inside (.child place occurs held) below
      · rw [Covered.leaves_of_single groups, List.mem_singleton] at member
        exact ⟨above, slot, member ▸ occurs⟩

end Cover

namespace Flow

open Cover

section Groups

variable {ledger : Ledger} {tree : CoverTree} {node kid : Covered}
variable {above : Option Covered} {slot : Nat}
variable (grown : Grown tree) (balanced : Balanced ledger tree)

include grown balanced

theorem completions_le_entries (occurs : Occurs tree.root above slot node) :
    ledger.completions node ≤ ledger.entries node := by
  have ends := balanced.ends grown occurs
  omega

section Siblings

variable (occurs : Occurs tree.root above slot node) (groups : node.kind.groupsTargets = true)

include occurs groups

theorem completions_of_target {before after : List Covered}
    (split : node.kids = before ++ kid :: after) :
    ledger.completions kid =
      match after.head? with
      | some next => ledger.entries next
      | none => ledger.completions node := by
  have targets := Covered.groupsTargets_cases groups
  have single : node.kind ≠ .multipleAssignment := by
    rcases targets with kind | kind <;> simp [kind]
  obtain ⟨place, held, _, behind⟩ := Covered.slot_of_split split
  have stands : Occurs tree.root (some node) place kid := .child place occurs held
  have alternate := (grown.regular _ _ _ occurs).propagation_of_parent held targets
  have completed :=
    (solves_completion_target grown stands alternate).mp (balanced.completion stands)
  rw [Ledger.handedOn, if_neg single, behind] at completed
  exact completed

theorem entries_of_target {place : Nat} (held : node.kid? place = some kid)
    (safe : kid.kind ≠ .setterTarget) : ledger.entries kid = ledger.completions kid := by
  have targets := Covered.groupsTargets_cases groups
  have single : node.kind ≠ .multipleAssignment := by
    rcases targets with kind | kind <;> simp [kind]
  have stands : Occurs tree.root (some node) place kid := .child place occurs held
  have alternate := (grown.regular _ _ _ occurs).propagation_of_parent held targets
  exact (solves_entry_target grown stands alternate safe single).mp (balanced.entry stands)

theorem targets_in_turn :
    (node.kids.Pairwise fun kid later => ledger.entries later ≤ ledger.completions kid) ∧
      ∀ kid ∈ node.kids, ledger.completions node ≤ ledger.completions kid := by
  -- from the right, since each target learns from the next one
  suffices suffixes : ∀ rest before, node.kids = before ++ rest →
      (rest.Pairwise fun kid later => ledger.entries later ≤ ledger.completions kid) ∧
        ∀ kid ∈ rest, ledger.completions node ≤ ledger.completions kid from
    suffixes node.kids [] rfl
  intro rest
  induction rest with
  | nil => simp
  | cons kid rest ih =>
      intro before split
      have completed := completions_of_target grown balanced occurs groups split
      obtain ⟨inTurn, floor⟩ := ih (before ++ [kid]) (by simp [split])
      cases rest with
      | nil => simp_all
      | cons next later =>
          have reached : ledger.completions kid = ledger.entries next := completed
          have passes : ledger.completions next ≤ ledger.entries next := by
            have member : next ∈ node.kids := by simp [split]
            obtain ⟨place, held⟩ := Covered.mem_kids.mp member
            exact completions_le_entries grown balanced (.child place occurs held)
          refine ⟨List.pairwise_cons.mpr ⟨?_, inTurn⟩, ?_⟩
          · intro other member
            rcases List.mem_cons.mp member with rfl | behind
            · exact reached.ge
            · have lower := (List.pairwise_cons.mp inTurn).1 other behind
              omega
          · intro other member
            rcases List.mem_cons.mp member with rfl | behind
            · have lower := floor next List.mem_cons_self
              omega
            · exact floor other behind

theorem entries_of_uninterrupted
    (kept : ∀ kid ∈ node.kids, ledger.entries kid = ledger.completions kid) :
    ∀ kid ∈ node.kids, ledger.entries kid = ledger.completions node := by
  suffices suffixes : ∀ rest before, node.kids = before ++ rest →
      ∀ kid ∈ rest, ledger.entries kid = ledger.completions node from
    suffixes node.kids [] rfl
  intro rest
  induction rest with
  | nil => simp
  | cons kid rest ih =>
      intro before split other member
      have later := ih (before ++ [kid]) (by simp [split])
      rcases List.mem_cons.mp member with rfl | behind
      · rw [kept other (by simp [split]),
          completions_of_target grown balanced occurs groups split]
        cases rest with
        | nil => rfl
        | cons next _ => exact later next List.mem_cons_self
      · exact later other behind

end Siblings

theorem completions_le_leaf (occurs : Occurs tree.root above slot node) :
    ∀ leaf ∈ node.leaves, ledger.completions node ≤ ledger.entries leaf := by
  induction node using Covered.induction generalizing above slot with
  | step node ih =>
      intro leaf member
      by_cases groups : node.kind.groupsTargets = true
      · rw [Covered.leaves_of_group groups, List.mem_flatMap] at member
        obtain ⟨kid, inside, below⟩ := member
        obtain ⟨place, held⟩ := Covered.mem_kids.mp inside
        exact ((targets_in_turn grown balanced occurs groups).2 kid inside).trans
          (ih kid inside (.child place occurs held) leaf below)
      · rw [Covered.leaves_of_single groups, List.mem_singleton] at member
        rw [member]
        exact completions_le_entries grown balanced occurs

theorem entries_of_leaf (occurs : Occurs tree.root above slot node)
    (kept : ledger.entries node = ledger.completions node)
    (uninterrupted : ∀ leaf ∈ node.leaves, ledger.interruptions leaf = 0) :
    ∀ leaf ∈ node.leaves, ledger.entries leaf = ledger.entries node := by
  induction node using Covered.induction generalizing above slot with
  | step node ih =>
      intro leaf member
      by_cases groups : node.kind.groupsTargets = true
      · rw [Covered.leaves_of_group groups] at uninterrupted member
        have keptBelow : ∀ kid ∈ node.kids, ledger.entries kid = ledger.completions kid := by
          intro kid inside
          obtain ⟨place, held⟩ := Covered.mem_kids.mp inside
          by_cases setter : kid.kind = .setterTarget
          · have alone : kid ∈ kid.leaves := by
              rw [Covered.leaves_of_single (by simp [setter, Kind.groupsTargets])]
              exact List.mem_singleton_self kid
            have ends := balanced.ends grown (.child place occurs held)
            rwa [uninterrupted kid (List.mem_flatMap.mpr ⟨kid, inside, alone⟩), Nat.add_zero]
              at ends
          · exact entries_of_target grown balanced occurs groups held setter
        obtain ⟨kid, inside, below⟩ := List.mem_flatMap.mp member
        obtain ⟨place, held⟩ := Covered.mem_kids.mp inside
        calc ledger.entries leaf
            = ledger.entries kid :=
              ih kid inside (.child place occurs held) (keptBelow kid inside)
                (fun other leaf => uninterrupted other (List.mem_flatMap.mpr ⟨kid, inside, leaf⟩))
                leaf below
          _ = ledger.completions node :=
              entries_of_uninterrupted grown balanced occurs groups keptBelow kid inside
          _ = ledger.entries node := kept.symm
      · rw [Covered.leaves_of_single groups, List.mem_singleton] at member
        rw [member]

theorem entries_of_later_leaf (occurs : Occurs tree.root above slot node)
    (groups : node.kind.groupsTargets = true) {place : Nat} (held : node.kid? place = some kid)
    (uninterrupted : kid.kind.groupsTargets = true →
      ∀ leaf ∈ kid.leaves, ledger.interruptions leaf = 0) :
    ∀ leaf ∈ kid.leaves, ledger.entries leaf = ledger.entries kid := by
  intro leaf member
  by_cases inner : kid.kind.groupsTargets = true
  · have safe : kid.kind ≠ .setterTarget := by
      intro setter
      simp [setter, Kind.groupsTargets] at inner
    exact entries_of_leaf grown balanced (.child place occurs held)
      (entries_of_target grown balanced occurs groups held safe) (uninterrupted inner) leaf member
  · rw [Covered.leaves_of_single inner, List.mem_singleton] at member
    rw [member]

/-- The single targets of a list are entered in turn unless one of those in a list or a splat
behind another target is interrupted. -/
theorem leaves_in_turn (occurs : Occurs tree.root above slot node)
    (uninterrupted : ∀ leaf ∈ node.trailing, ledger.interruptions leaf = 0) :
    node.leaves.Pairwise fun leaf later => ledger.entries later ≤ ledger.entries leaf := by
  induction node using Covered.induction generalizing above slot with
  | step node ih =>
      by_cases groups : node.kind.groupsTargets = true
      case neg =>
        rw [Covered.leaves_of_single groups]
        exact List.pairwise_singleton _ _
      case pos =>
        rw [Covered.leaves_of_group groups]
        obtain ⟨inTurn, _⟩ := targets_in_turn grown balanced occurs groups
        have below {kid : Covered} (inside : kid ∈ node.kids) :
            ∃ place, Occurs tree.root (some node) place kid := by
          obtain ⟨place, held⟩ := Covered.mem_kids.mp inside
          exact ⟨place, .child place occurs held⟩
        cases kids : node.kids with
        | nil => exact List.Pairwise.nil
        | cons first rest =>
            rw [Covered.trailing_of_group groups, kids] at uninterrupted
            rw [kids] at inTurn ih below
            -- behind the first target all single targets of one target have one count
            have level : ∀ kid ∈ rest, ∀ leaf ∈ kid.leaves,
                ledger.entries leaf = ledger.entries kid := by
              intro kid inside
              obtain ⟨place, held⟩ := Covered.mem_kids.mp (kids ▸ List.mem_cons_of_mem _ inside)
              apply entries_of_later_leaf grown balanced occurs groups held
              intro inner leaf member
              apply uninterrupted leaf (List.mem_append_right _ _)
              exact List.mem_flatMap.mpr ⟨kid, List.mem_filter.mpr ⟨inside, inner⟩, member⟩
            have cross : ∀ kid ∈ first :: rest, ∀ later ∈ rest,
                ledger.entries later ≤ ledger.completions kid →
                ∀ leaf ∈ kid.leaves, ∀ other ∈ later.leaves,
                  ledger.entries other ≤ ledger.entries leaf := by
              intro kid inside later behind bound leaf member other otherMember
              obtain ⟨place, stands⟩ := below inside
              have floor := completions_le_leaf grown balanced stands leaf member
              have same := level later behind other otherMember
              omega
            rw [List.pairwise_flatMap]
            refine ⟨?_, ?_⟩
            · intro kid inside
              rcases List.mem_cons.mp inside with rfl | behind
              · obtain ⟨place, stands⟩ := below inside
                exact ih kid inside stands fun leaf member =>
                  uninterrupted leaf (List.mem_append_left _ member)
              · apply List.Pairwise.imp_of_mem _ (List.pairwise_of_forall fun _ _ => trivial)
                intro leaf other member otherMember _
                rw [level kid behind leaf member, level kid behind other otherMember]
            · obtain ⟨front, back⟩ := List.pairwise_cons.mp inTurn
              refine List.pairwise_cons.mpr ⟨?_, ?_⟩
              · intro later behind
                exact cross first List.mem_cons_self later behind (front later behind)
              · apply back.imp_of_mem
                intro kid later inside behind bound
                exact cross kid (List.mem_cons_of_mem _ inside) later behind bound

end Groups

/-- The targets of a multiple assignment are reached in order. No single target is entered less
often than the assignment completes, and none of those in front of another target of their list less
often than that one. All single targets are entered in turn as long as no target inside a list or a
splat behind another target is interrupted. -/
theorem targets_reached_in_order {view : View} {counts : Nat → Counts} (built : Built view.tree)
    (known : ∀ id < view.tree.size, (view.answers id).counts = .ok (counts id))
    {above : Option Covered} {slot : Nat} {node left : Covered}
    (occurs : Occurs view.tree.root above slot node) (assigns : node.kind = .multipleAssignment)
    (held : node.kid? 0 = some left) :
    (∀ leaf ∈ left.leaves, (counts node.number).fullRuns ≤ (counts leaf.number).runs) ∧
    (∀ list ∈ left.within, list.kind.groupsTargets = true →
      list.kids.Pairwise fun target later =>
        ∀ leaf ∈ target.leaves, (counts later.number).runs ≤ (counts leaf.number).runs) ∧
    ((∀ leaf ∈ left.trailing, (counts leaf.number).interrupts = 0) →
      left.leaves.Pairwise fun leaf later =>
        (counts later.number).runs ≤ (counts leaf.number).runs) := by
  have grown := built.grown
  obtain ⟨agrees, balanced⟩ := ledger_of_counts grown known
  have stands : Occurs view.tree.root (some node) 0 left := .child 0 occurs held
  have entered {leaf : Covered} (member : leaf ∈ left.leaves) :
      view.ledger.entries leaf = (counts leaf.number).runs := by
    obtain ⟨_, _, leafOccurs⟩ := occurs_of_leaf stands member
    exact (agrees leafOccurs).1
  refine ⟨?_, ?_, ?_⟩
  · intro leaf member
    have alternate : left.kind.propagation = .alternate := by
      rw [(grown.regular _ _ _ occurs).left_kid assigns held]
      rfl
    -- nothing stands in front of the list, so it completes with the assignment
    have completed : view.ledger.completions left = view.ledger.completions node := by
      rw [(solves_completion_target grown stands alternate).mp (balanced.completion stands),
        Ledger.handedOn, if_pos assigns]
      rfl
    rw [← (agrees occurs).2.1, ← entered member, ← completed]
    exact completions_le_leaf grown balanced stands leaf member
  · intro list inside groups
    obtain ⟨_, _, listOccurs⟩ := occurs_of_within stands inside
    apply (targets_in_turn grown balanced listOccurs groups).1.imp_of_mem
    intro target later front behind bound leaf member
    obtain ⟨_, targetHeld⟩ := Covered.mem_kids.mp front
    obtain ⟨_, laterHeld⟩ := Covered.mem_kids.mp behind
    have targetOccurs := Occurs.child _ listOccurs targetHeld
    obtain ⟨_, _, leafOccurs⟩ := occurs_of_leaf targetOccurs member
    rw [← (agrees (.child _ listOccurs laterHeld)).1, ← (agrees leafOccurs).1]
    exact bound.trans (completions_le_leaf grown balanced targetOccurs leaf member)
  · intro uninterrupted
    have inTurn := leaves_in_turn grown balanced stands (by
      intro leaf member
      obtain ⟨_, _, leafOccurs⟩ := occurs_of_leaf stands (Covered.trailing_subset left leaf member)
      rw [(agrees leafOccurs).2.2]
      exact uninterrupted leaf member)
    apply inTurn.imp_of_mem
    intro leaf later member laterMember bound
    rwa [entered member, entered laterMember] at bound

section Assignments

def variableTarget (name : String) : Ast.Child :=
  .node (.mk "lvasgn" [.atom (.text name)] none)

def setterTarget (receiver name : String) : Ast.Child :=
  .node (.mk "send"
    [.node (.mk "lvar" [.atom (.text receiver)] none), .atom (.text (name ++ "="))] none)

def assignTo (targets : List Ast.Child) : Ast.Node :=
  .mk "masgn"
    [.node (.mk "mlhs" targets none), .node (.mk "lvar" [.atom (.text "list")] none)] none

/-- `a.b, (c, *d), e.f = list`. -/
def mixedTargets : Ast.Node :=
  assignTo [setterTarget "a" "b",
    .node (.mk "mlhs" [variableTarget "c", .node (.mk "splat" [variableTarget "d"] none)] none),
    setterTarget "e" "f"]

/-- Of five runs one fails at `a.b` and two at `e.f`. -/
theorem targets_reached_in_order_mixed :
    ∃ tree node left, CoverTree.ofProgram Probe.defaultGlobal 0 mixedTargets = .ok tree ∧
      tree.root.kid? 0 = some node ∧ node.kind = .multipleAssignment ∧
      node.kid? 0 = some left ∧
      let view : View := ⟨tree, ⟨#[5, 2, 5, 4]⟩, none, .word⟩
      view.complete = true ∧
      left.trailing.map (fun leaf => (view.countsAt leaf.number).interrupts) = [0, 0] ∧
      left.leaves.map (fun leaf => (view.countsAt leaf.number).runs) = [5, 4, 4, 4] ∧
      (∀ leaf ∈ left.leaves,
        (view.countsAt node.number).fullRuns ≤ (view.countsAt leaf.number).runs) ∧
      left.leaves.Pairwise fun leaf later =>
        (view.countsAt later.number).runs ≤ (view.countsAt leaf.number).runs := by
  have reached {tree : CoverTree} {node left : Covered} {hits : Probe.Hits}
      (covered : CoverTree.ofProgram Probe.defaultGlobal 0 mixedTargets = .ok tree)
      (below : tree.root.kid? 0 = some node) (assigns : node.kind = .multipleAssignment)
      (held : node.kid? 0 = some left) (complete : View.complete ⟨tree, hits, none, .word⟩ = true)
      (settled : left.trailing.map (fun leaf =>
        (View.countsAt ⟨tree, hits, none, .word⟩ leaf.number).interrupts) = [0, 0]) :
      (∀ leaf ∈ left.leaves,
        (View.countsAt ⟨tree, hits, none, .word⟩ node.number).fullRuns ≤
          (View.countsAt ⟨tree, hits, none, .word⟩ leaf.number).runs) ∧
      left.leaves.Pairwise fun leaf later =>
        (View.countsAt ⟨tree, hits, none, .word⟩ later.number).runs ≤
          (View.countsAt ⟨tree, hits, none, .word⟩ leaf.number).runs := by
    obtain ⟨floor, _, inTurn⟩ := targets_reached_in_order (.program covered)
      (View.counts_eq_countsAt complete) (.child 0 .top below) assigns held
    have zeros : ∀ count ∈ left.trailing.map (fun leaf =>
        (View.countsAt ⟨tree, hits, none, .word⟩ leaf.number).interrupts), count = 0 := by
      simp [settled]
    exact ⟨floor, inTurn (List.forall_mem_map.mp zeros)⟩
  exact ⟨_, _, _, rfl, rfl, rfl, rfl, rfl, rfl, rfl, reached rfl rfl rfl rfl rfl rfl⟩

/-- `a, (d.e) = list`. -/
def nestedSetter : Ast.Node :=
  assignTo [variableTarget "a", .node (.mk "mlhs" [setterTarget "d" "e"] none)]

/-- Of two runs one fails at `d.e`: the setter was reached twice, and `a` counts as reached once. -/
theorem nested_setter_overtakes :
    ∃ tree node left, CoverTree.ofProgram Probe.defaultGlobal 0 nestedSetter = .ok tree ∧
      tree.root.kid? 0 = some node ∧ node.kind = .multipleAssignment ∧
      node.kid? 0 = some left ∧
      let view : View := ⟨tree, ⟨#[2, 1, 2]⟩, none, .word⟩
      view.complete = true ∧
      left.leaves.map (fun leaf => (view.countsAt leaf.number).runs) = [1, 2] ∧
      ¬left.leaves.Pairwise fun leaf later =>
        (view.countsAt later.number).runs ≤ (view.countsAt leaf.number).runs := by
  have overtakes {leaves : List Covered} {runs : Covered → Nat} (same : leaves.map runs = [1, 2]) :
      ¬leaves.Pairwise fun leaf later => runs later ≤ runs leaf := by
    intro ordered
    have counts : (leaves.map runs).Pairwise fun first second => second ≤ first :=
      List.pairwise_map.mpr ordered
    simp [same] at counts
  exact ⟨_, _, _, rfl, rfl, rfl, rfl, rfl, rfl, overtakes rfl⟩

end Assignments

end Flow

end ProbeCoverage
