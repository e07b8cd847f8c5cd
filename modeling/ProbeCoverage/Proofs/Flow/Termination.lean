import ProbeCoverage.Proofs.Flow.Dependence

/-!
Following the rules comes to an end. The schedule of a tree lists all counts of all nodes so that a
count comes behind the counts its rule asks for. A node contributes its entry, then whatever its
children contribute, then what is built from their counts. Children come in source order; targets of
an assignment come in reverse, behind their value, because a target waits for the one after it.
-/

namespace ProbeCoverage.Flow

open Cover

/-- Counts of a node that hang on no child of it. A target is entered as often as it completes, so
its completion comes first. -/
def heads (info : Info) : List Query :=
  match info.kind.completion with
  | .alternate => [⟨.completion, info.number⟩, ⟨.entry, info.number⟩]
  | .counted _ => [⟨.entry, info.number⟩, ⟨.completion, info.number⟩]
  | _ => [⟨.entry, info.number⟩]

def tails (info : Info) : List Query :=
  match info.kind.completion with
  | .alternate | .counted _ => [⟨.interruption, info.number⟩, ⟨.execution, info.number⟩]
  | _ => [⟨.completion, info.number⟩, ⟨.interruption, info.number⟩, ⟨.execution, info.number⟩]

def backwards (kind : Kind) : Bool :=
  kind = .multipleAssignment || kind = .targetList || kind = .splatTarget

def inTurn {α : Type} (kind : Kind) (items : List α) : List α :=
  if backwards kind then items.reverse else items

mutual

def schedule : Covered → List Query
  | .mk info branches => heads info ++ (inTurn info.kind (schedules branches)).flatten ++ tails info

def schedules : List Branch → List (List Query)
  | [] => []
  | .node covered :: rest => schedule covered :: schedules rest
  | .atom _ :: rest => schedules rest

end

section Schedules

variable {node kid : Covered} {slot : Nat}

theorem schedules_eq (branches : List Branch) :
    schedules branches = (branches.filterMap Branch.covered?).map schedule := by
  induction branches with
  | nil => simp [schedules]
  | cons branch rest ih => cases branch <;> simp [schedules, List.filterMap_cons, ih]

theorem inTurn_map {α β : Type} (kind : Kind) (f : α → β) (items : List α) :
    inTurn kind (items.map f) = (inTurn kind items).map f := by
  unfold inTurn
  split <;> simp

theorem schedule_eq (node : Covered) :
    schedule node =
      heads node.info ++ ((inTurn node.kind node.kids).flatMap schedule ++ tails node.info) := by
  cases node with
  | mk info branches =>
      rw [schedule, schedules_eq, inTurn_map, ← List.flatMap_def, List.append_assoc]
      rfl

theorem mem_inTurn {α : Type} {kind : Kind} {items : List α} {item : α} :
    item ∈ inTurn kind items ↔ item ∈ items := by
  unfold inTurn
  split <;> simp

theorem entry_mem_heads (info : Info) : ⟨.entry, info.number⟩ ∈ heads info := by
  unfold heads
  split <;> simp

theorem own_mem_ends (info : Info) (measure : Measure) :
    ⟨measure, info.number⟩ ∈ heads info ++ tails info := by
  unfold heads tails
  cases info.kind.completion <;> cases measure <;> simp

theorem own_of_mem_ends {info : Info} {query : Query}
    (member : query ∈ heads info ∨ query ∈ tails info) : query.node = info.number := by
  have all : ∀ asked ∈ heads info ++ tails info, asked.node = info.number := by
    unfold heads tails
    cases info.kind.completion <;> simp
  exact all query (List.mem_append.mpr member)

theorem own_mem_schedule (node : Covered) (measure : Measure) :
    ⟨measure, node.number⟩ ∈ schedule node := by
  rw [schedule_eq]
  have member := own_mem_ends node.info measure
  simp only [List.mem_append] at member ⊢
  rcases member with first | last
  · exact .inl first
  · exact .inr (.inr last)

theorem kid_mem_schedule (member : kid ∈ node.kids) {query : Query}
    (scheduled : query ∈ schedule kid) : query ∈ schedule node := by
  rw [schedule_eq]
  simp only [List.mem_append, List.mem_flatMap, mem_inTurn]
  exact .inr (.inl ⟨kid, member, scheduled⟩)

theorem Inside.mem_schedule {asked : Query} (inside : Inside kid asked) : asked ∈ schedule kid := by
  cases inside with
  | own measure => exact own_mem_schedule kid measure
  | deeper measure _ held =>
      exact kid_mem_schedule (Covered.mem_kids.mpr ⟨_, held⟩) (own_mem_schedule _ measure)

theorem mem_schedule_of_occurs {root : Covered} {above : Option Covered}
    (occurs : Occurs root above slot node) {query : Query} (scheduled : query ∈ schedule node) :
    query ∈ schedule root := by
  induction occurs with
  | top => exact scheduled
  | child slot _ held ih =>
      exact ih (kid_mem_schedule (Covered.mem_kids.mpr ⟨slot, held⟩) scheduled)

theorem occurs_of_mem_schedule {root : Covered} (node : Covered) :
    ∀ {above slot}, Occurs root above slot node → ∀ query ∈ schedule node,
      ∃ above slot inner, Occurs root above slot inner ∧ inner.number = query.node := by
  induction node using Covered.induction with
  | step node ih =>
      intro above slot occurs query member
      rw [schedule_eq, List.mem_append, List.mem_append, List.mem_flatMap] at member
      rcases member with own | ⟨kid, inside, below⟩ | own
      · exact ⟨above, slot, node, occurs, (own_of_mem_ends (.inl own)).symm⟩
      · obtain ⟨place, held⟩ := Covered.mem_kids.mp (mem_inTurn.mp inside)
        exact ih kid (mem_inTurn.mp inside) (.child place occurs held) query below
      · exact ⟨above, slot, node, occurs, (own_of_mem_ends (.inr own)).symm⟩

theorem length_inTurn_flatten {α : Type} (kind : Kind) (lists : List (List α)) :
    (inTurn kind lists).flatten.length = lists.flatten.length := by
  unfold inTurn
  split
  · simp [List.length_flatten, List.map_reverse, List.sum_reverse]
  · rfl

mutual

theorem length_schedule (node : Covered) (parent : Option Nat) (slot : Nat) :
    (schedule node).length = 4 * (node.cellsUnder parent slot).length := by
  match node with
  | .mk info branches =>
      have below := length_schedules branches info.number 0
      have ends : (heads info).length + (tails info).length = 4 := by
        unfold heads tails
        cases info.kind.completion <;> rfl
      rw [schedule, Covered.cellsUnder, List.length_append, List.length_append,
        length_inTurn_flatten, List.length_cons]
      omega

theorem length_schedules (branches : List Branch) (parent index : Nat) :
    (schedules branches).flatten.length = 4 * (cellsOfBranches parent index branches).length := by
  match branches with
  | [] => rfl
  | .atom value :: rest =>
      rw [schedules, cellsOfBranches]
      exact length_schedules rest parent (index + 1)
  | .node covered :: rest =>
      have first := length_schedule covered (some parent) index
      have others := length_schedules rest parent (index + 1)
      rw [schedules, cellsOfBranches, List.flatten_cons, List.length_append, List.length_append]
      omega

end

end Schedules

/-- Each count asks only for counts known before or listed in front of it. -/
def Settled (tree : CoverTree) (known : List Query) : List Query → Prop
  | [] => True
  | query :: rest =>
      (∀ asked ∈ (rule tree query).asks, asked ∈ known) ∧ Settled tree (query :: known) rest

namespace Settled

variable {tree : CoverTree} {known : List Query}

theorem mono {more queries : List Query} (settled : Settled tree known queries)
    (larger : known ⊆ more) : Settled tree more queries := by
  induction queries generalizing known more with
  | nil => trivial
  | cons query rest ih =>
      refine ⟨fun asked member => larger (settled.1 asked member), ?_⟩
      exact ih settled.2 (List.cons_subset_cons query larger)

theorem append {first second : List Query} (before : Settled tree known first)
    (after : Settled tree (first ++ known) second) : Settled tree known (first ++ second) := by
  induction first generalizing known with
  | nil => exact after
  | cons query rest ih =>
      refine ⟨before.1, ih before.2 (after.mono ?_)⟩
      intro asked member
      simp only [List.cons_append, List.mem_cons, List.mem_append] at member ⊢
      rcases member with same | inside | old
      · exact .inr (.inl same)
      · exact .inl inside
      · exact .inr (.inr old)

theorem flatMap (nodes : List Covered)
    (each : ∀ before node after, nodes = before ++ node :: after →
      Settled tree (before.flatMap schedule ++ known) (schedule node)) :
    Settled tree known (nodes.flatMap schedule) := by
  induction nodes generalizing known with
  | nil => trivial
  | cons node rest ih =>
      have first : Settled tree known (schedule node) := each [] node rest rfl
      rw [List.flatMap_cons]
      apply first.append
      apply ih
      intro before other after split
      apply (each (node :: before) other after (by rw [split]; rfl)).mono
      intro asked member
      simp only [List.flatMap_cons, List.mem_append] at member ⊢
      rcases member with (first | inside) | old
      · exact .inr (.inl first)
      · exact .inl inside
      · exact .inr (.inr old)

theorem place_lt {queries : List Query} (settled : Settled tree known queries) {query asked : Query}
    (listed : query ∈ queries) (asks : asked ∈ (rule tree query).asks) :
    asked ∈ known ∨ queries.idxOf asked < queries.idxOf query := by
  induction queries generalizing known with
  | nil => simp at listed
  | cons head rest ih =>
      by_cases same : query = head
      · subst same
        exact .inl (settled.1 asked asks)
      · have inside : query ∈ rest := by simpa [same] using listed
        have later {item : Query} (other : item ≠ head) :
            (head :: rest).idxOf item = rest.idxOf item + 1 := by
          rw [List.idxOf_cons, beq_false_of_ne (Ne.symm other), cond_false]
        rw [later same]
        by_cases first : asked = head
        · right
          rw [first, List.idxOf_cons_self]
          exact Nat.succ_pos _
        · rw [later first]
          rcases ih settled.2 inside with old | earlier
          · left
            simpa [first] using old
          · exact .inr (Nat.succ_lt_succ earlier)

end Settled

section Turns

variable {tree : CoverTree} {node kid : Covered} {above : Option Covered} {slot : Nat}

def doneBefore (node : Covered) (slot : Nat) : List Covered :=
  if backwards node.kind then node.kidsAfter slot else node.kidsBefore slot

theorem turn_split {before after : List Covered}
    (split : inTurn node.kind node.kids = before ++ kid :: after) :
    ∃ slot, node.kid? slot = some kid ∧ ∀ sibling ∈ doneBefore node slot, sibling ∈ before := by
  unfold inTurn at split
  unfold doneBefore
  by_cases turned : backwards node.kind = true
  · rw [if_pos turned] at split
    have sourceOrder : node.kids = after.reverse ++ kid :: before.reverse := by
      rw [← List.reverse_reverse node.kids, split]
      simp
    obtain ⟨slot, held, _, behind⟩ := Covered.slot_of_split sourceOrder
    refine ⟨slot, held, fun sibling member => ?_⟩
    rw [if_pos turned, behind] at member
    exact List.mem_reverse.mp member
  · rw [if_neg turned] at split
    obtain ⟨slot, held, front, _⟩ := Covered.slot_of_split split
    refine ⟨slot, held, fun sibling member => ?_⟩
    rwa [if_neg turned, front] at member

/-- What is known when the turn of a node comes: the heads of its parent, and everything about the
siblings scheduled before it. -/
def Reached (known : List Query) (above : Option Covered) (slot : Nat) : Prop :=
  ∀ parent, above = some parent →
    heads parent.info ⊆ known ∧ ∀ sibling ∈ doneBefore parent slot, schedule sibling ⊆ known

variable {known : List Query}

/-- When the turn of a node comes, all that its entry asks for is known; the entry of a target may
ask for its completion. -/
theorem entry_asks_known (grown : Grown tree) (occurs : Occurs tree.root above slot node)
    (reached : Reached known above slot) :
    ∀ asked ∈ (rule tree ⟨.entry, node.number⟩).asks,
      asked ∈ known ∨ node.kind.propagation = .alternate ∧ asked = ⟨.completion, node.number⟩ := by
  intro asked member
  cases above with
  | none =>
      rw [rule_entry grown occurs] at member
      simp only [entryRule, Option.map_none, Covered.cell_parent, Formula.asks] at member
      split at member <;> simp [Formula.asks, hitsOf_asks] at member
  | some parent =>
      obtain ⟨⟨higher, place, parentOccurs⟩, held⟩ := occurs.parent
      rw [rule_entry_below grown occurs parentOccurs] at member
      split at member
      · simp [hitsOf_asks] at member
      · split at member
        · rename_i target
          exact .inr ⟨target.1, by simpa [completionOf, Formula.asks] using member⟩
        · rename_i ordinary
          left
          obtain ⟨headsKnown, siblingsKnown⟩ := reached parent rfl
          -- a child of a list of targets or of a splat would be a target itself
          have sameOrder : earlierKids parent slot = doneBefore parent slot := by
            have noList : ¬ (parent.kind = .targetList ∨ parent.kind = .splatTarget) := by
              intro targets
              have alternate :=
                (grown.regular _ _ _ parentOccurs).propagation_of_parent held targets
              rcases targets with same | same <;> simp [alternate, same] at ordinary
            simp only [not_or] at noList
            simp [earlierKids, doneBefore, backwards, noList]
          rcases childEntry_asks grown occurs _ _ asked member with rfl | ⟨sibling, earlier, inside⟩
          · exact headsKnown (entry_mem_heads parent.info)
          · rw [sameOrder] at earlier
            exact siblingsKnown sibling earlier inside.mem_schedule

theorem completion_mem_heads {info : Info}
    (early : info.kind.completion = .alternate ∨
      ∃ tracker, info.kind.completion = .counted tracker) :
    ⟨.completion, info.number⟩ ∈ heads info := by
  unfold heads
  rcases early with same | ⟨tracker, same⟩ <;> simp [same]

theorem target_asks_known (grown : Grown tree) (placed : tree.targetsPlaced = true)
    (occurs : Occurs tree.root above slot node) (alternate : node.kind.propagation = .alternate)
    (reached : Reached known above slot) :
    ∀ asked ∈ (rule tree ⟨.completion, node.number⟩).asks, asked ∈ known := by
  intro asked member
  obtain ⟨parent, rfl, stands⟩ := parent_of_alternate grown placed occurs alternate
  obtain ⟨headsKnown, siblingsKnown⟩ := reached parent rfl
  simp only [rule_completion grown occurs, completionRule, Covered.cell_kind,
    alternate_completion alternate] at member
  have parentKnown : ⟨.completion, parent.number⟩ ∈ known := by
    apply headsKnown
    apply completion_mem_heads
    change parent.kind.completion = _ ∨ ∃ tracker, parent.kind.completion = .counted tracker
    rcases stands with ⟨same, _⟩ | same | same <;> simp [same, Kind.completion]
  rcases targetCompletion_asks grown occurs asked member with rfl | next
  · exact parentKnown
  · rcases stands with ⟨same, rfl⟩ | targets
    · -- the targets of a multiple assignment are its first child, with nothing in front
      rw [if_pos same] at next
      obtain ⟨sibling, front, _⟩ := next
      simp [Covered.kidsBefore] at front
    · have single : parent.kind ≠ .multipleAssignment := by
        rcases targets with same | same <;> simp [same]
      rw [if_neg single] at next
      obtain ⟨sibling, behind, rfl⟩ := next
      apply siblingsKnown sibling _ (own_mem_schedule sibling .entry)
      rcases targets with same | same <;> simpa [doneBefore, backwards, same] using behind

theorem heads_settled (grown : Grown tree) (placed : tree.targetsPlaced = true)
    (occurs : Occurs tree.root above slot node) (reached : Reached known above slot) :
    Settled tree known (heads node.info) := by
  have entryKnown := entry_asks_known grown occurs reached
  by_cases alternate : node.kind.propagation = .alternate
  · -- the entry of a target follows its completion
    have order : heads node.info = [⟨.completion, node.number⟩, ⟨.entry, node.number⟩] := by
      have same : node.info.kind.completion = .alternate := alternate_completion alternate
      simp only [heads, same]
      rfl
    rw [order]
    refine ⟨target_asks_known grown placed occurs alternate reached, ?_, trivial⟩
    intro asked member
    rcases entryKnown asked member with old | ⟨_, rfl⟩
    · exact List.mem_cons_of_mem _ old
    · exact List.mem_cons_self
  · have entrySettled : ∀ asked ∈ (rule tree ⟨.entry, node.number⟩).asks, asked ∈ known := by
      intro asked member
      rcases entryKnown asked member with old | ⟨target, _⟩
      · exact old
      · exact absurd target alternate
    unfold heads
    split
    · rename_i same
      cases kind : node.info.kind <;> simp [kind, Kind.completion] at same <;>
        simp [Covered.kind, kind, Kind.propagation] at alternate
    · rename_i tracker counted
      refine ⟨entrySettled, ?_, trivial⟩
      intro asked member
      have sameRule := rule_completion grown occurs
      simp only [completionRule, Covered.cell_kind, Covered.kind, counted] at sameRule
      change asked ∈ (rule tree ⟨.completion, node.number⟩).asks at member
      simp [sameRule, hitsOf_asks] at member
    · exact ⟨entrySettled, trivial⟩

/-- Behind the heads of a node and the schedules of its children, its own entry and all counts of
its children are known. -/
theorem ownOrBelow_known (headsKnown : heads node.info ⊆ known)
    (kidsKnown : ∀ kid ∈ node.kids, schedule kid ⊆ known) {asked : Query}
    (near : OwnOrBelow node asked) : asked ∈ known := by
  rcases near with rfl | ⟨kid, member, same⟩
  · exact headsKnown (entry_mem_heads node.info)
  · apply kidsKnown kid member
    have own := own_mem_schedule kid asked.measure
    rwa [← same] at own

theorem completion_asks_known (grown : Grown tree) (occurs : Occurs tree.root above slot node)
    (reached : Reached known above slot) (headsKnown : heads node.info ⊆ known)
    (kidsKnown : ∀ kid ∈ node.kids, schedule kid ⊆ known)
    (forward : node.kind.propagation = .forward) :
    ∀ asked ∈ (rule tree ⟨.completion, node.number⟩).asks, asked ∈ known := by
  intro asked member
  rw [rule_completion grown occurs] at member
  rcases completionRule_asks grown occurs forward asked member with near | ⟨call, block, rfl, rfl⟩
  · exact ownOrBelow_known headsKnown kidsKnown near
  · -- the call of a block completes with the block, which has a counter
    obtain ⟨⟨higher, place, parentOccurs⟩, held⟩ := occurs.parent
    have around := (grown.regular _ _ _ parentOccurs).parent_of_blockCall held call
    apply (reached block rfl).1
    apply completion_mem_heads
    right
    exact ⟨.completion, by rw [← Covered.kind, around]; rfl⟩

theorem tails_settled (grown : Grown tree) (occurs : Occurs tree.root above slot node)
    (reached : Reached known above slot) (headsKnown : heads node.info ⊆ known)
    (kidsKnown : ∀ kid ∈ node.kids, schedule kid ⊆ known) :
    Settled tree known (tails node.info) := by
  -- once entry and completion are known, the other two counts can be derived
  have rest (more : List Query) (larger : known ⊆ more)
      (completed : ⟨.completion, node.number⟩ ∈ more) :
      Settled tree more [⟨.interruption, node.number⟩, ⟨.execution, node.number⟩] := by
    refine ⟨?_, ?_, trivial⟩
    · intro asked member
      rw [rule_interruption grown occurs, interruptionRule_asks] at member
      simp only [List.mem_cons, List.not_mem_nil, or_false] at member
      rcases member with rfl | rfl
      · exact larger (headsKnown (entry_mem_heads node.info))
      · exact completed
    · intro asked member
      rw [rule_execution grown occurs] at member
      apply List.mem_cons_of_mem
      rcases executionRule_asks grown occurs asked member with near | rfl
      · exact larger (ownOrBelow_known headsKnown kidsKnown near)
      · exact completed
  unfold tails
  split
  · rename_i same
    exact rest known (fun _ old => old) (headsKnown (completion_mem_heads (.inl same)))
  · rename_i tracker same
    exact rest known (fun _ old => old) (headsKnown (completion_mem_heads (.inr ⟨tracker, same⟩)))
  · rename_i notAlternate notCounted
    have forward : node.kind.propagation = .forward := by
      cases kind : node.info.kind <;> simp [kind, Kind.completion] at notAlternate <;>
        simp [Covered.kind, kind, Kind.propagation]
    refine ⟨completion_asks_known grown occurs reached headsKnown kidsKnown forward, ?_⟩
    exact rest _ (List.subset_cons_self _ _) List.mem_cons_self

/-- The schedule of a node, one step of the induction over the tree: if the schedules of its
children are in order, so is its own. -/
theorem schedule_settled (grown : Grown tree) (placed : tree.targetsPlaced = true)
    (node : Covered) : ∀ above slot known, Occurs tree.root above slot node →
      Reached known above slot → Settled tree known (schedule node) := by
  induction node using Covered.induction with
  | step node ih =>
      intro above slot known occurs reached
      have wider {more : List Query} (larger : known ⊆ more) : Reached more above slot := by
        intro parent stands
        obtain ⟨headsKnown, siblingsKnown⟩ := reached parent stands
        exact ⟨List.Subset.trans headsKnown larger,
          fun sibling done => List.Subset.trans (siblingsKnown sibling done) larger⟩
      -- heads first, then the children in their order, then what needs the children
      rw [schedule_eq]
      apply (heads_settled grown placed occurs reached).append
      apply Settled.append
      · apply Settled.flatMap
        intro before kid after split
        obtain ⟨slot, held, done⟩ := turn_split split
        apply ih kid (Covered.mem_kids.mpr ⟨slot, held⟩) (some node) slot _
          (.child slot occurs held)
        intro parent same
        obtain rfl : node = parent := by simpa using same
        constructor
        · exact List.Subset.trans (List.subset_append_left _ _) (List.subset_append_right _ _)
        · intro sibling member query scheduled
          apply List.mem_append_left
          exact List.mem_flatMap.mpr ⟨sibling, done sibling member, scheduled⟩
      · apply tails_settled grown occurs
        · apply wider
          exact List.Subset.trans (List.subset_append_right _ _) (List.subset_append_right _ _)
        · exact List.Subset.trans (List.subset_append_left _ _) (List.subset_append_right _ _)
        · intro kid member query scheduled
          apply List.mem_append_left
          exact List.mem_flatMap.mpr ⟨kid, mem_inTurn.mpr member, scheduled⟩

end Turns

section Ranks

variable {tree : CoverTree}

def rankIn (tree : CoverTree) (query : Query) : Nat :=
  (schedule tree.root).idxOf query

theorem rank_le (tree : CoverTree) (query : Query) : rankIn tree query ≤ 4 * tree.size := by
  have total := length_schedule tree.root none 0
  rw [CoverTree.size_eq, Covered.cells, ← total]
  exact List.idxOf_le_length

theorem ranked (grown : Grown tree) (placed : tree.targetsPlaced = true) :
    Ranked tree (rankIn tree) := by
  intro query asked asks
  cases found : tree.cell? query.node with
  | none => simp [rule, found, Formula.asks] at asks
  | some cell =>
      obtain ⟨above, slot, node, occurs, number, _⟩ := grown.numbered.occurs_of_cell? found
      have listed : query ∈ schedule tree.root := by
        apply mem_schedule_of_occurs occurs
        have own := own_mem_schedule node query.measure
        rwa [number] at own
      have settled :=
        schedule_settled grown placed tree.root none 0 [] .top (by intro _ top; cases top)
      rcases settled.place_lt listed asks with old | earlier
      · cases old
      · exact earlier

end Ranks

/-- Following the rules ends on every tree whose lists of targets stand in multiple assignments:
each count asks only for counts that come before it in a well-founded order, so fuel never runs
out, and more of it would change nothing. -/
theorem derivation_terminates {tree : CoverTree} (built : Built tree)
    (placed : tree.targetsPlaced = true) :
    ∃ before : Query → Query → Prop, WellFounded before ∧
      (∀ query, ∀ asked ∈ (rule tree query).asks, before asked query) ∧
      ∀ (hits : Probe.Hits) (told : Option Nat) (arithmetic : Arithmetic) (query : Query),
        let view : View := ⟨tree, hits, told, arithmetic⟩
        view.derive query = (rule tree query).eval arithmetic hits told view.derive ∧
        (∀ more, view.deriveWith (view.fuel + more) query = view.derive query) ∧
        ∀ node, view.derive query ≠ .error (.circular node) := by
  have ordered := ranked built.grown placed
  refine ⟨InvImage (· < ·) (rankIn tree), InvImage.wf _ Nat.lt_wfRel.wf, ordered, ?_⟩
  intro hits told arithmetic query
  refine ⟨View.derive_unfold ordered (rank_le tree) query, ?_, ?_⟩
  · intro more
    exact View.deriveWith_stable ordered _ more query (Nat.lt_succ_of_le (rank_le tree query))
  · exact View.derive_not_circular ordered (rank_le tree)
      (fun asked => (plain_rule tree asked).1) query

/-- `a, (b, *c), d.e = f`. -/
def nestedTargets : Ast.Node :=
  .mk "masgn"
    [.node (.mk "mlhs"
      [.node (.mk "lvasgn" [.atom (.text "a")] none),
       .node (.mk "mlhs"
         [.node (.mk "lvasgn" [.atom (.text "b")] none),
          .node (.mk "splat" [.node (.mk "lvasgn" [.atom (.text "c")] none)] none)] none),
       .node (.mk "send"
         [.node (.mk "send" [.atom .nil, .atom (.text "d")] none), .atom (.text "e=")] none)] none),
     .node (.mk "send" [.atom .nil, .atom (.text "f")] none)] none

theorem derivation_terminates_targets :
    ∃ tree, CoverTree.ofProgram Probe.defaultGlobal 0 nestedTargets = .ok tree ∧
      tree.targetsPlaced = true ∧
      ∀ hits told arithmetic query node,
        View.derive ⟨tree, hits, told, arithmetic⟩ query ≠ .error (.circular node) := by
  have ends {tree : CoverTree}
      (covered : CoverTree.ofProgram Probe.defaultGlobal 0 nestedTargets = .ok tree)
      (placed : tree.targetsPlaced = true) (hits : Probe.Hits) (told : Option Nat)
      (arithmetic : Arithmetic) (query : Query) :
      ∀ node, View.derive ⟨tree, hits, told, arithmetic⟩ query ≠ .error (.circular node) := by
    obtain ⟨_, _, _, following⟩ := derivation_terminates (.program covered) placed
    exact (following hits told arithmetic query).2.2
  exact ⟨_, rfl, rfl, ends rfl rfl⟩

/-- A list of targets on its own waits for itself. -/
example :
    ∃ tree, CoverTree.ofProgram Probe.defaultGlobal 0
        (.mk "begin"
          [.node (.mk "mlhs" [.node (.mk "lvasgn" [.atom (.text "a")] none)] none)] none) =
        .ok tree ∧
      tree.targetsPlaced = false ∧
      ∃ node, View.entry ⟨tree, .empty, none, .word⟩ 3 = .error (.circular node) :=
  ⟨_, rfl, rfl, _, rfl⟩

end ProbeCoverage.Flow
