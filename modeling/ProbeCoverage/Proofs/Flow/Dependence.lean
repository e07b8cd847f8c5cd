import ProbeCoverage.Proofs.Cover.Placement
import ProbeCoverage.Proofs.Flow.Evaluation

/-!
Which counts the rules ask for. A node's entry asks only for counts of its parent and of siblings
that control reaches before it, and its completion only for counts of the node itself and of its
children. Assignment targets turn this around: their completion asks for the next target or for the
parent, and their entry for their completion.
-/

namespace ProbeCoverage.Flow

open Cover

section Formulas

variable (tree : CoverTree)

theorem hitsOf_asks (node : Nat) (tracker : Tracker) : (hitsOf tree node tracker).asks = [] := by
  unfold hitsOf
  split <;> rfl

theorem foldl_plus_asks (terms : List Formula) (start : Formula) :
    (terms.foldl .plus start).asks = start.asks ++ terms.flatMap Formula.asks := by
  induction terms generalizing start with
  | nil => simp
  | cons term rest ih => simp [ih, Formula.asks]

theorem sum_asks (terms : List Formula) :
    (Formula.sum terms).asks = terms.flatMap Formula.asks := by
  rw [Formula.sum, foldl_plus_asks]
  rfl

theorem whenBodyEntry_asks (cell : Cell) : (whenBodyEntry tree cell).asks = [] := by
  simp [whenBodyEntry, sum_asks, List.flatMap_map, hitsOf_asks]

theorem whenTested_asks (cell : Cell) : (whenTested tree cell).asks = [] := by
  simp only [whenTested, Formula.asks, whenBodyEntry_asks, List.nil_append]
  split
  · exact hitsOf_asks tree _ _
  · rfl

theorem whenFallThrough_asks (cell : Cell) : (whenFallThrough tree cell).asks = [] := by
  simp [whenFallThrough, Formula.asks, whenTested_asks, whenBodyEntry_asks]

end Formulas

section Rules

variable {tree : CoverTree} {node kid : Covered} {above : Option Covered} {slot : Nat}

theorem rule_entry (grown : Grown tree) (occurs : Occurs tree.root above slot node) :
    rule tree ⟨.entry, node.number⟩ =
      entryRule tree (node.cell (above.map Covered.number) slot) := by
  simp only [rule, grown.numbered.cell?_of_occurs occurs]

theorem rule_completion (grown : Grown tree) (occurs : Occurs tree.root above slot node) :
    rule tree ⟨.completion, node.number⟩ =
      completionRule tree (node.cell (above.map Covered.number) slot) := by
  simp only [rule, grown.numbered.cell?_of_occurs occurs]

theorem rule_interruption (grown : Grown tree) (occurs : Occurs tree.root above slot node) :
    rule tree ⟨.interruption, node.number⟩ =
      interruptionRule (node.cell (above.map Covered.number) slot) := by
  simp only [rule, grown.numbered.cell?_of_occurs occurs]

theorem rule_execution (grown : Grown tree) (occurs : Occurs tree.root above slot node) :
    rule tree ⟨.execution, node.number⟩ =
      executionRule tree (node.cell (above.map Covered.number) slot) := by
  simp only [rule, grown.numbered.cell?_of_occurs occurs]

theorem rule_entry_below {higher : Option Covered} {place : Nat} (grown : Grown tree)
    (occurs : Occurs tree.root (some node) slot kid)
    (parentOccurs : Occurs tree.root higher place node) :
    rule tree ⟨.entry, kid.number⟩ =
      if kid.kind = .setterTarget then hitsOf tree kid.number .entry
      else if kid.kind.propagation = .alternate ∧ node.kind ≠ .multipleAssignment then
        completionOf kid.number
      else
        childEntry tree (node.cell (higher.map Covered.number) place)
          (kid.cell (some node.number) slot) := by
  rw [rule_entry grown occurs]
  simp only [entryRule, Option.map_some, Covered.cell_parent, Covered.cell_kind,
    Covered.cell_number, grown.numbered.cell?_of_occurs parentOccurs]
  by_cases target : kid.kind.propagation = .alternate <;>
    by_cases multiple : node.kind = .multipleAssignment <;> simp [target, multiple]

theorem alternate_completion {kind : Kind} (alternate : kind.propagation = .alternate) :
    kind.completion = .alternate := by
  cases kind <;> simp [Kind.propagation] at alternate <;> rfl

theorem rule_completion_target (grown : Grown tree) (occurs : Occurs tree.root (some node) slot kid)
    (alternate : kid.kind.propagation = .alternate) :
    rule tree ⟨.completion, kid.number⟩ =
      match if node.kind = .multipleAssignment then (node.kidsBefore slot).getLast?
        else (node.kidsAfter slot).head? with
      | some next => entryOf next.number
      | none => completionOf node.number := by
  rw [rule_completion grown occurs]
  simp only [completionRule, Covered.cell_kind, alternate_completion alternate, targetCompletion,
    Covered.cell_number, grown.numbered.nextInFlow?_of_occurs occurs, Covered.cell_parent,
    Option.map_some]
  cases (if node.kind = .multipleAssignment then (node.kidsBefore slot).getLast?
    else (node.kidsAfter slot).head?) <;> rfl

/-- Counts that a node of the tree asks for at a child: the child's own, or those of a node that
the child, a handler, holds at a slot. -/
inductive Inside (kid : Covered) : Query → Prop where
  | own (measure : Measure) : Inside kid ⟨measure, kid.number⟩
  | deeper {slot : Nat} {inner : Covered} (measure : Measure) :
      kid.kind = .handler → kid.kid? slot = some inner → Inside kid ⟨measure, inner.number⟩

def earlierKids (node : Covered) (slot : Nat) : List Covered :=
  if node.kind = .multipleAssignment then node.kidsAfter slot else node.kidsBefore slot

theorem previous_cell (grown : Grown tree) (occurs : Occurs tree.root (some node) slot kid) :
    ((node.kidsBefore slot).getLast? = none ∧
        (tree.previousSibling? kid.number).bind tree.cell? = none) ∨
      ∃ previous ∈ node.kidsBefore slot, ∃ place,
        Occurs tree.root (some node) place previous ∧
        (node.kidsBefore slot).getLast? = some previous ∧
        (tree.previousSibling? kid.number).bind tree.cell? =
          some (previous.cell (some node.number) place) := by
  rw [grown.numbered.previousSibling?_of_occurs occurs]
  cases last : (node.kidsBefore slot).getLast? with
  | none => exact .inl ⟨rfl, rfl⟩
  | some previous =>
      have member := List.mem_of_getLast? last
      obtain ⟨place, held⟩ := Covered.mem_kids.mp (Covered.kidsBefore_subset member)
      obtain ⟨⟨higher, at_, parent⟩, _⟩ := occurs.parent
      have occursPrevious : Occurs tree.root (some node) place previous := .child place parent held
      refine .inr ⟨previous, member, place, occursPrevious, rfl, ?_⟩
      simpa using grown.numbered.cell?_of_occurs occursPrevious

theorem forwardEntry_asks (grown : Grown tree) (occurs : Occurs tree.root (some node) slot kid)
    (owner : Option Nat) (place : Nat) :
    ∀ asked ∈ (forwardEntry tree (node.cell owner place) (kid.cell (some node.number) slot)).asks,
      asked = ⟨.entry, node.number⟩ ∨ ∃ sibling ∈ earlierKids node slot, Inside sibling asked := by
  intro asked member
  simp only [forwardEntry, Covered.cell_number] at member
  rw [grown.numbered.previousInFlow?_of_occurs occurs] at member
  unfold earlierKids
  split at member
  · rename_i previous found
    obtain ⟨sibling, chosen, rfl⟩ := Option.map_eq_some_iff.mp found
    right
    simp only [completionOf, Formula.asks, List.mem_singleton] at member
    subst member
    split at chosen
    · rename_i multiple
      rw [if_pos multiple]
      exact ⟨sibling, List.mem_of_head? chosen, .own _⟩
    · rename_i single
      rw [if_neg single]
      exact ⟨sibling, List.mem_of_getLast? chosen, .own _⟩
  · left
    simpa [entryOf, Formula.asks] using member

theorem branchEntry_asks (later : slot ≠ 0) (owner : Option Nat) (place : Nat) :
    ∀ asked ∈ (branchEntry tree (node.cell owner place) slot).asks,
      ∃ sibling ∈ node.kidsBefore slot, Inside sibling asked := by
  intro asked member
  simp only [branchEntry, withChild, Covered.cell_child?] at member
  cases held : node.kid? 0 with
  | none => simp [held, Formula.asks] at member
  | some condition =>
      refine ⟨condition, Covered.mem_kidsBefore held (by omega), ?_⟩
      have same : asked = ⟨.completion, condition.number⟩ := by
        simp only [held, Option.map_some] at member
        split at member <;> split at member <;>
          simpa [Formula.asks, completionOf, hitsOf_asks] using member
      exact same ▸ .own _

theorem clauseEntry_asks (grown : Grown tree) (occurs : Occurs tree.root (some node) slot kid)
    (owner : Option Nat) (place : Nat) :
    ∀ asked ∈ (clauseEntry tree (node.cell owner place) (kid.cell (some node.number) slot)).asks,
      asked = ⟨.entry, node.number⟩ ∨ ∃ sibling ∈ node.kidsBefore slot, Inside sibling asked := by
  intro asked member
  simp only [clauseEntry, Covered.cell_number] at member
  rcases previous_cell grown occurs with ⟨_, absent⟩ | ⟨previous, before, place, _, _, found⟩
  · simp only [absent, entryOf, Formula.asks, List.mem_singleton] at member
    exact .inl member
  · simp only [found] at member
    split at member
    · simp [whenFallThrough_asks] at member
    · simp only [completionOf, Formula.asks, Covered.cell_number, List.mem_singleton] at member
      exact .inr ⟨previous, before, member ▸ .own _⟩

theorem handlerUnhandled_asks (handles : node.kind = .handler) (owner : Option Nat) (place : Nat) :
    ∀ asked ∈ (handlerUnhandled tree (node.cell owner place)).asks, Inside node asked := by
  intro asked member
  simp only [handlerUnhandled, handlerTested, Covered.cell_child?, Formula.asks, hitsOf_asks,
    List.append_nil] at member
  cases held : node.kid? 0 with
  | none =>
      simp only [held, Option.map_none, entryOf, Formula.asks, Covered.cell_number,
        List.mem_singleton] at member
      exact member ▸ .own _
  | some exceptions =>
      simp only [held, Option.map_some, completionOf, Formula.asks, List.mem_singleton] at member
      exact member ▸ .deeper _ handles held

theorem guardedChildEntry_asks (grown : Grown tree)
    (occurs : Occurs tree.root (some node) slot kid) (later : slot ≠ 0)
    (owner : Option Nat) (place : Nat) :
    ∀ asked ∈
      (guardedChildEntry tree (node.cell owner place) (kid.cell (some node.number) slot)).asks,
      ∃ sibling ∈ node.kidsBefore slot, Inside sibling asked := by
  intro asked member
  simp only [guardedChildEntry, withChild, Covered.cell_child?, Covered.cell_number] at member
  cases held : node.kid? 0 with
  | none => simp [held, Formula.asks] at member
  | some body =>
      have before := Covered.mem_kidsBefore held (Nat.pos_of_ne_zero later)
      simp only [held, Option.map_some] at member
      rcases previous_cell grown occurs with ⟨_, absent⟩ | ⟨previous, earlier, place, _, _, found⟩
      · simp only [absent] at member
        split at member <;>
          simp only [interruptionOf, completionOf, Formula.asks, List.mem_singleton] at member <;>
          exact ⟨body, before, member ▸ .own _⟩
      · simp only [found] at member
        split at member
        · split at member
          · rename_i handles
            exact ⟨previous, earlier, handlerUnhandled_asks handles _ _ asked member⟩
          · simp only [interruptionOf, Formula.asks, List.mem_singleton] at member
            exact ⟨body, before, member ▸ .own _⟩
        · simp only [completionOf, Formula.asks, List.mem_singleton] at member
          exact ⟨body, before, member ▸ .own _⟩

theorem whenChildEntry_asks (owner : Option Nat) (place : Nat) :
    ∀ asked ∈ (whenChildEntry tree (node.cell owner place) slot).asks,
      asked = ⟨.entry, node.number⟩ := by
  intro asked member
  simp only [whenChildEntry, withChild] at member
  split at member
  · simp [whenBodyEntry_asks] at member
  · split at member
    · simpa [entryOf, Formula.asks] using member
    · split at member <;> simp [hitsOf_asks, Formula.asks] at member

/-- What a parent decides about the entry of a child asks for the parent's entry and for counts of
children that control reaches before. -/
theorem childEntry_asks (grown : Grown tree) (occurs : Occurs tree.root (some node) slot kid)
    (owner : Option Nat) (place : Nat) :
    ∀ asked ∈ (childEntry tree (node.cell owner place) (kid.cell (some node.number) slot)).asks,
      asked = ⟨.entry, node.number⟩ ∨ ∃ sibling ∈ earlierKids node slot, Inside sibling asked := by
  intro asked member
  have forward := forwardEntry_asks grown occurs owner place asked
  have entry (own : asked ∈ (entryOf node.number).asks) : asked = ⟨.entry, node.number⟩ := by
    simpa [entryOf, Formula.asks] using own
  -- every rule but the forward one belongs to a kind whose children run in source order
  have inOrder (single : node.kind ≠ .multipleAssignment) :
      earlierKids node slot = node.kidsBefore slot := if_neg single
  by_cases first : slot = 0
  · simp only [childEntry, Covered.cell_kind, Covered.cell_index, first, if_true] at member
    subst first
    split at member
    case h_1 | h_11 => simp [Formula.asks, hitsOf_asks] at member
    case h_5 => exact .inl (whenChildEntry_asks owner place asked member)
    case h_8 | h_9 | h_10 | h_14 => exact forward member
    all_goals exact .inl (entry member)
  · simp only [childEntry, Covered.cell_kind, Covered.cell_index, first, if_false] at member
    split at member
    case h_2 kind =>
      rw [inOrder (by simp [kind])]
      exact .inr (branchEntry_asks first owner place asked member)
    case h_4 kind =>
      rw [inOrder (by simp [kind])]
      exact clauseEntry_asks grown occurs owner place asked member
    case h_5 => exact .inl (whenChildEntry_asks owner place asked member)
    case h_6 kind =>
      rw [inOrder (by simp [kind])]
      exact .inr (guardedChildEntry_asks grown occurs first owner place asked member)
    case h_11 | h_14 => exact forward member
    all_goals simp [Formula.asks, hitsOf_asks] at member

/-- What the completion and the execution of a node may ask for, besides its entry: counts of its
children. -/
def OwnOrBelow (node : Covered) (asked : Query) : Prop :=
  asked = ⟨.entry, node.number⟩ ∨ ∃ kid ∈ node.kids, asked.node = kid.number

theorem entryOf_asks : ∀ asked ∈ (entryOf node.number).asks, OwnOrBelow node asked := by
  intro asked member
  exact .inl (by simpa [entryOf, Formula.asks] using member)

theorem completionOf_child_asks {owner : Option Nat} {place index child : Nat}
    (found : (node.cell owner place).child? index = some child) :
    ∀ asked ∈ (completionOf child).asks, OwnOrBelow node asked := by
  intro asked member
  rw [Covered.cell_child?] at found
  obtain ⟨kid, held, rfl⟩ := Option.map_eq_some_iff.mp found
  simp only [completionOf, Formula.asks, List.mem_singleton] at member
  exact .inr ⟨kid, Covered.mem_kids.mpr ⟨index, held⟩, by rw [member]⟩

theorem childCompletion_asks (owner : Option Nat) (place index : Nat) :
    ∀ asked ∈ (childCompletion (node.cell owner place) index).asks, OwnOrBelow node asked := by
  intro asked member
  unfold childCompletion at member
  split at member
  · rename_i found
    exact completionOf_child_asks found asked member
  · simp [Formula.asks] at member

theorem laterCompletions_asks (owner : Option Nat) (place : Nat) :
    ∀ asked ∈ (laterCompletions (node.cell owner place)).asks, OwnOrBelow node asked := by
  intro asked member
  simp only [laterCompletions, sum_asks, Covered.cell_children, ← List.map_drop,
    Covered.nodes_of_branches, List.map_map, List.mem_flatMap, List.mem_map] at member
  obtain ⟨formula, ⟨kid, later, rfl⟩, asks⟩ := member
  simp only [Function.comp, completionOf, Formula.asks, List.mem_singleton] at asks
  exact .inr ⟨kid, Covered.kidsAfter_subset later, by rw [asks]⟩

theorem withChild_asks (owner : Option Nat) (place index : Nat) (role : Role) :
    ∀ asked ∈ (withChild (node.cell owner place) index role completionOf).asks,
      OwnOrBelow node asked := by
  intro asked member
  unfold withChild at member
  split at member
  · rename_i found
    exact completionOf_child_asks found asked member
  · simp [Formula.asks] at member

theorem shortCircuitCompletion_asks (owner : Option Nat) (place : Nat) :
    ∀ asked ∈ (shortCircuitCompletion (node.cell owner place)).asks, OwnOrBelow node asked := by
  intro asked member
  simp only [shortCircuitCompletion, withChild, Covered.cell_child?] at member
  cases left : node.kid? 0 with
  | none => simp [left, Formula.asks] at member
  | some first =>
      cases right : node.kid? 1 with
      | none => simp [left, right, Formula.asks] at member
      | some second =>
          simp only [left, right, Option.map_some, Formula.asks, completionOf, entryOf,
            List.cons_append, List.nil_append, List.mem_cons, List.not_mem_nil, or_false] at member
          rcases member with rfl | rfl | rfl
          · exact .inr ⟨first, Covered.mem_kids.mpr ⟨0, left⟩, rfl⟩
          · exact .inr ⟨second, Covered.mem_kids.mpr ⟨1, right⟩, rfl⟩
          · exact .inr ⟨second, Covered.mem_kids.mpr ⟨1, right⟩, rfl⟩

theorem lastCompletion_asks (grown : Grown tree) (occurs : Occurs tree.root above slot node) :
    ∀ asked ∈ (lastCompletion tree (node.cell (above.map Covered.number) slot)).asks,
      OwnOrBelow node asked := by
  intro asked member
  simp only [lastCompletion, Covered.cell_number,
    grown.numbered.lastInFlow?_of_occurs occurs] at member
  cases last : node.flowKids.getLast? with
  | none =>
      simp only [last, Option.map_none] at member
      exact entryOf_asks asked member
  | some kid =>
      simp only [last, Option.map_some, completionOf, Formula.asks, List.mem_singleton] at member
      refine .inr ⟨kid, ?_, by rw [member]⟩
      have inside := List.mem_of_getLast? last
      unfold Covered.flowKids at inside
      split at inside
      · exact List.mem_reverse.mp inside
      · exact inside

/-- A completion by a rule of the kind's own asks for the entry of the node and for counts of its
children. Only the call of a block asks for the completion of the block. -/
theorem structuralCompletion_asks (parent : Option Nat) (place : Nat) :
    ∀ asked ∈ (structuralCompletion tree (node.cell parent place)).asks,
      OwnOrBelow node asked ∨
        node.kind = .blockCall ∧ ∃ block, parent = some block ∧ asked = ⟨.completion, block⟩ := by
  intro asked member
  simp only [structuralCompletion, Covered.cell_kind] at member
  split at member
  case h_1 call =>
    cases parent with
    | none => exact .inl (entryOf_asks asked member)
    | some block =>
        refine .inr ⟨call, block, rfl, ?_⟩
        simpa [Covered.cell_parent, completionOf, Formula.asks] using member
  case h_2 => exact .inl (shortCircuitCompletion_asks _ _ asked member)
  case h_3 =>
    simp only [Formula.asks, List.mem_append] at member
    rcases member with thenBranch | elseBranch
    · exact .inl (childCompletion_asks _ _ 1 asked thenBranch)
    · exact .inl (childCompletion_asks _ _ 2 asked elseBranch)
  case h_4 | h_5 => exact .inl (laterCompletions_asks _ _ asked member)
  case h_6 => exact .inl (childCompletion_asks _ _ _ asked member)
  case h_7 | h_8 => simp [Formula.asks, hitsOf_asks] at member
  case h_9 =>
    split at member
    · rename_i found
      exact .inl (completionOf_child_asks found asked member)
    · simp [hitsOf_asks] at member
  case h_10 => exact .inl (entryOf_asks asked member)

theorem completionRule_asks (grown : Grown tree) (occurs : Occurs tree.root above slot node)
    (forward : node.kind.propagation = .forward) :
    ∀ asked ∈ (completionRule tree (node.cell (above.map Covered.number) slot)).asks,
      OwnOrBelow node asked ∨
        node.kind = .blockCall ∧
          ∃ block, above = some block ∧ asked = ⟨.completion, block.number⟩ := by
  intro asked member
  simp only [completionRule, Covered.cell_kind] at member
  split at member
  case h_1 => exact .inl (lastCompletion_asks grown occurs asked member)
  case h_2 => simp [hitsOf_asks] at member
  case h_3 => simp [Formula.asks] at member
  case h_4 alternate =>
    cases kind : node.kind <;> simp [kind, Kind.propagation, Kind.completion] at forward alternate
  case h_5 =>
    rcases structuralCompletion_asks _ _ asked member with own | ⟨call, number, stands, same⟩
    · exact .inl own
    · obtain ⟨block, rfl, rfl⟩ := Option.map_eq_some_iff.mp stands
      exact .inr ⟨call, block, rfl, same⟩

theorem executionRule_asks (grown : Grown tree) (occurs : Occurs tree.root above slot node) :
    ∀ asked ∈ (executionRule tree (node.cell (above.map Covered.number) slot)).asks,
      OwnOrBelow node asked ∨ asked = ⟨.completion, node.number⟩ := by
  intro asked member
  simp only [executionRule, Covered.cell_kind] at member
  split at member
  case h_1 => exact .inl (entryOf_asks asked member)
  case h_2 => exact .inr (by simpa [completionOf, Formula.asks] using member)
  case h_3 => exact .inl (lastCompletion_asks grown occurs asked member)
  case h_4 =>
    left
    simp only [structuralExecution, Covered.cell_kind] at member
    split at member
    case h_1 | h_2 | h_5 | h_7 => exact withChild_asks _ _ _ _ asked member
    case h_3 =>
      split at member
      · rename_i found
        exact completionOf_child_asks found asked member
      · exact entryOf_asks asked member
    case h_4 => simp [whenTested_asks] at member
    case h_6 => simp [hitsOf_asks] at member
    case h_8 => exact entryOf_asks asked member

theorem interruptionRule_asks (owner : Option Nat) (place : Nat) :
    (interruptionRule (node.cell owner place)).asks =
      [⟨.entry, node.number⟩, ⟨.completion, node.number⟩] := rfl

theorem targetCompletion_asks (grown : Grown tree)
    (occurs : Occurs tree.root (some node) slot kid) :
    ∀ asked ∈ (targetCompletion tree (kid.cell (some node.number) slot)).asks,
      asked = ⟨.completion, node.number⟩ ∨
        if node.kind = .multipleAssignment then
          ∃ sibling ∈ node.kidsBefore slot, asked = ⟨.entry, sibling.number⟩
        else ∃ sibling ∈ node.kidsAfter slot, asked = ⟨.entry, sibling.number⟩ := by
  intro asked member
  simp only [targetCompletion, Covered.cell_number,
    grown.numbered.nextInFlow?_of_occurs occurs, Covered.cell_parent] at member
  by_cases multiple : node.kind = .multipleAssignment
  · simp only [multiple, if_true] at member ⊢
    cases next : (node.kidsBefore slot).getLast? with
    | none =>
        simp only [next, Option.map_none, completionOf, Formula.asks, List.mem_singleton] at member
        exact .inl member
    | some sibling =>
        simp only [next, Option.map_some, entryOf, Formula.asks, List.mem_singleton] at member
        exact .inr ⟨sibling, List.mem_of_getLast? next, member⟩
  · simp only [multiple, if_false] at member ⊢
    cases next : (node.kidsAfter slot).head? with
    | none =>
        simp only [next, Option.map_none, completionOf, Formula.asks, List.mem_singleton] at member
        exact .inl member
    | some sibling =>
        simp only [next, Option.map_some, entryOf, Formula.asks, List.mem_singleton] at member
        exact .inr ⟨sibling, List.mem_of_head? next, member⟩

end Rules

/-- A property of formulas that passes from the parts of a formula to the whole, sums apart. -/
structure Closed (tree : CoverTree) (holds : Formula → Prop) : Prop where
  zero : holds .zero
  fail : ∀ error, (∀ node, error ≠ .circular node) → holds (.fail error)
  hitsOf : ∀ node tracker, holds (hitsOf tree node tracker)
  count : ∀ measure node, measure ≠ .execution → holds (.count ⟨measure, node⟩)
  supplied : ∀ {otherwise}, holds otherwise → holds (.supplied otherwise)
  minus : ∀ {blame first second}, holds first → holds second → holds (.minus blame first second)
  after : ∀ {first second}, holds first → holds second → holds (.after first second)

structure HoldsOfSums (tree : CoverTree) (holds : Formula → Prop) (cell : Cell) : Prop where
  matched : cell.kind = .whenClause → holds (whenBodyEntry tree cell)
  tested : cell.kind = .whenClause → holds (whenTested tree cell)
  branches : cell.kind = .conditional →
    holds (.plus (childCompletion cell 1) (childCompletion cell 2))
  operands : cell.kind = .shortCircuit → holds (shortCircuitCompletion cell)
  later : cell.kind = .caseDispatch ∨ cell.kind = .guarded → holds (laterCompletions cell)
  verdicts : cell.kind.isMatcher = true →
    holds (.plus (hitsOf tree cell.number .matched) (hitsOf tree cell.number .missed))

namespace Closed

variable {tree : CoverTree} {holds : Formula → Prop} (closed : Closed tree holds)

include closed

theorem entryOf (node : Nat) : holds (entryOf node) := closed.count .entry node (by simp)

theorem completionOf (node : Nat) : holds (completionOf node) :=
  closed.count .completion node (by simp)

theorem interruptionOf (node : Nat) : holds (interruptionOf node) :=
  closed.count .interruption node (by simp)

theorem withChild {cell : Cell} {index : Nat} {role : Role} {use : Nat → Formula}
    (each : ∀ child, holds (use child)) : holds (withChild cell index role use) := by
  unfold Flow.withChild
  split
  · exact each _
  · exact closed.fail _ (by simp)

theorem childCompletion (cell : Cell) (index : Nat) : holds (childCompletion cell index) := by
  unfold Flow.childCompletion
  split
  · exact closed.completionOf _
  · exact closed.zero

theorem handlerUnhandled (cell : Cell) : holds (handlerUnhandled tree cell) := by
  apply closed.minus _ (closed.hitsOf _ _)
  unfold handlerTested
  split
  · exact closed.completionOf _
  · exact closed.entryOf _

theorem branchEntry (parent : Cell) (index : Nat) : holds (branchEntry tree parent index) := by
  apply closed.withChild
  intro condition
  have reached := closed.completionOf condition
  have taken := closed.hitsOf parent.number .branch
  dsimp only
  split
  · split
    · exact closed.after reached taken
    · exact closed.minus reached taken
  · split
    · exact reached
    · exact closed.after reached closed.zero

theorem guardedChildEntry (parent child : Cell) : holds (guardedChildEntry tree parent child) := by
  apply closed.withChild
  intro body
  split
  · split
    · split
      · exact closed.handlerUnhandled _
      · exact closed.interruptionOf body
    · exact closed.interruptionOf body
  · exact closed.completionOf body

theorem forwardEntry (parent child : Cell) : holds (forwardEntry tree parent child) := by
  unfold Flow.forwardEntry
  split
  · exact closed.completionOf _
  · exact closed.entryOf _

theorem clauseEntry {parent child : Cell}
    (falls : ∀ id cell, tree.cell? id = some cell → cell.kind = .whenClause →
      holds (whenFallThrough tree cell)) : holds (clauseEntry tree parent child) := by
  unfold Flow.clauseEntry
  split
  · rename_i previous found
    obtain ⟨id, _, stands⟩ := Option.bind_eq_some_iff.mp found
    split
    · rename_i clause
      exact falls id previous stands clause
    · exact closed.completionOf _
  · exact closed.entryOf _

theorem whenChildEntry {parent : Cell} {index : Nat} (body : holds (whenBodyEntry tree parent)) :
    holds (whenChildEntry tree parent index) := by
  unfold Flow.whenChildEntry
  split
  · exact body
  · split
    · exact closed.entryOf _
    · exact closed.withChild fun matcher => closed.hitsOf matcher .missed

theorem childEntry {parent child : Cell}
    (body : parent.kind = .whenClause → holds (whenBodyEntry tree parent))
    (falls : ∀ id cell, tree.cell? id = some cell → cell.kind = .whenClause →
      holds (whenFallThrough tree cell)) : holds (childEntry tree parent child) := by
  have own := closed.entryOf parent.number
  have forward := closed.forwardEntry parent child
  have counted (tracker : Tracker) := closed.hitsOf parent.number tracker
  unfold Flow.childEntry
  dsimp only
  split
  case h_1 => exact closed.supplied (counted .root)
  case h_5 clause => exact closed.whenChildEntry (body clause)
  case h_14 => exact forward
  all_goals
    split
    · first | exact own | exact forward | exact counted _
    · first
      | exact forward
      | exact counted _
      | exact closed.branchEntry parent child.index
      | exact closed.clauseEntry falls
      | exact closed.guardedChildEntry parent child

theorem lastCompletion (cell : Cell) : holds (lastCompletion tree cell) := by
  unfold Flow.lastCompletion
  split
  · exact closed.completionOf _
  · exact closed.entryOf _

theorem structuralCompletion {cell : Cell} (parts : HoldsOfSums tree holds cell) :
    holds (structuralCompletion tree cell) := by
  unfold Flow.structuralCompletion
  split
  case h_1 =>
    split
    · exact closed.completionOf _
    · exact closed.entryOf _
  case h_2 kind => exact parts.operands kind
  case h_3 kind => exact parts.branches kind
  case h_4 kind => exact parts.later (.inl kind)
  case h_5 kind => exact parts.later (.inr kind)
  case h_6 => exact closed.childCompletion cell _
  case h_7 kind | h_8 kind => exact parts.verdicts (by rw [kind]; rfl)
  case h_9 =>
    split
    · exact closed.completionOf _
    · exact closed.hitsOf _ _
  case h_10 => exact closed.entryOf _

theorem completionRule {cell : Cell} (parts : HoldsOfSums tree holds cell) :
    holds (completionRule tree cell) := by
  unfold Flow.completionRule
  split
  case h_1 => exact closed.lastCompletion cell
  case h_2 => exact closed.hitsOf _ _
  case h_3 => exact closed.zero
  case h_4 =>
    unfold targetCompletion
    split
    · exact closed.entryOf _
    · split
      · exact closed.completionOf _
      · exact closed.entryOf _
  case h_5 => exact closed.structuralCompletion parts

theorem executionRule {cell : Cell} (parts : HoldsOfSums tree holds cell) :
    holds (executionRule tree cell) := by
  unfold Flow.executionRule
  split
  case h_1 => exact closed.entryOf _
  case h_2 => exact closed.completionOf _
  case h_3 => exact closed.lastCompletion cell
  case h_4 =>
    unfold structuralExecution
    split
    case h_1 | h_2 | h_5 | h_7 => exact closed.withChild closed.completionOf
    case h_3 =>
      split
      · exact closed.completionOf _
      · exact closed.entryOf _
    case h_4 kind => exact parts.tested kind
    case h_6 => exact closed.hitsOf _ _
    case h_8 => exact closed.entryOf _

variable (sums : ∀ id cell, tree.cell? id = some cell → HoldsOfSums tree holds cell)

include sums

theorem entryRule (cell : Cell) : holds (entryRule tree cell) := by
  unfold Flow.entryRule
  split
  · apply closed.supplied
    split
    · exact closed.hitsOf _ _
    · exact closed.fail _ (by simp)
  · split
    · exact closed.hitsOf _ _
    · split
      · exact closed.fail _ (by simp)
      · rename_i parent found
        split
        · exact closed.completionOf _
        · apply closed.childEntry (sums _ parent found).matched
          intro id previous stands clause
          have parts := sums id previous stands
          exact closed.minus (parts.tested clause) (parts.matched clause)

/-- Every rule has a property that its parts have, if the sums of the tree do. -/
theorem rule (query : Query) : holds (rule tree query) := by
  unfold Flow.rule
  split
  · exact closed.fail _ (by simp)
  · rename_i cell found
    split
    · exact closed.entryRule sums cell
    · exact closed.completionRule (sums _ cell found)
    · exact closed.minus (closed.entryOf _) (closed.completionOf _)
    · exact closed.executionRule (sums _ cell found)

end Closed

def Plain (formula : Formula) : Prop :=
  (∀ node, Error.circular node ∉ formula.faults) ∧
    ∀ asked ∈ formula.asks, asked.measure ≠ .execution

theorem Plain.plus {first second : Formula} (left : Plain first) (right : Plain second) :
    Plain (.plus first second) := by
  constructor
  · intro node member
    exact (List.mem_append.mp member).elim (left.1 node) (right.1 node)
  · intro asked member
    exact (List.mem_append.mp member).elim (left.2 asked) (right.2 asked)

theorem Plain.sum {terms : List Formula} (each : ∀ term ∈ terms, Plain term) :
    Plain (.sum terms) := by
  have folded (start : Formula) (plain : Plain start) : Plain (terms.foldl .plus start) := by
    induction terms generalizing start with
    | nil => exact plain
    | cons term rest ih =>
        apply ih (fun other member => each other (List.mem_cons_of_mem _ member))
        exact plain.plus (each term List.mem_cons_self)
  exact folded .zero (by simp [Plain, Formula.faults, Formula.asks])

theorem closed_plain (tree : CoverTree) : Closed tree Plain where
  zero := by simp [Plain, Formula.faults, Formula.asks]
  fail error other := by
    refine ⟨fun node member => other node ?_, by simp [Formula.asks]⟩
    exact (List.mem_singleton.mp member).symm
  hitsOf node tracker := by
    unfold Flow.hitsOf
    split <;> simp [Plain, Formula.faults, Formula.asks]
  count measure node other := by
    simpa [Plain, Formula.faults, Formula.asks] using other
  supplied plain := plain
  minus left right := left.plus right
  after left right := left.plus right

/-- No rule states that a count hangs on itself, which only running out of fuel would, and none
asks for an execution. -/
theorem plain_rule (tree : CoverTree) (query : Query) : Plain (rule tree query) := by
  have closed := closed_plain tree
  have matched (cell : Cell) : Plain (whenBodyEntry tree cell) := by
    apply Plain.sum
    intro term member
    obtain ⟨matcher, _, rfl⟩ := List.mem_map.mp member
    exact closed.hitsOf matcher .matched
  apply closed.rule
  intro id cell _
  constructor
  · intro _
    exact matched cell
  · intro _
    apply (matched cell).plus
    split
    · exact closed.hitsOf _ _
    · exact closed.zero
  · intro _
    exact (closed.childCompletion cell 1).plus (closed.childCompletion cell 2)
  · intro _
    apply closed.withChild
    intro left
    apply closed.withChild
    intro right
    exact (closed.minus (closed.completionOf left) (closed.entryOf right)).plus
      (closed.completionOf right)
  · intro _
    apply Plain.sum
    intro term member
    obtain ⟨child, _, rfl⟩ := List.mem_map.mp member
    exact closed.completionOf child
  · intro _
    exact (closed.hitsOf _ _).plus (closed.hitsOf _ _)

end ProbeCoverage.Flow
