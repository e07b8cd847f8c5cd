import ProbeCoverage.Proofs.Cover.Arena
import ProbeCoverage.Proofs.Flow.Dependence

/-!
Which faults can come up. The rules ask for counters and for children of nodes whose kinds were
fixed by covering, and the two tables agree: no rule asks for a counter that its node does not
have, and a child is missing only where the syntax tree holds an atom in its place. So the faults
that a view reports are few, whatever was hit, told and remembered.
-/

namespace ProbeCoverage.Flow

open Cover
open Probe (Hits)

def View.matched (view : View) (cell : Cell) : Nat :=
  view.arithmetic.sum ((matchers view.tree cell).map fun test => view.hitsAt test .matched)

def View.passed (view : View) (cell : Cell) : Nat :=
  ((matchers view.tree cell).getLast?.map fun test => view.hitsAt test .missed).getD 0

namespace Formula

def Worth (view : View) (formula : Formula) (value : Nat) : Prop :=
  ∀ remember memo,
    formula.evalMemo view.arithmetic view.hits view.told remember memo = (.ok value, memo)

/-- A formula whose own faults are all admitted. A difference that takes a part of a sum from the
sum is below zero only where the sum wrapped around. -/
def Admitted (admits : Error → Prop) (view : View) : Formula → Prop
  | .zero | .hits _ | .count _ => True
  | .supplied otherwise => view.told = none → Admitted admits view otherwise
  | .plus first second | .after first second =>
      Admitted admits view first ∧ Admitted admits view second
  | .minus blame first second =>
      Admitted admits view first ∧ Admitted admits view second ∧
        ((∀ a b, admits (blame.error a b)) ∨
          ∃ more part rest, first = .plus second more ∧ second.Worth view part ∧
            more.Worth view rest ∧ (¬view.arithmetic.Holds (part + rest) →
              admits (blame.error (view.arithmetic.add part rest) part)))
  | .fail error => admits error

variable {view : View} {remember : Query → Memo → Except Error Nat × Memo} {admits : Error → Prop}

theorem Worth.plus {first second : Formula} {a b : Nat} (left : first.Worth view a)
    (right : second.Worth view b) : (plus first second).Worth view (view.arithmetic.add a b) := by
  intro remember memo
  simp only [evalMemo, left remember memo, right remember memo]

theorem worth_sum {terms : List Formula} {numbers : List Nat}
    (each : List.Forall₂ (Worth view) terms numbers) :
    (sum terms).Worth view (view.arithmetic.sum numbers) := by
  have folded (start : Formula) (number : Nat) (begun : start.Worth view number) :
      (terms.foldl plus start).Worth view (numbers.foldl view.arithmetic.add number) := by
    induction each generalizing start number with
    | nil => exact begun
    | cons same _ ih => exact ih _ _ (begun.plus same)
  exact folded zero 0 fun _ _ => rfl

/-- Evaluation fails where asking for a count fails, or with a fault that the formula admits. -/
theorem evalMemo_admitted (formula : Formula)
    (asks : ∀ query memo error, (remember query memo).1 = .error error → admits error)
    (admitted : formula.Admitted admits view) (memo : Memo) (error : Error)
    (failed : (formula.evalMemo view.arithmetic view.hits view.told remember memo).1 =
      .error error) : admits error := by
  induction formula generalizing memo with
  | zero | hits => cases failed
  | fail fault =>
      obtain rfl := Except.error.inj failed
      exact admitted
  | count query => exact asks query memo error failed
  | supplied otherwise ih =>
      cases told : view.told with
      | some runs => simp [evalMemo, told] at failed
      | none => exact ih (admitted told) memo (by simpa [evalMemo, told] using failed)
  | plus first second ihFirst ihSecond =>
      rw [evalMemo] at failed
      split at failed
      · rename_i left
        exact ihFirst admitted.1 memo (by rw [left]; exact failed)
      · split at failed
        · rename_i right
          exact ihSecond admitted.2 _ (by rw [right]; exact failed)
        · cases failed
  | after first second ihFirst ihSecond =>
      rw [evalMemo] at failed
      split at failed
      · rename_i left
        exact ihFirst admitted.1 memo (by rw [left]; exact failed)
      · exact ihSecond admitted.2 _ failed
  | minus blame first second ihFirst ihSecond =>
      rcases admitted with ⟨left, right, below⟩
      rw [evalMemo] at failed
      split at failed
      · rename_i done
        exact ihFirst left memo (by rw [done]; exact failed)
      · rename_i a middle done
        split at failed
        · rename_i follows
          exact ihSecond right _ (by rw [follows]; exact failed)
        · rename_i b last follows
          split at failed
          · cases failed
          · rename_i short
            rw [← Except.error.inj failed]
            rcases below with admits | ⟨more, part, rest, rfl, taken, added, wrapped⟩
            · exact admits a b
            · have sum := congrArg Prod.fst ((taken.plus added remember memo).symm.trans done)
              have again := congrArg Prod.fst ((taken remember middle).symm.trans follows)
              obtain rfl := Except.ok.inj sum
              obtain rfl := Except.ok.inj again
              exact wrapped fun fits => short (Arithmetic.le_add_of_holds fits)

end Formula

def Role.NeededAt (kind : Kind) (slot count : Nat) : Role → Prop
  | .condition => kind = .conditional ∧ slot = 0
  | .leftOperand => kind = .shortCircuit ∧ slot = 0
  | .rightOperand => kind = .shortCircuit ∧ slot = 1
  | .matcher => kind = .whenClause ∧ slot + 1 < count
  | .guardedBody => kind = .guarded ∧ slot = 0
  | .value => kind = .multipleAssignment ∧ slot = 1

inductive Reportable (view : View) : Error → Prop where
  | negative {node a b : Nat} {difference : Difference} : difference ≠ .fallThrough →
      Reportable view (.negative node difference a b)
  /-- The matches of a `when` and the misses of its last test are too many for one word. -/
  | fallThrough {node : Nat} {cell : Cell} : view.tree.cell? node = some cell →
      cell.kind = .whenClause → ¬view.arithmetic.Holds (view.matched cell + view.passed cell) →
      Reportable view (.negative node .fallThrough
        (view.arithmetic.add (view.matched cell) (view.passed cell)) (view.matched cell))
  | completions {node a b : Nat} : Reportable view (.completionExceedsEntry node a b)
  /-- The tree is that of a fragment, and nobody told how often it was entered. -/
  | entryCount {node fileIndex : Nat} {global : String} {fragment : Ast.Node} : view.told = none →
      CoverTree.ofFragment global fileIndex fragment = .ok view.tree →
      Reportable view (.missingEntryCount node)
  /-- A slot that needs a child holds an atom. -/
  | child {node slot : Nat} {role : Role} {cell : Cell} {value : Ast.Atom} :
      view.tree.cell? node = some cell → role.NeededAt cell.kind slot cell.children.length →
      cell.children[slot]? = some (.atom value) → Reportable view (.missingChild node role)
  /-- Derivation does not come to an end. -/
  | circular {node : Nat} : Reportable view (.circular node)
  | unknownNode {node : Nat} : view.tree.cell? node = none → Reportable view (.unknownNode node)

def Answerable (view : View) (formula : Formula) : Prop :=
  formula.Admitted (Reportable view) view

section Parts

variable {view : View} {id : Nat} {cell : Cell}

theorem answerable_hitsOf (grown : Grown view.tree) (found : view.tree.cell? id = some cell)
    {tracker : Tracker} (owned : tracker ∈ cell.kind.trackers) :
    Answerable view (hitsOf view.tree id tracker) := by
  obtain ⟨slot, _, slotted⟩ := declared_slot grown found owned
  rw [hitsOf, slotted]
  trivial

theorem answerable_own (grown : Grown view.tree) (found : view.tree.cell? id = some cell)
    {tracker : Tracker} (owned : tracker ∈ cell.kind.trackers) :
    Answerable view (hitsOf view.tree cell.number tracker) := by
  rw [grown.numbered.number_of_cell? found]
  exact answerable_hitsOf grown found owned

theorem answerable_minus {node : Nat} {difference : Difference} {first second : Formula}
    (other : difference ≠ .fallThrough) (left : Answerable view first)
    (right : Answerable view second) :
    Answerable view (.minus (.difference node difference) first second) :=
  ⟨left, right, .inl fun _ _ => .negative other⟩

theorem answerable_sum {terms : List Formula} (each : ∀ term ∈ terms, Answerable view term) :
    Answerable view (.sum terms) := by
  have folded (start : Formula) (begins : Answerable view start) :
      Answerable view (terms.foldl .plus start) := by
    induction terms generalizing start with
    | nil => exact begins
    | cons term rest ih =>
        apply ih fun other member => each other (List.mem_cons_of_mem _ member)
        exact ⟨begins, each term List.mem_cons_self⟩
  exact folded .zero trivial

theorem slot_of_child?_none {slot : Nat} (inside : slot < cell.children.length)
    (missing : cell.child? slot = none) : ∃ value, cell.children[slot]? = some (.atom value) := by
  rw [Cell.child?, List.getElem?_eq_getElem inside] at missing
  rw [List.getElem?_eq_getElem inside]
  cases branch : cell.children[slot] with
  | node child => simp [branch, Slot.node?] at missing
  | atom value => exact ⟨value, rfl⟩

theorem needed_inside (grown : Grown view.tree) (found : view.tree.cell? id = some cell)
    {slot : Nat} {role : Role} (needed : role.NeededAt cell.kind slot cell.children.length) :
    slot < cell.children.length := by
  obtain ⟨above, place, node, occurs, _, rfl⟩ := grown.numbered.occurs_of_cell? found
  have accepted := (grown.regular above place node occurs).arity
  rw [Covered.cell_kind, Covered.cell_children, List.length_map] at needed
  rw [Ast.Arity.accepts, Bool.and_eq_true, decide_eq_true_eq] at accepted
  rw [Covered.cell_children, List.length_map]
  cases role with
  | condition | leftOperand | rightOperand | guardedBody | value =>
      rcases needed with ⟨kind, rfl⟩
      rw [kind] at accepted
      exact Nat.lt_of_lt_of_le (by decide) accepted.1
  | matcher => exact Nat.lt_of_succ_lt needed.2

theorem answerable_withChild (grown : Grown view.tree) (found : view.tree.cell? id = some cell)
    (role : Role) {slot : Nat} {use : Nat → Formula}
    (needed : role.NeededAt cell.kind slot cell.children.length)
    (uses : ∀ child, cell.child? slot = some child → Answerable view (use child)) :
    Answerable view (withChild cell slot role use) := by
  unfold withChild
  cases held : cell.child? slot with
  | some child => exact uses child held
  | none =>
      rcases slot_of_child?_none (needed_inside grown found needed) held with ⟨value, atom⟩
      rw [grown.numbered.number_of_cell? found]
      exact .child found needed atom

theorem answerable_childCompletion (cell : Cell) (slot : Nat) :
    Answerable view (childCompletion cell slot) := by
  unfold childCompletion
  split <;> trivial

theorem test_of_clause (grown : Grown view.tree) (found : view.tree.cell? id = some cell)
    (clause : cell.kind = .whenClause) {slot child : Nat} (held : cell.child? slot = some child)
    (notLast : slot < cell.children.length - 1) :
    ∃ test, view.tree.cell? child = some test ∧ test.kind.isMatcher = true := by
  obtain ⟨above, place, node, occurs, _, rfl⟩ := grown.numbered.occurs_of_cell? found
  rw [Covered.cell_children, List.length_map] at notLast
  rw [Covered.cell_child?, Option.map_eq_some_iff] at held
  rcases held with ⟨test, held, rfl⟩
  refine ⟨_, grown.numbered.cell?_of_occurs (.child slot occurs held), ?_⟩
  rw [Covered.cell_kind, (grown.regular above place node occurs).test_kid held clause]
  exact decide_eq_true notLast

theorem answerable_test (grown : Grown view.tree) (found : view.tree.cell? id = some cell)
    (wraps : cell.kind.isMatcher = true) :
    Answerable view (hitsOf view.tree id .matched) ∧
      Answerable view (hitsOf view.tree id .missed) := by
  constructor
  · exact answerable_hitsOf grown found (by simp [tracker_of_isMatcher wraps])
  · exact answerable_hitsOf grown found (by simp [tracker_of_isMatcher wraps])

theorem cell_of_matcher {matcher : Nat} (member : matcher ∈ matchers view.tree cell) :
    ∃ test, view.tree.cell? matcher = some test ∧ test.kind.isMatcher = true := by
  have wraps := (List.mem_filter.mp member).2
  cases found : view.tree.cell? matcher with
  | none => simp [CoverTree.kind?, found] at wraps
  | some test => exact ⟨test, rfl, by simpa [CoverTree.kind?, found] using wraps⟩

end Parts

section Rules

variable {view : View} {id : Nat} {cell : Cell}

theorem answerable_whenBodyEntry (grown : Grown view.tree) (cell : Cell) :
    Answerable view (whenBodyEntry view.tree cell) := by
  apply answerable_sum
  intro term member
  rcases List.mem_map.mp member with ⟨matcher, listed, rfl⟩
  rcases cell_of_matcher listed with ⟨test, found, wraps⟩
  exact (answerable_test grown found wraps).1

theorem answerable_whenTested (grown : Grown view.tree) (cell : Cell) :
    Answerable view (whenTested view.tree cell) := by
  refine ⟨answerable_whenBodyEntry grown cell, ?_⟩
  split
  · rename_i last found
    rcases cell_of_matcher (List.mem_of_getLast? found) with ⟨test, found, wraps⟩
    exact (answerable_test grown found wraps).2
  · trivial

theorem worth_test (grown : Grown view.tree) {test : Nat} (listed : test ∈ matchers view.tree cell)
    {tracker : Tracker} (outcome : tracker = .matched ∨ tracker = .missed) :
    (hitsOf view.tree test tracker).Worth view (view.hitsAt test tracker) := by
  obtain ⟨inner, found, wraps⟩ := cell_of_matcher listed
  have owned : tracker ∈ inner.kind.trackers := by
    rw [tracker_of_isMatcher wraps]
    simpa using outcome
  obtain ⟨slot, _, slotted⟩ := declared_slot grown found owned
  intro remember memo
  rw [hitsOf, View.hitsAt, slotted]
  rfl

theorem worth_whenBodyEntry (grown : Grown view.tree) (cell : Cell) :
    (whenBodyEntry view.tree cell).Worth view (view.matched cell) := by
  apply Formula.worth_sum
  rw [List.forall₂_map_left_iff, List.forall₂_map_right_iff, List.forall₂_same]
  exact fun test listed => worth_test grown listed (.inl rfl)

theorem worth_missed (grown : Grown view.tree) (cell : Cell) :
    Formula.Worth view
      (match (matchers view.tree cell).getLast? with
        | some last => hitsOf view.tree last .missed
        | none => .zero) (view.passed cell) := by
  unfold View.passed
  cases found : (matchers view.tree cell).getLast? with
  | none => exact fun _ _ => rfl
  | some last => exact worth_test grown (List.mem_of_getLast? found) (.inr rfl)

-- the subjects that were tested are those that matched and some more, so the difference is there
-- unless the sum wrapped around
theorem answerable_whenFallThrough (grown : Grown view.tree)
    (found : view.tree.cell? id = some cell) (clause : cell.kind = .whenClause) :
    Answerable view (whenFallThrough view.tree cell) := by
  refine ⟨answerable_whenTested grown cell, answerable_whenBodyEntry grown cell, .inr ?_⟩
  refine ⟨_, _, _, rfl, worth_whenBodyEntry grown cell, worth_missed grown cell, ?_⟩
  intro wrapped
  rw [grown.numbered.number_of_cell? found]
  exact .fallThrough found clause wrapped

theorem answerable_handlerUnhandled (grown : Grown view.tree)
    (found : view.tree.cell? id = some cell) (handler : cell.kind = .handler) :
    Answerable view (handlerUnhandled view.tree cell) := by
  apply answerable_minus (by decide)
  · unfold handlerTested
    split <;> trivial
  · exact answerable_own grown found (by rw [handler]; decide)

theorem answerable_forwardEntry (parent child : Cell) :
    Answerable view (forwardEntry view.tree parent child) := by
  unfold forwardEntry
  split <;> trivial

theorem answerable_branchEntry (grown : Grown view.tree) (found : view.tree.cell? id = some cell)
    (conditional : cell.kind = .conditional) (index : Nat) :
    Answerable view (branchEntry view.tree cell index) := by
  have counted : Answerable view (hitsOf view.tree cell.number .branch) :=
    answerable_own grown found (by rw [conditional]; decide)
  apply answerable_withChild grown found .condition ⟨conditional, rfl⟩
  intro condition _
  dsimp only
  split
  · split
    · exact ⟨trivial, counted⟩
    · exact answerable_minus (by decide) trivial counted
  · split
    · trivial
    · exact ⟨trivial, trivial⟩

theorem answerable_clauseEntry (grown : Grown view.tree) (parent child : Cell) :
    Answerable view (clauseEntry view.tree parent child) := by
  unfold clauseEntry
  split
  · rename_i previous here
    obtain ⟨_, _, found⟩ := Option.bind_eq_some_iff.mp here
    split
    · rename_i clause
      exact answerable_whenFallThrough grown found clause
    · trivial
  · trivial

theorem answerable_whenChildEntry (grown : Grown view.tree) (found : view.tree.cell? id = some cell)
    (clause : cell.kind = .whenClause) {index : Nat} (inside : index < cell.children.length) :
    Answerable view (whenChildEntry view.tree cell index) := by
  unfold whenChildEntry
  split
  · exact answerable_whenBodyEntry grown cell
  · rename_i notLast
    split
    · trivial
    · rename_i later
      apply answerable_withChild grown found .matcher ⟨clause, by omega⟩
      intro matcher held
      rcases test_of_clause grown found clause held (by omega) with ⟨test, testFound, wraps⟩
      exact (answerable_test grown testFound wraps).2

theorem answerable_guardedChildEntry (grown : Grown view.tree)
    (found : view.tree.cell? id = some cell) (guarded : cell.kind = .guarded) (child : Cell) :
    Answerable view (guardedChildEntry view.tree cell child) := by
  apply answerable_withChild grown found .guardedBody ⟨guarded, rfl⟩
  intro body _
  split
  · split
    · rename_i previous here
      rcases Option.bind_eq_some_iff.mp here with ⟨sibling, _, siblingFound⟩
      split
      · rename_i handler
        exact answerable_handlerUnhandled grown siblingFound handler
      · trivial
    · trivial
  · trivial

theorem answerable_childEntry (grown : Grown view.tree) (found : view.tree.cell? id = some cell)
    {child : Cell} (inside : child.index < cell.children.length) :
    Answerable view (childEntry view.tree cell child) := by
  have forward : Answerable view (forwardEntry view.tree cell child) :=
    answerable_forwardEntry cell child
  have counted {tracker : Tracker} (owned : tracker ∈ cell.kind.trackers) :
      Answerable view (hitsOf view.tree cell.number tracker) :=
    answerable_own grown found owned
  unfold childEntry
  dsimp only
  split
  case h_1 kind => exact fun _ => counted (by rw [kind]; decide)
  case h_2 kind =>
    split
    · trivial
    · exact answerable_branchEntry grown found kind child.index
  case h_4 =>
    split
    · trivial
    · exact answerable_clauseEntry grown cell child
  case h_5 kind => exact answerable_whenChildEntry grown found kind inside
  case h_6 kind =>
    split
    · trivial
    · exact answerable_guardedChildEntry grown found kind child
  case h_14 => exact forward
  case h_3 kind | h_7 kind | h_12 kind | h_13 kind =>
    split
    · trivial
    · exact counted (by rw [kind]; decide)
  case h_8 kind | h_9 kind | h_10 kind =>
    split
    · exact forward
    · exact counted (by rw [kind]; decide)
  case h_11 kind =>
    split
    · exact counted (by rw [kind]; decide)
    · exact forward

theorem fragment_of_root {tree : CoverTree} (built : Built tree) (bare : tree.root.kind ≠ .root) :
    ∃ global fileIndex fragment, CoverTree.ofFragment global fileIndex fragment = .ok tree := by
  cases built with
  | program covered =>
      obtain ⟨_, _, _, _, _, rfl⟩ := ofProgram_ok covered
      exact absurd rfl bare
  | nothing => exact absurd rfl bare
  | fragment covered => exact ⟨_, _, _, covered⟩

theorem answerable_entryRule (built : Built view.tree) (found : view.tree.cell? id = some cell) :
    Answerable view (entryRule view.tree cell) := by
  have grown := built.grown
  unfold entryRule
  cases stands : cell.parent with
  | none =>
      intro untold
      split
      · rename_i kind
        exact answerable_own grown found (by rw [kind]; decide)
      · rename_i kind
        obtain rfl : id = 0 := (parent_none_iff grown.numbered found).mp stands
        rw [← root_number grown.numbered, grown.numbered.cell?_of_occurs .top] at found
        rw [← Option.some.inj found, Covered.cell_kind] at kind
        obtain ⟨_, _, _, covered⟩ := fragment_of_root built kind
        exact .entryCount untold covered
  | some parent =>
      obtain ⟨_, owner, ownerFound, held⟩ := held_by_parent grown.numbered found stands
      have inside := (List.getElem?_eq_some_iff.mp held).1
      simp only [ownerFound]
      split
      · rename_i kind
        exact answerable_own grown found (by rw [kind]; decide)
      · split
        · trivial
        · exact answerable_childEntry grown ownerFound inside

theorem answerable_lastCompletion (cell : Cell) :
    Answerable view (lastCompletion view.tree cell) := by
  unfold lastCompletion
  split <;> trivial

theorem answerable_shortCircuitCompletion (grown : Grown view.tree)
    (found : view.tree.cell? id = some cell) (operator : cell.kind = .shortCircuit) :
    Answerable view (shortCircuitCompletion cell) := by
  apply answerable_withChild grown found .leftOperand ⟨operator, rfl⟩
  intro left _
  apply answerable_withChild grown found .rightOperand ⟨operator, rfl⟩
  intro right _
  exact ⟨answerable_minus (by decide) trivial trivial, trivial⟩

theorem answerable_structuralCompletion (grown : Grown view.tree)
    (found : view.tree.cell? id = some cell) :
    Answerable view (structuralCompletion view.tree cell) := by
  unfold structuralCompletion
  split
  case h_1 => split <;> trivial
  case h_2 kind => exact answerable_shortCircuitCompletion grown found kind
  case h_3 => exact ⟨answerable_childCompletion cell 1, answerable_childCompletion cell 2⟩
  case h_4 | h_5 =>
    apply answerable_sum
    intro term member
    rcases List.mem_map.mp member with ⟨child, _, rfl⟩
    trivial
  case h_6 => exact answerable_childCompletion cell _
  case h_7 kind | h_8 kind =>
    rw [grown.numbered.number_of_cell? found]
    exact answerable_test grown found (by rw [kind]; rfl)
  case h_9 kind =>
    split
    · trivial
    · exact answerable_own grown found (by rw [kind]; decide)
  case h_10 => trivial

theorem counted_owned {kind : Kind} {tracker : Tracker}
    (counted : kind.completion = .counted tracker) : tracker ∈ kind.trackers := by
  cases kind <;> cases counted <;> decide

theorem answerable_completionRule (grown : Grown view.tree)
    (found : view.tree.cell? id = some cell) :
    Answerable view (completionRule view.tree cell) := by
  unfold completionRule
  split
  case h_1 => exact answerable_lastCompletion cell
  case h_2 tracker counted =>
    exact answerable_own grown found (counted_owned counted)
  case h_3 => trivial
  case h_4 =>
    unfold targetCompletion
    split
    · trivial
    · split <;> trivial
  case h_5 => exact answerable_structuralCompletion grown found

theorem answerable_executionRule (grown : Grown view.tree)
    (found : view.tree.cell? id = some cell) :
    Answerable view (executionRule view.tree cell) := by
  unfold executionRule
  split
  case h_1 => trivial
  case h_2 => trivial
  case h_3 => exact answerable_lastCompletion cell
  case h_4 =>
    unfold structuralExecution
    split
    case h_1 kind =>
      exact answerable_withChild grown found .leftOperand ⟨kind, rfl⟩ fun _ _ => trivial
    case h_2 kind =>
      exact answerable_withChild grown found .condition ⟨kind, rfl⟩ fun _ _ => trivial
    case h_3 => split <;> trivial
    case h_4 => exact answerable_whenTested grown cell
    case h_5 kind =>
      exact answerable_withChild grown found .guardedBody ⟨kind, rfl⟩ fun _ _ => trivial
    case h_6 kind =>
      exact answerable_own grown found (by rw [kind]; decide)
    case h_7 kind => exact answerable_withChild grown found .value ⟨kind, rfl⟩ fun _ _ => trivial
    case h_8 => trivial

/-- No rule states a fault that may not come up. -/
theorem answerable_rule (built : Built view.tree) (query : Query) :
    Answerable view (rule view.tree query) := by
  unfold rule
  cases found : view.tree.cell? query.node with
  | none => exact .unknownNode found
  | some cell =>
      dsimp only
      split
      · exact answerable_entryRule built found
      · exact answerable_completionRule built.grown found
      · exact ⟨trivial, trivial, .inl fun _ _ => .completions⟩
      · exact answerable_executionRule built.grown found

end Rules

section Questions

/-- Derivation with a memory, by induction on the fuel. What is taken from memory is no fault. -/
theorem rememberWith_reports {view : View} (built : Built view.tree) (fuel : Nat) (query : Query)
    (memo : Memo) (error : Error) (failed : (view.rememberWith fuel query memo).1 = .error error) :
    Reportable view error := by
  induction fuel generalizing query memo error with
  | zero =>
      rw [View.rememberWith] at failed
      split at failed
      · cases failed
      · obtain rfl := Except.error.inj failed
        exact .circular
  | succ fuel ih =>
      rw [View.rememberWith] at failed
      split at failed
      · cases failed
      · split at failed
        · cases failed
        · rename_i done
          obtain rfl := Except.error.inj failed
          exact Formula.evalMemo_admitted _ ih (answerable_rule built query) memo _ (by rw [done])

variable {view : View} {memory after : Recall} {error : Error}

theorem count_reports (built : Built view.tree) (about : memory.view = view) {query : Query}
    {answer : Except Error Nat} (asked : memory.count query = (answer, after)) :
    after.view = view ∧ ∀ error, answer = .error error → Reportable view error := by
  subst about
  constructor
  · exact congrArg (fun result => result.2.view) asked.symm
  · intro error failed
    have fails := (congrArg Prod.fst asked).trans failed
    exact rememberWith_reports built memory.view.fuel query memory.memo error fails

theorem executed_reports (built : Built view.tree) (about : memory.view = view) {node : Nat}
    (failed : (memory.executed node).1 = .error error) :
    Reportable view error := by
  unfold Recall.executed at failed
  rw [about] at failed
  split at failed
  · rename_i unknown
    obtain rfl := Except.error.inj failed
    exact .unknownNode (Option.map_eq_none_iff.mp unknown)
  · split at failed
    · split at failed
      · cases failed
      · rename_i asked
        obtain rfl := Except.error.inj failed
        exact (count_reports built about asked).2 _ rfl
    · cases failed

theorem counts_reports (built : Built view.tree) (about : memory.view = view) {node : Nat}
    (failed : (memory.counts node).1 = .error error) :
    Reportable view error := by
  unfold Recall.counts at failed
  split at failed
  · rename_i entered
    obtain rfl := Except.error.inj failed
    exact (count_reports built about entered).2 _ rfl
  · rename_i entered
    have still := (count_reports built about entered).1
    split at failed
    · rename_i completed
      obtain rfl := Except.error.inj failed
      exact (count_reports built still completed).2 _ rfl
    · rename_i completed
      have last := (count_reports built still completed).1
      split at failed
      · rename_i interrupted
        obtain rfl := Except.error.inj failed
        exact (count_reports built last interrupted).2 _ rfl
      · cases failed

theorem map_error {α β : Type} {answer : Except Error α} {wrap : α → β}
    (failed : answer.map wrap = .error error) : answer = .error error := by
  cases answer with
  | error fault => rw [Except.error.inj failed]
  | ok value => cases failed

theorem ask_reports (view : View) (built : Built view.tree) (about : memory.view = view)
    {question : Question} (failed : (memory.ask question).1 = .error error) :
    Reportable view error := by
  cases question with
  | count query => exact (count_reports built about rfl).2 _ (map_error failed)
  | executed node => exact executed_reports built about (map_error failed)
  | counts node => exact counts_reports built about (map_error failed)

theorem answersFor_reports (view : View) (built : Built view.tree) (nodes : List Nat)
    (about : memory.view = view) :
    ∀ answers ∈ memory.answersFor nodes, ∀ error,
      .error error ∈ [answers.entry, answers.completion, answers.interruption, answers.execution] →
        Reportable view error := by
  induction nodes generalizing memory with
  | nil => exact fun _ member => nomatch member
  | cons node rest ih =>
      intro answers member error failed
      rcases entered : memory.count ⟨.entry, node⟩ with ⟨entry, second⟩
      have first := count_reports built about entered
      rcases completed : second.count ⟨.completion, node⟩ with ⟨completion, third⟩
      have next := count_reports built first.1 completed
      rcases interrupted : third.count ⟨.interruption, node⟩ with ⟨interruption, fourth⟩
      have later := count_reports built next.1 interrupted
      rcases executed : fourth.count ⟨.execution, node⟩ with ⟨execution, fifth⟩
      have last := count_reports built later.1 executed
      simp only [Recall.answersFor, entered, completed, interrupted, executed,
        List.mem_cons] at member
      rcases member with rfl | member
      · simp only [List.mem_cons, List.not_mem_nil, or_false] at failed
        rcases failed with here | here | here | here
        · exact first.2 error here.symm
        · exact next.2 error here.symm
        · exact later.2 error here.symm
        · exact last.2 error here.symm
      · exact ih last.1 answers member error failed

end Questions

end ProbeCoverage.Flow
