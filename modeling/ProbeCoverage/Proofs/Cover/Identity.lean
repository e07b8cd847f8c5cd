import Mathlib.Data.List.Nodup
import ProbeCoverage.Proofs.Cover.Constructs

/-!
A number belongs to one node of a tree, and a slot to one counter of one node.
-/

namespace ProbeCoverage.Cover

mutual

def Covered.within : Covered → List Covered
  | .mk info branches => .mk info branches :: withinBranches branches

def withinBranches : List Branch → List Covered
  | [] => []
  | .node covered :: rest => covered.within ++ withinBranches rest
  | .atom _ :: rest => withinBranches rest

end

mutual

theorem within_numbers (node : Covered) (parent : Option Nat) (slot : Nat) :
    node.within.map Covered.number = (node.cellsUnder parent slot).map Cell.number := by
  match node with
  | .mk info branches =>
      rw [Covered.within, Covered.cellsUnder, List.map_cons, List.map_cons,
        withinBranches_numbers branches info.number 0]
      rfl

theorem withinBranches_numbers (branches : List Branch) (parent index : Nat) :
    (withinBranches branches).map Covered.number =
      (cellsOfBranches parent index branches).map Cell.number := by
  match branches with
  | [] => rfl
  | .atom value :: rest =>
      rw [withinBranches, cellsOfBranches]
      exact withinBranches_numbers rest parent (index + 1)
  | .node covered :: rest =>
      rw [withinBranches, cellsOfBranches, List.map_append, List.map_append,
        within_numbers covered (some parent) index, withinBranches_numbers rest parent (index + 1)]

end

theorem within_of_branch {branches : List Branch} {slot : Nat} {kid : Covered}
    (held : branches[slot]? = some (.node kid)) :
    ∀ node ∈ kid.within, node ∈ withinBranches branches := by
  intro node inside
  induction branches generalizing slot with
  | nil => simp at held
  | cons branch rest ih =>
      cases slot with
      | zero =>
          obtain rfl : branch = .node kid := by simpa using held
          rw [withinBranches]
          exact List.mem_append_left _ inside
      | succ slot =>
          have later := ih (by simpa using held)
          cases branch with
          | atom value => rwa [withinBranches]
          | node covered =>
              rw [withinBranches]
              exact List.mem_append_right _ later

theorem self_mem_within (node : Covered) : node ∈ node.within := by
  cases node
  rw [Covered.within]
  exact List.mem_cons_self

theorem Occurs.within_subset {root node : Covered} {above : Option Covered} {slot : Nat}
    (occurs : Occurs root above slot node) : ∀ inner ∈ node.within, inner ∈ root.within := by
  induction occurs with
  | top => exact fun _ member => member
  | @child _ _ parent slot kid _ held ih =>
      intro inner member
      apply ih
      have below := within_of_branch (Covered.kid?_eq_some.mp held) inner member
      cases parent
      rw [Covered.within]
      exact List.mem_cons_of_mem _ below

theorem withinBranches_eq (branches : List Branch) :
    withinBranches branches = (branches.filterMap Branch.covered?).flatMap Covered.within := by
  induction branches with
  | nil => rfl
  | cons branch rest ih => cases branch <;> simp [withinBranches, ih, List.filterMap_cons]

theorem Covered.within_eq (node : Covered) :
    node.within = node :: node.kids.flatMap Covered.within := by
  cases node
  rw [Covered.within, withinBranches_eq]
  rfl

theorem number_mem_within {kids : List Covered} {kid inner : Covered} (member : kid ∈ kids)
    (inside : inner ∈ kid.within) :
    inner.number ∈ (kids.flatMap Covered.within).map Covered.number :=
  List.mem_map_of_mem (List.mem_flatMap.mpr ⟨kid, member, inside⟩)

theorem occurs_of_within {root node inner : Covered} {above : Option Covered} {slot : Nat}
    (occurs : Occurs root above slot node) (member : inner ∈ node.within) :
    ∃ around place, Occurs root around place inner := by
  induction node using Covered.induction generalizing above slot with
  | step node ih =>
      rw [node.within_eq, List.mem_cons, List.mem_flatMap] at member
      rcases member with rfl | ⟨kid, inside, below⟩
      · exact ⟨above, slot, occurs⟩
      · obtain ⟨place, held⟩ := Covered.mem_kids.mp inside
        exact ih kid inside (.child place occurs held) below

section Unique

variable {tree : CoverTree} {node other kid : Covered} {above around : Option Covered}
variable {slot place : Nat}

theorem number_lt_size (grown : Grown tree) (occurs : Occurs tree.root above slot node) :
    node.number < tree.size := by
  have found := grown.numbered.cell?_of_occurs occurs
  rw [CoverTree.cell?] at found
  exact (Array.getElem?_eq_some_iff.mp found).1

theorem Grown.unique (grown : Grown tree) (occurs : Occurs tree.root above slot node)
    (otherOccurs : Occurs tree.root around place other) (same : node.number = other.number) :
    node = other := by
  have distinct : (tree.root.within.map Covered.number).Nodup := by
    rw [within_numbers tree.root none 0]
    change (tree.root.cells.map Cell.number).Nodup
    rw [grown.numbered]
    exact List.nodup_range
  exact List.inj_on_of_nodup_map distinct (occurs.within_subset node (self_mem_within node))
    (otherOccurs.within_subset other (self_mem_within other)) same

theorem Grown.unique_parent (grown : Grown tree) {inner : Covered}
    (occurs : Occurs tree.root (some node) slot kid)
    (otherOccurs : Occurs tree.root (some other) place inner)
    (same : kid.number = inner.number) : node = other := by
  have parents : some node.number = some other.number := by
    have first := grown.numbered.parent?_of_occurs occurs
    rw [same, grown.numbered.parent?_of_occurs otherOccurs] at first
    exact first.symm
  obtain ⟨⟨_, _, nodeOccurs⟩, _⟩ := occurs.parent
  obtain ⟨⟨_, _, otherAbove⟩, _⟩ := otherOccurs.parent
  exact grown.unique nodeOccurs otherAbove (Option.some.inj parents)

theorem Grown.kid_ne (grown : Grown tree) (occurs : Occurs tree.root above slot node)
    {first second : Nat} (held : node.kid? first = some kid)
    (otherHeld : node.kid? second = some other)
    (different : first ≠ second) : kid.number ≠ other.number := by
  intro same
  have cell := grown.numbered.cell?_of_occurs (.child first occurs held)
  rw [same, grown.numbered.cell?_of_occurs (.child second occurs otherHeld)] at cell
  have index := congrArg Cell.index (Option.some.inj cell)
  simp only [Covered.cell_index] at index
  exact different index.symm

theorem Grown.root_not_below (grown : Grown tree) (occurs : Occurs tree.root (some node) slot kid) :
    kid.number ≠ tree.root.number := by
  intro same
  have stands := grown.numbered.parent?_of_occurs occurs
  rw [same, grown.numbered.parent?_of_occurs .top] at stands
  cases stands

end Unique

section Counters

variable {tree : CoverTree} {node other : Covered} {above around : Option Covered}
variable {slot place : Nat} {tracker counter : Tracker}

theorem trackerIndex?_of_mem {kind : Kind} (owned : tracker ∈ kind.trackers) :
    ∃ index, kind.trackerIndex? tracker = some index ∧ kind.trackers[index]? = some tracker := by
  have found : (kind.trackerIndex? tracker).isSome = true := by
    rw [Kind.trackerIndex?, List.findIdx?_isSome, List.any_eq_true]
    exact ⟨tracker, owned, beq_self_eq_true tracker⟩
  obtain ⟨index, here⟩ := Option.isSome_iff_exists.mp found
  obtain ⟨bound, same, _⟩ := List.findIdx?_eq_some_iff_getElem.mp here
  refine ⟨index, here, ?_⟩
  rw [List.getElem?_eq_getElem bound, beq_iff_eq.mp same]

theorem slotOf_mem (owned : tracker ∈ node.kind.trackers) (parent : Option Nat) (slot : Nat) :
    node.slotOf tracker ∈ (node.cell parent slot).slots := by
  obtain ⟨index, found, here⟩ := trackerIndex?_of_mem owned
  have bound := (List.getElem?_eq_some_iff.mp here).1
  rw [Covered.slotOf, found, Cell.slots, List.mem_range'_1]
  exact ⟨Nat.le_add_right _ _, Nat.add_lt_add_left bound _⟩

theorem Grown.trackerSlot?_lt (grown : Grown tree) {id : Nat}
    (found : tree.trackerSlot? id tracker = some slot) : slot < tree.allocator.nextSlot := by
  cases stands : tree.cell? id with
  | none => simp [CoverTree.trackerSlot?, stands] at found
  | some cell =>
      obtain ⟨above, place, node, occurs, rfl, _⟩ := grown.numbered.occurs_of_cell? stands
      rw [grown.numbered.trackerSlot?_of_occurs occurs] at found
      obtain ⟨index, here, rfl⟩ := Option.map_eq_some_iff.mp found
      have bound := (List.findIdx?_eq_some_iff_getElem.mp here).1
      rw [← List.mem_range, ← grown.slots]
      refine List.mem_flatMap.mpr ⟨_, occurs.cell_mem, ?_⟩
      rw [Cell.slots, List.mem_range'_1]
      exact ⟨Nat.le_add_right _ _, Nat.add_lt_add_left bound _⟩

theorem Grown.slots_disjoint (grown : Grown tree) (occurs : Occurs tree.root above slot node)
    (otherOccurs : Occurs tree.root around place other) (before : node.number < other.number) :
    List.Disjoint (node.cell (above.map Covered.number) slot).slots
      (other.cell (around.map Covered.number) place).slots := by
  have distinct : (tree.root.cells.flatMap Cell.slots).Nodup := by
    rw [grown.slots]
    exact List.nodup_range
  have apart := List.pairwise_iff_getElem.mp (List.nodup_flatMap.mp distinct).2
  have found := grown.numbered.cell?_of_occurs occurs
  have otherFound := grown.numbered.cell?_of_occurs otherOccurs
  rw [CoverTree.cell?_eq] at found otherFound
  obtain ⟨bound, here⟩ := List.getElem?_eq_some_iff.mp found
  obtain ⟨otherBound, otherHere⟩ := List.getElem?_eq_some_iff.mp otherFound
  have disjoint : List.Disjoint tree.root.cells[node.number].slots
      tree.root.cells[other.number].slots :=
    apart node.number other.number bound otherBound before
  rwa [here, otherHere] at disjoint

theorem Grown.unique_slot (grown : Grown tree) (occurs : Occurs tree.root above slot node)
    (otherOccurs : Occurs tree.root around place other) (owned : tracker ∈ node.kind.trackers)
    (otherOwned : counter ∈ other.kind.trackers)
    (same : node.slotOf tracker = other.slotOf counter) : node = other ∧ tracker = counter := by
  have mine := slotOf_mem owned (above.map Covered.number) slot
  have theirs := slotOf_mem otherOwned (around.map Covered.number) place
  have number : node.number = other.number := by
    rcases Nat.lt_trichotomy node.number other.number with before | equal | after
    · exact (grown.slots_disjoint occurs otherOccurs before mine (same ▸ theirs)).elim
    · exact equal
    · exact (grown.slots_disjoint otherOccurs occurs after theirs (same ▸ mine)).elim
  obtain rfl := grown.unique occurs otherOccurs number
  refine ⟨rfl, ?_⟩
  obtain ⟨index, found, here⟩ := trackerIndex?_of_mem owned
  obtain ⟨position, otherFound, otherHere⟩ := trackerIndex?_of_mem otherOwned
  simp only [Covered.slotOf, found, otherFound, Option.getD_some, Nat.add_left_cancel_iff] at same
  rw [same, otherHere] at here
  exact (Option.some.inj here).symm

end Counters

end ProbeCoverage.Cover
