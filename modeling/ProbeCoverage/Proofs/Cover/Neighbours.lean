import ProbeCoverage.Proofs.Cover.Occurrence

/-!
Look-ups in a numbered tree. When the number of each node is the place of its cell, a node is found
under its number, its siblings have other numbers, and the neighbours of a child are the children in
front of and behind its slot.
-/

namespace ProbeCoverage.Cover

section Lists

theorem predecessor?_split (item : Nat) (before after : List Nat)
    (distinct : (before ++ item :: after).Nodup) :
    predecessor? item (before ++ item :: after) = before.getLast? := by
  induction before with
  | nil => cases after <;> simp [predecessor?]
  | cons first rest ih =>
      have other : first ≠ item := by
        intro same
        simp [same] at distinct
      have tail := ih (List.nodup_cons.mp distinct).2
      cases rest with
      | nil => simp [predecessor?, other]
      | cons second rest =>
          have later : second ≠ item := by
            intro same
            simp [same] at distinct
          simpa [predecessor?, other, later, List.getLast?_cons_cons] using tail

theorem follower?_split (item : Nat) (before after : List Nat)
    (distinct : (before ++ item :: after).Nodup) :
    follower? item (before ++ item :: after) = after.head? := by
  induction before with
  | nil => cases after <;> simp [follower?]
  | cons first rest ih =>
      have other : first ≠ item := by
        intro same
        simp [same] at distinct
      have tail := ih (List.nodup_cons.mp distinct).2
      cases rest with
      | nil =>
          cases after with
          | nil => simp [follower?, other]
          | cons next after => simp [follower?, other]
      | cons second rest => simpa [follower?, other] using tail

theorem findSome?_reverse {α β : Type} (pick : α → Option β) (items : List α) :
    items.reverse.findSome? pick = (items.filterMap pick).getLast? := by
  rw [← List.head?_filterMap, List.filterMap_reverse, List.head?_reverse]

end Lists

namespace Covered

theorem slot_node? (branch : Branch) : branch.slot.node? = branch.covered?.map number := by
  cases branch <;> rfl

theorem nodes_of_branches (branches : List Branch) :
    (branches.map Branch.slot).filterMap Slot.node? =
      (branches.filterMap Branch.covered?).map number := by
  induction branches with
  | nil => rfl
  | cons branch rest ih =>
      rw [List.map_cons, List.filterMap_cons, List.filterMap_cons, slot_node?]
      cases branch.covered? with
      | none => exact ih
      | some covered => exact congrArg (number covered :: ·) ih

variable (node : Covered) (parent : Option Nat) (place : Nat)

@[simp] theorem cell_kind : (node.cell parent place).kind = node.kind := rfl

@[simp] theorem cell_shape : (node.cell parent place).shape = node.info.shape := rfl

@[simp] theorem cell_number : (node.cell parent place).number = node.number := rfl

@[simp] theorem cell_parent : (node.cell parent place).parent = parent := rfl

@[simp] theorem cell_index : (node.cell parent place).index = place := rfl

@[simp] theorem cell_tracked :
    (node.cell parent place).tracked = trackedBranch node.kind node.branches := rfl

@[simp] theorem cell_children :
    (node.cell parent place).children = node.branches.map Branch.slot := rfl

@[simp] theorem cell_nodes : (node.cell parent place).nodes = node.kids.map number :=
  nodes_of_branches node.branches

@[simp] theorem cell_child? (slot : Nat) :
    (node.cell parent place).child? slot = (node.kid? slot).map number := by
  rw [Cell.child?, cell_children, List.getElem?_map, kid?]
  cases held : node.branches[slot]? with
  | none => rfl
  | some branch => simpa using slot_node? branch

def flowKids : List Covered :=
  if node.kind = .multipleAssignment then node.kids.reverse else node.kids

end Covered

def CoverTree.Numbered (tree : CoverTree) : Prop :=
  tree.root.cells.map Cell.number = List.range tree.root.cells.length

namespace CoverTree

variable {tree : CoverTree} {node kid : Covered} {above : Option Covered} {place slot : Nat}

theorem size_eq (tree : CoverTree) : tree.size = tree.root.cells.length := by
  rw [size, tree.cells_eq, List.size_toArray]

theorem cell?_eq (tree : CoverTree) (id : Nat) : tree.cell? id = tree.root.cells[id]? := by
  rw [cell?, tree.cells_eq, List.getElem?_toArray]

theorem Numbered.cell?_of_mem (numbered : tree.Numbered) {cell : Cell}
    (member : cell ∈ tree.root.cells) : tree.cell? cell.number = some cell := by
  obtain ⟨id, inside⟩ := List.mem_iff_getElem?.mp member
  have found : (tree.root.cells.map Cell.number)[id]? = some cell.number := by simp [inside]
  rw [numbered] at found
  obtain ⟨bound, same⟩ := List.getElem?_eq_some_iff.mp found
  rw [List.getElem_range] at same
  rw [cell?_eq, ← same, inside]

theorem Numbered.number_of_cell? (numbered : tree.Numbered) {id : Nat} {cell : Cell}
    (found : tree.cell? id = some cell) : cell.number = id := by
  rw [cell?_eq] at found
  have here : (tree.root.cells.map Cell.number)[id]? = some cell.number := by simp [found]
  rw [numbered] at here
  obtain ⟨bound, same⟩ := List.getElem?_eq_some_iff.mp here
  rw [List.getElem_range] at same
  exact same.symm

theorem Numbered.cell?_of_occurs (numbered : tree.Numbered)
    (occurs : Occurs tree.root above place node) :
    tree.cell? node.number = some (node.cell (above.map Covered.number) place) :=
  numbered.cell?_of_mem occurs.cell_mem

theorem Numbered.occurs_of_cell? (numbered : tree.Numbered) {id : Nat} {cell : Cell}
    (found : tree.cell? id = some cell) :
    ∃ above place node, Occurs tree.root above place node ∧ node.number = id ∧
      cell = node.cell (above.map Covered.number) place := by
  have number := numbered.number_of_cell? found
  rw [cell?_eq] at found
  obtain ⟨above, place, node, occurs, same⟩ := occurs_of_mem (List.mem_of_getElem? found)
  refine ⟨above, place, node, occurs, ?_, same⟩
  rw [← number, same, Covered.cell_number]

theorem kid_numbers_sublist (parent index : Nat) (branches : List Branch) :
    ((branches.filterMap Branch.covered?).map Covered.number).Sublist
      ((cellsOfBranches parent index branches).map Cell.number) := by
  induction branches generalizing index with
  | nil => exact List.nil_sublist _
  | cons branch rest ih =>
      cases branch with
      | atom value => simpa [List.filterMap_cons, cellsOfBranches] using ih (index + 1)
      | node covered =>
          simp only [List.filterMap_cons, Branch.covered?_node, List.map_cons, cellsOfBranches,
            List.map_append, Covered.cellsUnder_eq, Covered.cell_number, List.cons_append]
          exact ((ih (index + 1)).trans (List.sublist_append_right _ _)).cons_cons _

theorem Numbered.kids_nodup (numbered : tree.Numbered)
    (occurs : Occurs tree.root above place node) : (node.kids.map Covered.number).Nodup := by
  have all : (tree.root.cells.map Cell.number).Nodup := by
    rw [numbered]
    exact List.nodup_range
  have below : (cellsOfBranches node.number 0 node.branches).Sublist tree.root.cells := by
    have inside := occurs.cells_infix.sublist
    rw [Covered.cellsUnder_eq] at inside
    exact (List.sublist_cons_self _ _).trans inside
  exact ((kid_numbers_sublist _ 0 _).trans (below.map _)).nodup all

section Lookups

theorem Numbered.kind?_of_occurs (numbered : tree.Numbered)
    (occurs : Occurs tree.root above place node) : tree.kind? node.number = some node.kind := by
  rw [kind?, numbered.cell?_of_occurs occurs]
  rfl

theorem Numbered.parent?_of_occurs (numbered : tree.Numbered)
    (occurs : Occurs tree.root above place node) :
    tree.parent? node.number = above.map Covered.number := by
  rw [parent?, numbered.cell?_of_occurs occurs]
  rfl

theorem Numbered.trackerSlot?_of_occurs (numbered : tree.Numbered)
    (occurs : Occurs tree.root above place node) (tracker : Tracker) :
    tree.trackerSlot? node.number tracker =
      (node.kind.trackerIndex? tracker).map (node.info.firstSlot + ·) := by
  simp only [trackerSlot?, numbered.cell?_of_occurs occurs, Option.bind_eq_bind, Option.bind_some,
    Covered.cell_kind]
  cases node.kind.trackerIndex? tracker <;> rfl

theorem Numbered.flowChildren_of_occurs (numbered : tree.Numbered)
    (occurs : Occurs tree.root above place node) :
    tree.flowChildren node.number = node.flowKids.map Covered.number := by
  simp only [flowChildren, numbered.cell?_of_occurs occurs, Covered.cell_kind, Covered.cell_nodes,
    Covered.flowKids]
  split <;> simp

theorem Numbered.lastInFlow?_of_occurs (numbered : tree.Numbered)
    (occurs : Occurs tree.root above place node) :
    tree.lastInFlow? node.number = node.flowKids.getLast?.map Covered.number := by
  rw [lastInFlow?, numbered.flowChildren_of_occurs occurs, List.getLast?_map]

theorem Numbered.previousSibling?_of_occurs (numbered : tree.Numbered)
    (occurs : Occurs tree.root (some node) slot kid) :
    tree.previousSibling? kid.number = (node.kidsBefore slot).getLast?.map Covered.number := by
  obtain ⟨⟨above, place, parent⟩, held⟩ := occurs.parent
  have found := numbered.cell?_of_occurs parent
  simp only [previousSibling?, numbered.cell?_of_occurs occurs, Option.map_some, found,
    Option.bind_eq_bind, Option.bind_some, Covered.cell_parent, Covered.cell_index,
    Covered.cell_children]
  rw [findSome?_reverse, ← List.map_take, Covered.nodes_of_branches, List.getLast?_map]
  rfl

/-- Control comes to a child from the one in front of it, or behind it below a multiple
assignment. -/
theorem Numbered.previousInFlow?_of_occurs (numbered : tree.Numbered)
    (occurs : Occurs tree.root (some node) slot kid) :
    tree.previousInFlow? kid.number =
      (if node.kind = .multipleAssignment then (node.kidsAfter slot).head?
        else (node.kidsBefore slot).getLast?).map Covered.number := by
  obtain ⟨⟨above, place, parent⟩, held⟩ := occurs.parent
  have distinct := numbered.kids_nodup parent
  rw [Covered.kids_split held] at distinct
  rw [previousInFlow?, numbered.parent?_of_occurs occurs, Option.map_some, Option.bind_some,
    numbered.flowChildren_of_occurs parent, Covered.flowKids, Covered.kids_split held]
  split
  · have backwards := (List.reverse_perm _).nodup_iff.mpr distinct
    simp only [List.map_append, List.map_cons, List.reverse_append, List.reverse_cons,
      List.append_assoc, List.singleton_append, List.map_reverse] at backwards ⊢
    rw [predecessor?_split _ _ _ backwards, List.getLast?_reverse, List.head?_map]
  · simp only [List.map_append, List.map_cons] at distinct ⊢
    rw [predecessor?_split _ _ _ distinct, List.getLast?_map]

theorem Numbered.nextInFlow?_of_occurs (numbered : tree.Numbered)
    (occurs : Occurs tree.root (some node) slot kid) :
    tree.nextInFlow? kid.number =
      (if node.kind = .multipleAssignment then (node.kidsBefore slot).getLast?
        else (node.kidsAfter slot).head?).map Covered.number := by
  obtain ⟨⟨above, place, parent⟩, held⟩ := occurs.parent
  have distinct := numbered.kids_nodup parent
  rw [Covered.kids_split held] at distinct
  rw [nextInFlow?, numbered.parent?_of_occurs occurs, Option.map_some, Option.bind_some,
    numbered.flowChildren_of_occurs parent, Covered.flowKids, Covered.kids_split held]
  split
  · have backwards := (List.reverse_perm _).nodup_iff.mpr distinct
    simp only [List.map_append, List.map_cons, List.reverse_append, List.reverse_cons,
      List.append_assoc, List.singleton_append, List.map_reverse] at backwards ⊢
    rw [follower?_split _ _ _ backwards, List.head?_reverse, List.getLast?_map]
  · simp only [List.map_append, List.map_cons] at distinct ⊢
    rw [follower?_split _ _ _ distinct, List.head?_map]

end Lookups

end CoverTree

end ProbeCoverage.Cover
