import ProbeCoverage.Proofs.Cover.Identity

/-!
The cells of a covered tree as an arena. Cells name each other by number, so nothing in their type
keeps them from forming a cycle, sharing a child, or pointing nowhere. The arenas that covering makes
are well formed: walking along the links from cell 0 on visits every cell once and in order, links up
and links down agree, and the counters of the cells fill the slots of the file without a gap.
-/

namespace ProbeCoverage.Cover

open Probe (Allocator)

/-- A walk from an agenda: each node of it is visited and its children come next, before the rest of
the agenda. The walk follows the links of the cells only. -/
inductive Visits (tree : CoverTree) : List Nat → List Nat → Prop where
  | done : Visits tree [] []
  | visit {id : Nat} {cell : Cell} {rest order : List Nat} :
      tree.cell? id = some cell → Visits tree (cell.nodes ++ rest) order →
      Visits tree (id :: rest) (id :: order)

/-- The counters of the cells stand one after the other and fill the slots from `start` up to
`stop`. -/
def Consecutive (stop : Nat) : Nat → List Cell → Prop
  | start, [] => start = stop
  | start, cell :: rest =>
      cell.firstSlot = start ∧ Consecutive stop (start + cell.kind.trackers.length) rest

namespace CoverTree

structure WellFormed (tree : CoverTree) : Prop where
  number : ∀ id cell, tree.cell? id = some cell → cell.number = id
  top : ∀ id cell, tree.cell? id = some cell → (cell.parent = none ↔ id = 0)
  parent : ∀ id cell parent, tree.cell? id = some cell → cell.parent = some parent →
    parent < id ∧
      ∃ owner, tree.cell? parent = some owner ∧ owner.children[cell.index]? = some (.node id)
  -- with `parent`, a node is held by the one slot that its cell names
  child : ∀ id cell slot child, tree.cell? id = some cell →
    cell.children[slot]? = some (.node child) →
    ∃ inner, tree.cell? child = some inner ∧ inner.parent = some id ∧ inner.index = slot
  preorder : Visits tree [0] tree.ids
  consecutive : Consecutive tree.allocator.nextSlot 0 tree.cells.toList
  declared : ∀ id cell tracker, tree.cell? id = some cell → tracker ∈ cell.kind.trackers →
    ∃ slot < tree.allocator.nextSlot, tree.trackerSlot? id tracker = some slot
  distinct : ∀ id other tracker counter slot, tree.trackerSlot? id tracker = some slot →
    tree.trackerSlot? other counter = some slot → id = other ∧ tracker = counter

end CoverTree

section Walk

variable {tree : CoverTree}

theorem root_number (numbered : tree.Numbered) : tree.root.number = 0 := by
  rw [CoverTree.Numbered, Covered.cells, Covered.cellsUnder_eq] at numbered
  simpa [List.range_succ_eq_map] using congrArg List.head? numbered

-- A walk over several nodes is one walk after the other.
theorem visits_each {rest order : List Nat} (kids : List Covered)
    (each : ∀ kid ∈ kids, ∀ rest order, Visits tree rest order →
      Visits tree (kid.number :: rest) (kid.within.map Covered.number ++ order))
    (later : Visits tree rest order) :
    Visits tree (kids.map Covered.number ++ rest)
      ((kids.flatMap Covered.within).map Covered.number ++ order) := by
  induction kids with
  | nil => exact later
  | cons kid kids ih =>
      have tail := ih (fun other member => each other (List.mem_cons_of_mem kid member))
      rw [List.map_cons, List.cons_append, List.flatMap_cons, List.map_append, List.append_assoc]
      exact each kid List.mem_cons_self _ _ tail

theorem visits_within (numbered : tree.Numbered) (node : Covered) :
    ∀ above slot, Occurs tree.root above slot node → ∀ rest order, Visits tree rest order →
      Visits tree (node.number :: rest) (node.within.map Covered.number ++ order) := by
  induction node using Covered.induction with
  | step node ih =>
      intro above slot occurs rest order later
      rw [node.within_eq, List.map_cons, List.cons_append]
      apply Visits.visit (numbered.cell?_of_occurs occurs)
      rw [Covered.cell_nodes]
      apply visits_each node.kids _ later
      intro kid member rest order later
      obtain ⟨place, held⟩ := Covered.mem_kids.mp member
      exact ih kid member (some node) place (.child place occurs held) rest order later

theorem visits_ids (numbered : tree.Numbered) : Visits tree [0] tree.ids := by
  have walk := visits_within numbered tree.root none 0 .top [] [] .done
  have order : tree.root.within.map Covered.number = tree.ids := by
    rw [within_numbers tree.root none 0, CoverTree.ids, CoverTree.size_eq]
    exact numbered
  rwa [root_number numbered, order, List.append_nil] at walk

end Walk

section Links

variable {tree : CoverTree} {node kid : Covered} {slot : Nat}

theorem number_lt_kid (numbered : tree.Numbered) (occurs : Occurs tree.root (some node) slot kid) :
    node.number < kid.number := by
  obtain ⟨⟨above, place, stands⟩, held⟩ := occurs.parent
  have ascending : (tree.root.cells.map Cell.number).Pairwise (· < ·) := by
    rw [numbered]
    exact List.pairwise_lt_range
  -- the cells of a node start with its own, and stand together
  have inside := ascending.sublist (stands.cells_infix.sublist.map Cell.number)
  rw [Covered.cellsUnder_eq, List.map_cons, List.pairwise_cons] at inside
  have below := cells_of_branch node.number slot 0 _ _ (Covered.kid?_eq_some.mp held)
  rw [Nat.zero_add, Covered.cellsUnder_eq] at below
  apply inside.1
  exact List.mem_map.mpr ⟨_, below.subset List.mem_cons_self, rfl⟩

theorem kid_of_slot {id : Nat}
    (found : (node.branches.map Branch.slot)[slot]? = some (.node id)) :
    ∃ kid, node.kid? slot = some kid ∧ kid.number = id := by
  rw [List.getElem?_map] at found
  cases held : node.branches[slot]? with
  | none => simp [held] at found
  | some branch =>
      cases branch with
      | atom value => simp [held, Branch.slot] at found
      | node kid =>
          refine ⟨kid, Covered.kid?_eq_some.mpr held, ?_⟩
          simpa [held, Branch.slot, Covered.number] using found

theorem parent_none_iff (numbered : tree.Numbered) {id : Nat} {cell : Cell}
    (found : tree.cell? id = some cell) : cell.parent = none ↔ id = 0 := by
  obtain ⟨above, slot, node, occurs, rfl, rfl⟩ := numbered.occurs_of_cell? found
  rw [Covered.cell_parent]
  cases occurs with
  | top => simp [root_number numbered]
  | child slot parent held =>
      have later := number_lt_kid numbered (.child slot parent held)
      simp only [Option.map_some, reduceCtorEq, false_iff]
      omega

theorem held_by_parent (numbered : tree.Numbered) {id parent : Nat} {cell : Cell}
    (found : tree.cell? id = some cell) (stands : cell.parent = some parent) :
    parent < id ∧
      ∃ owner, tree.cell? parent = some owner ∧ owner.children[cell.index]? = some (.node id) := by
  obtain ⟨above, slot, node, occurs, rfl, rfl⟩ := numbered.occurs_of_cell? found
  rw [Covered.cell_parent, Option.map_eq_some_iff] at stands
  obtain ⟨owner, rfl, rfl⟩ := stands
  obtain ⟨⟨higher, place, ownerOccurs⟩, held⟩ := occurs.parent
  constructor
  · exact number_lt_kid numbered occurs
  · refine ⟨_, numbered.cell?_of_occurs ownerOccurs, ?_⟩
    rw [Covered.cell_children, Covered.cell_index, List.getElem?_map,
      Covered.kid?_eq_some.mp held]
    rfl

theorem names_its_holder (numbered : tree.Numbered) {id slot child : Nat} {cell : Cell}
    (found : tree.cell? id = some cell) (held : cell.children[slot]? = some (.node child)) :
    ∃ inner, tree.cell? child = some inner ∧ inner.parent = some id ∧ inner.index = slot := by
  obtain ⟨above, place, node, occurs, rfl, rfl⟩ := numbered.occurs_of_cell? found
  rw [Covered.cell_children] at held
  obtain ⟨kid, stands, rfl⟩ := kid_of_slot held
  exact ⟨_, numbered.cell?_of_occurs (.child slot occurs stands), rfl, rfl⟩

end Links

section Rows

theorem Consecutive.append {middle stop : Nat} {first second : List Cell} :
    ∀ {start : Nat}, Consecutive middle start first → Consecutive stop middle second →
      Consecutive stop start (first ++ second) := by
  induction first with
  | nil =>
      rintro start rfl right
      exact right
  | cons cell rest ih =>
      rintro start ⟨first, left⟩ right
      exact ⟨first, ih left right⟩

theorem Consecutive.over {before after : Allocator} {kind : Kind} {shape : Option Ast.Shape}
    {span : Option Ast.Span} {anchor : Option Anchor} {branches : List Branch}
    (below : ∀ owner slot, Consecutive after.nextSlot
      (place before kind shape span anchor).2.nextSlot (cellsOfBranches owner slot branches))
    (owner : Option Nat) (slot : Nat) :
    Consecutive after.nextSlot before.nextSlot
      ((Covered.mk (place before kind shape span anchor).1 branches).cellsUnder owner slot) := by
  rw [Covered.cellsUnder]
  exact ⟨rfl, below _ 0⟩

/-- Covering hands out slots in the order of the cells. Kinds without counters get the empty range
at the place reached. -/
theorem kept_consecutive :
    Kept
      (fun _ _ before _ covered after => ∀ owner slot,
        Consecutive after.nextSlot before.nextSlot (covered.cellsUnder owner slot))
      (fun _ _ _ before _ branches after => ∀ owner slot,
        Consecutive after.nextSlot before.nextSlot (cellsOfBranches owner slot branches)) where
  node _ _ below := Consecutive.over below
  nil _ _ _ _ _ _ := rfl
  plain _ _ _ inside later owner slot := by
    rw [cellsOfBranches]
    exact (inside (some owner) slot).append (later owner (slot + 1))
  wrapper {_ kind _ _ _ before middle _ node _ test _} _ _ _ inside later owner slot := by
    have below (owner slot : Nat) : Consecutive middle.nextSlot
        (place before kind none node.location none).2.nextSlot
        (cellsOfBranches owner slot [.node test]) := by
      rw [cellsOfBranches, cellsOfBranches, List.append_nil]
      exact inside (some owner) slot
    rw [cellsOfBranches]
    exact (Consecutive.over below (some owner) slot).append (later owner (slot + 1))
  empty anchor _ later owner slot := by
    rw [cellsOfBranches]
    refine Consecutive.append (Consecutive.over ?_ (some owner) slot) (later owner (slot + 1))
    intro _ _
    rfl
  atom _ later owner slot := by
    rw [cellsOfBranches]
    exact later owner (slot + 1)

theorem Built.consecutive {tree : CoverTree} (built : Built tree) :
    Consecutive tree.allocator.nextSlot 0 tree.root.cells := by
  cases built with
  | program built =>
      obtain ⟨shape, covered, after, shaped, covers, rfl⟩ := ofProgram_ok built
      have inside := kept_consecutive.cover _ _ _ _ _ _ shaped covers
      apply Consecutive.over
      intro owner slot
      rw [cellsOfBranches, cellsOfBranches, List.append_nil]
      exact inside (some owner) slot
  | nothing global fileIndex => exact ⟨rfl, rfl, rfl⟩
  | fragment built =>
      obtain ⟨shape, covered, after, shaped, covers, rfl⟩ := ofFragment_ok built
      exact kept_consecutive.cover _ _ _ _ _ _ shaped covers none 0

end Rows

section Counters

variable {tree : CoverTree} {id other slot : Nat} {tracker counter : Tracker}

theorem declared_slot (grown : Grown tree) {cell : Cell} (found : tree.cell? id = some cell)
    (owned : tracker ∈ cell.kind.trackers) :
    ∃ slot < tree.allocator.nextSlot, tree.trackerSlot? id tracker = some slot := by
  obtain ⟨index, here, _⟩ := trackerIndex?_of_mem owned
  have slot : tree.trackerSlot? id tracker = some (cell.firstSlot + index) := by
    simp [CoverTree.trackerSlot?, found, here]
  exact ⟨_, grown.trackerSlot?_lt slot, slot⟩

theorem owner_of_trackerSlot? (grown : Grown tree)
    (found : tree.trackerSlot? id tracker = some slot) :
    ∃ above place node, Occurs tree.root above place node ∧ node.number = id ∧
      tracker ∈ node.kind.trackers ∧ node.slotOf tracker = slot := by
  cases stands : tree.cell? id with
  | none => simp [CoverTree.trackerSlot?, stands] at found
  | some cell =>
      obtain ⟨above, place, node, occurs, rfl, _⟩ := grown.numbered.occurs_of_cell? stands
      rw [grown.numbered.trackerSlot?_of_occurs occurs] at found
      obtain ⟨index, here, rfl⟩ := Option.map_eq_some_iff.mp found
      obtain ⟨bound, same, _⟩ := List.findIdx?_eq_some_iff_getElem.mp here
      have owned : tracker ∈ node.kind.trackers := by
        rw [← beq_iff_eq.mp same]
        exact List.getElem_mem bound
      exact ⟨above, place, node, occurs, rfl, owned, by rw [Covered.slotOf, here]; rfl⟩

theorem slots_distinct (grown : Grown tree) (found : tree.trackerSlot? id tracker = some slot)
    (otherFound : tree.trackerSlot? other counter = some slot) : id = other ∧ tracker = counter := by
  obtain ⟨_, _, node, occurs, rfl, owned, rfl⟩ := owner_of_trackerSlot? grown found
  obtain ⟨_, _, inner, innerOccurs, rfl, otherOwned, same⟩ :=
    owner_of_trackerSlot? grown otherFound
  obtain ⟨rfl, rfl⟩ := grown.unique_slot occurs innerOccurs owned otherOwned same.symm
  exact ⟨rfl, rfl⟩

end Counters

/-- The arena of every covered tree is well formed. -/
theorem arena_well_formed {tree : CoverTree} (built : Built tree) : tree.WellFormed where
  number _ _ found := built.grown.numbered.number_of_cell? found
  top _ _ found := parent_none_iff built.grown.numbered found
  parent _ _ _ found stands := held_by_parent built.grown.numbered found stands
  child _ _ _ _ found held := names_its_holder built.grown.numbered found held
  preorder := visits_ids built.grown.numbered
  consecutive := by
    rw [tree.cells_eq]
    exact built.consecutive
  declared _ _ _ found owned := declared_slot built.grown found owned
  distinct _ _ _ _ _ found otherFound := slots_distinct built.grown found otherFound

/-- `case x when a, *b then end`: wrappers around the tests, and two empty bodies. -/
def emptyClause : Ast.Node :=
  let read (name : String) : Ast.Child := .node (.mk "lvar" [.atom (.text name)] none)
  .mk "case"
    [read "x",
     .node (.mk "when" [read "a", .node (.mk "splat" [read "b"] none), .atom .nil] none),
     .atom .nil] none

theorem arena_well_formed_clause :
    ∃ tree, CoverTree.ofProgram Probe.defaultGlobal 0 emptyClause = .ok tree ∧
      tree.size = 11 ∧ tree.allocator.nextSlot = 5 ∧ tree.WellFormed := by
  have formed {tree : CoverTree}
      (covered : CoverTree.ofProgram Probe.defaultGlobal 0 emptyClause = .ok tree) :
      tree.WellFormed := arena_well_formed (.program covered)
  exact ⟨_, rfl, rfl, rfl, formed rfl⟩

end ProbeCoverage.Cover
