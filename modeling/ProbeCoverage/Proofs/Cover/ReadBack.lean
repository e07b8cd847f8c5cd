import ProbeCoverage.Proofs.Cover.Arena

/-!
Reading a program back from its arena. Covering adds wrappers around tests and puts empty bodies
where bodies are missing; everything else is kept. So leaving out the wrappers and the empty bodies
gives the syntax tree again, with all tags, locations and atoms, and the arena has one cell for every
node of the syntax tree besides those that were added.
-/

namespace ProbeCoverage.Cover

open Ast (Child Node Shape)
open Probe (Allocator)

/-- The child slot of a syntax tree that a slot of the arena stands for. The depth limits how many
links are followed; there is no answer for a cell that covering a syntax tree does not make. -/
def CoverTree.readBack (tree : CoverTree) : Nat → Slot → Option Child
  | _, .atom value => some (.atom value)
  | 0, .node _ => none
  | depth + 1, .node id =>
      match tree.cell? id with
      | none => none
      | some cell =>
          match cell.shape, cell.children with
          | some shape, slots =>
              (slots.mapM (tree.readBack depth)).map fun children =>
                .node (.mk shape.tag children cell.span)
          | none, [] => if cell.kind = .emptyBody then some (.atom .nil) else none
          | none, [slot] => if cell.kind.isMatcher then tree.readBack depth slot else none
          | none, _ => none

section Reading

variable {tree : CoverTree} {node : Covered} {above : Option Covered} {slot : Nat}
variable (depth : Nat)

theorem readBack_shaped (numbered : tree.Numbered) (occurs : Occurs tree.root above slot node)
    {shape : Shape} {children : List Child} (shaped : node.info.shape = some shape)
    (below : (node.branches.map Branch.slot).mapM (tree.readBack depth) = some children) :
    tree.readBack (depth + 1) (.node node.number) =
      some (.node (.mk shape.tag children node.info.span)) := by
  simp only [CoverTree.readBack, numbered.cell?_of_occurs occurs, Covered.cell_shape, shaped,
    Covered.cell_children, below]
  rfl

theorem readBack_wrapper (numbered : tree.Numbered) (occurs : Occurs tree.root above slot node)
    {test : Covered} (bare : node.info.shape = none) (wraps : node.kind.isMatcher = true)
    (holds : node.branches = [.node test]) :
    tree.readBack (depth + 1) (.node node.number) = tree.readBack depth (.node test.number) := by
  simp only [CoverTree.readBack, numbered.cell?_of_occurs occurs, Covered.cell_shape, bare,
    Covered.cell_children, holds, List.map_cons, List.map_nil, Covered.cell_kind, wraps, if_true]
  rfl

theorem readBack_empty (numbered : tree.Numbered) (occurs : Occurs tree.root above slot node)
    (bare : node.info.shape = none) (body : node.kind = .emptyBody) (holds : node.branches = []) :
    tree.readBack (depth + 1) (.node node.number) = some (.atom .nil) := by
  simp only [CoverTree.readBack, numbered.cell?_of_occurs occurs, Covered.cell_shape, bare,
    Covered.cell_children, holds, List.map_nil, Covered.cell_kind, body, if_true]

theorem readBack_cons {branch : Branch} {branches : List Branch} {child : Child}
    {children : List Child} (first : tree.readBack depth branch.slot = some child)
    (later : (branches.map Branch.slot).mapM (tree.readBack depth) = some children) :
    ((branch :: branches).map Branch.slot).mapM (tree.readBack depth) =
      some (child :: children) := by
  rw [List.map_cons, List.mapM_cons, first, later]
  rfl

end Reading

theorem Occurs.within_length_le {tree : CoverTree} {node : Covered} {above : Option Covered}
    {slot : Nat} (occurs : Occurs tree.root above slot node) : node.within.length ≤ tree.size := by
  have numbers := congrArg List.length (within_numbers node (above.map Covered.number) slot)
  rw [List.length_map, List.length_map] at numbers
  rw [numbers, CoverTree.size_eq]
  exact occurs.cells_infix.length_le

def Stand (tree : CoverTree) (branches : List Branch) : Prop :=
  ∀ kid, .node kid ∈ branches → ∃ above slot, Occurs tree.root above slot kid

theorem Stand.kids {tree : CoverTree} {node : Covered} {above : Option Covered} {slot : Nat}
    (occurs : Occurs tree.root above slot node) : Stand tree node.branches := by
  intro kid member
  obtain ⟨place, held⟩ := List.mem_iff_getElem?.mp member
  exact ⟨some node, place, .child place occurs (Covered.kid?_eq_some.mpr held)⟩

theorem Stand.tail {tree : CoverTree} {branch : Branch} {branches : List Branch}
    (stand : Stand tree (branch :: branches)) : Stand tree branches :=
  fun kid member => stand kid (List.mem_cons_of_mem branch member)

/-- What is covered is read back from wherever it stands in a tree. -/
theorem kept_readable (tree : CoverTree) (numbered : tree.Numbered) :
    Kept
      (fun _ _ _ node covered _ => ∀ above slot, Occurs tree.root above slot covered →
        ∀ depth, covered.within.length ≤ depth →
          tree.readBack depth (.node covered.number) = some (.node node))
      (fun _ _ _ _ children branches _ => Stand tree branches →
        ∀ depth, (withinBranches branches).length ≤ depth →
          (branches.map Branch.slot).mapM (tree.readBack depth) = some children) where
  node {_ _ _ _ _ _ _ branches} tagged _ below := by
    rintro above slot occurs (_ | depth) bound
    · simp [Covered.within] at bound
    · rw [Covered.within, List.length_cons] at bound
      subst tagged
      exact readBack_shaped depth numbered occurs rfl (below (.kids occurs) depth (by omega))
  nil _ _ _ _ _ _ _ := rfl
  plain {_ _ _ _ _ _ _ _ _ _ covered _} _ _ _ inside later stand depth bound := by
    rw [withinBranches, List.length_append] at bound
    obtain ⟨above, slot, occurs⟩ := stand covered List.mem_cons_self
    exact readBack_cons depth (inside above slot occurs depth (by omega))
      (later stand.tail depth (by omega))
  wrapper _ wraps _ inside later stand := by
    rintro (_ | depth) bound
    · simp [withinBranches, Covered.within] at bound
    · simp only [withinBranches, Covered.within, List.length_append, List.length_cons] at bound
      obtain ⟨above, slot, occurs⟩ := stand _ List.mem_cons_self
      have through := readBack_wrapper depth numbered occurs rfl wraps rfl
      have test := inside _ 0 (.child 0 occurs rfl) depth (by omega)
      exact readBack_cons (depth + 1) (through.trans test)
        (later stand.tail (depth + 1) (by omega))
  empty anchor _ later stand := by
    rintro (_ | depth) bound
    · simp [withinBranches, Covered.within] at bound
    · rw [withinBranches, List.length_append] at bound
      obtain ⟨above, slot, occurs⟩ := stand _ List.mem_cons_self
      exact readBack_cons (depth + 1) (readBack_empty depth numbered occurs rfl rfl rfl)
        (later stand.tail (depth + 1) (by omega))
  atom _ later stand depth bound := by
    rw [withinBranches] at bound
    exact readBack_cons depth (by cases depth <;> rfl) (later stand.tail depth bound)

section Census

def census (sort : Kind → Bool) (cells : List Cell) : Nat :=
  cells.countP fun cell => sort cell.kind

def Kind.isEmptyBody (kind : Kind) : Bool :=
  kind == .emptyBody

/-- The cells are as many as these nodes, with the wrappers and the empty bodies among the cells. -/
def Counted (nodes : Nat) (cells : List Cell) : Prop :=
  cells.length = nodes + census Kind.isMatcher cells + census Kind.isEmptyBody cells

theorem Counted.append {first second : Nat} {left right : List Cell} (front : Counted first left)
    (back : Counted second right) : Counted (first + second) (left ++ right) := by
  simp only [Counted, census, List.length_append, List.countP_append] at *
  omega

theorem Counted.cons {nodes : Nat} {cell : Cell} {cells : List Cell} (counted : Counted nodes cells)
    (shaped : cell.kind.isMatcher = false ∧ cell.kind.isEmptyBody = false) :
    Counted (1 + nodes) (cell :: cells) := by
  simp only [Counted, census, List.length_cons, List.countP_cons, shaped, Bool.false_eq_true,
    if_false] at *
  omega

theorem Counted.cons_added {nodes : Nat} {cell : Cell} {cells : List Cell}
    (counted : Counted nodes cells) (added : cell.kind.isMatcher = !cell.kind.isEmptyBody) :
    Counted nodes (cell :: cells) := by
  simp only [Counted, census, List.length_cons, List.countP_cons, added] at *
  cases cell.kind.isEmptyBody <;> simp <;> omega

theorem shaped_kind {shape : Shape} :
    ∀ kind ∈ kindsOf shape, kind.isMatcher = false ∧ kind.isEmptyBody = false := by
  cases shape <;> decide

theorem kept_counted :
    Kept
      (fun kind shape _ node covered _ => kind ∈ kindsOf shape →
        ∀ owner slot, Counted node.size (covered.cellsUnder owner slot))
      (fun _ _ _ _ children branches _ =>
        ∀ owner slot, Counted (Node.sizeAll children) (cellsOfBranches owner slot branches)) where
  node _ _ below suits owner slot := by
    rw [Node.size, Covered.cellsUnder]
    exact (below _ 0).cons (shaped_kind _ suits)
  nil _ _ _ _ _ _ := rfl
  plain asked bare _ inside later owner slot := by
    rw [Node.sizeAll, cellsOfBranches]
    exact (inside (kindBelow?_mem asked bare) _ slot).append (later owner (slot + 1))
  wrapper {_ kind _ _ _ _ _ _ _ _ _ _} _ wraps _ inside later owner slot := by
    rw [Node.sizeAll, cellsOfBranches, Covered.cellsUnder, cellsOfBranches, cellsOfBranches,
      List.append_nil]
    refine Counted.append (Counted.cons_added (inside List.mem_cons_self _ 0) ?_)
      (later owner (slot + 1))
    change kind.isMatcher = !kind.isEmptyBody
    cases kind <;> simp [Kind.isMatcher] at wraps <;> rfl
  empty _ _ later owner slot := by
    rw [Node.sizeAll, cellsOfBranches, Covered.cellsUnder]
    exact (later owner (slot + 1)).cons_added rfl
  atom _ later owner slot := by
    rw [Node.sizeAll, cellsOfBranches]
    exact later owner (slot + 1)

end Census

theorem program_eq {tree : CoverTree} (grown : Grown tree) {covered : Covered}
    (wrapper : tree.root.kind = .root) (held : tree.root.kid? 0 = some covered) :
    tree.program = covered.number := by
  have found := grown.numbered.cell?_of_occurs .top
  rw [root_number grown.numbered] at found
  simp [CoverTree.program, CoverTree.kind?, CoverTree.childAt?, found, wrapper, held]

/-- Covering a program loses nothing. The syntax tree is read back from the arena as it was, and
besides the wrapper of the program, the wrappers of tests and the empty bodies, there is one cell for
each of its nodes. -/
theorem program_read_back {global : String} {fileIndex : Nat} {program : Node} {tree : CoverTree}
    (built : CoverTree.ofProgram global fileIndex program = .ok tree) :
    tree.readBack tree.size (.node tree.program) = some (.node program) ∧
      tree.size = 1 + program.size + census Kind.isMatcher tree.cells.toList +
        census Kind.isEmptyBody tree.cells.toList := by
  have grown := (Built.program built).grown
  obtain ⟨shape, covered, after, shaped, covers, rfl⟩ := ofProgram_ok built
  constructor
  · rw [program_eq grown rfl rfl]
    have readable := (kept_readable _ grown.numbered).cover _ _ _ _ _ _ shaped covers
    exact readable _ 0 (.child 0 .top rfl) _ (Occurs.within_length_le (.child 0 .top rfl))
  · have counted := kept_counted.cover _ _ _ _ _ _ shaped covers List.mem_cons_self
    rw [CoverTree.size_eq, CoverTree.cells_eq]
    change Counted (1 + program.size) _
    rw [CoverTree.ofRoot, Covered.cells, Covered.cellsUnder, cellsOfBranches, cellsOfBranches,
      List.append_nil]
    exact (counted _ 0).cons ⟨rfl, rfl⟩

theorem program_read_back_clause :
    ∃ tree, CoverTree.ofProgram Probe.defaultGlobal 0 emptyClause = .ok tree ∧
      census Kind.isMatcher tree.cells.toList = 2 ∧ census Kind.isEmptyBody tree.cells.toList = 2 ∧
      tree.readBack tree.size (.node tree.program) = some (.node emptyClause) ∧
      tree.size = 1 + emptyClause.size + 2 + 2 := by
  have kept {tree : CoverTree}
      (covered : CoverTree.ofProgram Probe.defaultGlobal 0 emptyClause = .ok tree)
      (wrappers : census Kind.isMatcher tree.cells.toList = 2)
      (bodies : census Kind.isEmptyBody tree.cells.toList = 2) :
      tree.readBack tree.size (.node tree.program) = some (.node emptyClause) ∧
        tree.size = 1 + emptyClause.size + 2 + 2 := by
    have read := program_read_back covered
    rwa [wrappers, bodies] at read
  exact ⟨_, rfl, rfl, rfl, kept rfl rfl rfl⟩

end ProbeCoverage.Cover
