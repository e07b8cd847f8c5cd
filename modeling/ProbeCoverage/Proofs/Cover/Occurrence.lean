import ProbeCoverage.Cover.Lookup

/-!
Nodes where they stand. The cells of a tree are flat records that name parents and children by
number; proofs about a tree want the covered nodes themselves. `Occurs` says below which node and at
which slot a covered node stands. In a tree whose nodes are numbered in the order of their cells, an
occurrence is found in the cells under the number of its node, every cell belongs to an occurrence,
and the look-ups of a tree become look-ups among the slots of one node.
-/

namespace ProbeCoverage.Cover

def Branch.covered? : Branch → Option Covered
  | .node covered => some covered
  | .atom _ => none

@[simp] theorem Branch.covered?_node (covered : Covered) :
    (Branch.node covered).covered? = some covered := rfl

@[simp] theorem Branch.covered?_atom (atom : Ast.Atom) : (Branch.atom atom).covered? = none := rfl

namespace Covered

def number (node : Covered) : Nat := node.info.number

def kind (node : Covered) : Kind := node.info.kind

def kids (node : Covered) : List Covered := node.branches.filterMap Branch.covered?

def kid? (node : Covered) (slot : Nat) : Option Covered :=
  (node.branches[slot]?).bind Branch.covered?

def kidsBefore (node : Covered) (slot : Nat) : List Covered :=
  (node.branches.take slot).filterMap Branch.covered?

def kidsAfter (node : Covered) (slot : Nat) : List Covered :=
  (node.branches.drop (slot + 1)).filterMap Branch.covered?

def cell (node : Covered) (parent : Option Nat) (slot : Nat) : Cell :=
  node.info.cell parent slot node.branches

theorem kid?_eq_some {node kid : Covered} {slot : Nat} :
    node.kid? slot = some kid ↔ node.branches[slot]? = some (.node kid) := by
  unfold kid?
  cases held : node.branches[slot]? with
  | none => simp
  | some branch => cases branch <;> simp

theorem kids_split {node kid : Covered} {slot : Nat} (held : node.kid? slot = some kid) :
    node.kids = node.kidsBefore slot ++ kid :: node.kidsAfter slot := by
  have inside := kid?_eq_some.mp held
  obtain ⟨bound, here⟩ := List.getElem?_eq_some_iff.mp inside
  have parts : node.branches =
      node.branches.take slot ++ .node kid :: node.branches.drop (slot + 1) := by
    rw [← here, ← List.drop_eq_getElem_cons bound, List.take_append_drop]
  calc node.kids
      = (node.branches.take slot ++ .node kid :: node.branches.drop (slot + 1)).filterMap
          Branch.covered? := by rw [← parts]; rfl
    _ = _ := by simp [kidsBefore, kidsAfter]

theorem mem_kids {node kid : Covered} :
    kid ∈ node.kids ↔ ∃ slot, node.kid? slot = some kid := by
  constructor
  · intro member
    obtain ⟨branch, inside, holds⟩ := List.mem_filterMap.mp member
    obtain ⟨slot, held⟩ := List.mem_iff_getElem?.mp inside
    exact ⟨slot, by simp [kid?, held, holds]⟩
  · rintro ⟨slot, held⟩
    rw [kids_split held]
    simp

theorem mem_kidsBefore {node kid : Covered} {slot later : Nat} (held : node.kid? slot = some kid)
    (earlier : slot < later) : kid ∈ node.kidsBefore later := by
  have inside := kid?_eq_some.mp held
  apply List.mem_filterMap.mpr
  refine ⟨.node kid, ?_, rfl⟩
  apply List.mem_iff_getElem?.mpr
  exact ⟨slot, by rw [List.getElem?_take_of_lt earlier, inside]⟩

theorem slot_of_mem_kidsBefore {node kid : Covered} {later : Nat}
    (member : kid ∈ node.kidsBefore later) : ∃ slot < later, node.kid? slot = some kid := by
  obtain ⟨branch, inside, holds⟩ := List.mem_filterMap.mp member
  obtain ⟨slot, found⟩ := List.mem_iff_getElem?.mp inside
  obtain ⟨bound, here⟩ := List.getElem?_eq_some_iff.mp found
  have earlier : slot < later := by
    rw [List.length_take] at bound
    omega
  refine ⟨slot, earlier, ?_⟩
  rw [List.getElem?_take_of_lt earlier] at found
  rw [kid?, found]
  exact holds

theorem slot_of_mem_kidsAfter {node kid : Covered} {earlier : Nat}
    (member : kid ∈ node.kidsAfter earlier) : ∃ slot, earlier < slot ∧ node.kid? slot = some kid := by
  obtain ⟨branch, inside, holds⟩ := List.mem_filterMap.mp member
  obtain ⟨index, found⟩ := List.mem_iff_getElem?.mp inside
  rw [List.getElem?_drop] at found
  refine ⟨earlier + 1 + index, by omega, ?_⟩
  rw [kid?, found]
  exact holds

theorem kidsBefore_succ {node kid : Covered} {slot : Nat} (held : node.kid? slot = some kid) :
    node.kidsBefore (slot + 1) = node.kidsBefore slot ++ [kid] := by
  rw [kidsBefore, List.take_add_one, kid?_eq_some.mp held, List.filterMap_append]
  rfl

theorem kids_last {node : Covered} (some : node.branches ≠ []) :
    node.kids = node.kidsBefore (node.branches.length - 1) ++
      (node.kid? (node.branches.length - 1)).toList := by
  obtain ⟨front, last, parts⟩ := (List.eq_nil_or_concat node.branches).resolve_left some
  rw [kids, kidsBefore, kid?, parts]
  cases last <;> simp

/-- The children of a node with several slots, the last of which is filled: what the first slot
holds, what stands in between, and the last child. -/
theorem kids_ends {node last : Covered} (several : 2 ≤ node.branches.length)
    (held : node.kid? (node.branches.length - 1) = some last) :
    ∃ middle, node.kids = (node.kid? 0).toList ++ (middle ++ [last]) ∧
      node.kidsAfter 0 = middle ++ [last] ∧
      ∀ kid ∈ middle, ∃ slot, 0 < slot ∧ slot + 1 < node.branches.length ∧
        node.kid? slot = some kid := by
  have found : node.branches.getLast? = some (.node last) := by
    rw [List.getLast?_eq_getElem?]
    exact kid?_eq_some.mp held
  obtain ⟨front, parts⟩ := List.getLast?_eq_some_iff.mp found
  cases front with
  | nil => simp [parts] at several
  | cons first between =>
      have later : node.kidsAfter 0 = between.filterMap Branch.covered? ++ [last] := by
        simp [kidsAfter, parts]
      refine ⟨_, ?_, later, ?_⟩
      · rw [← later, kids, kid?, kidsAfter, parts]
        cases first <;> rfl
      · intro kid member
        obtain ⟨branch, inside, holds⟩ := List.mem_filterMap.mp member
        obtain ⟨index, here⟩ := List.mem_iff_getElem?.mp inside
        have bound := (List.getElem?_eq_some_iff.mp here).1
        refine ⟨index + 1, Nat.succ_pos _, by simpa [parts] using bound, ?_⟩
        rw [kid?, parts, List.cons_append, List.getElem?_cons_succ, List.getElem?_append_left bound,
          here]
        exact holds

/-- In front of a later child stand what the first slot holds and some of the children behind it. -/
theorem kidsBefore_split {node kid : Covered} {slot : Nat} (held : node.kid? slot = some kid)
    (later : slot ≠ 0) :
    ∃ before, node.kidsBefore slot = (node.kid? 0).toList ++ before ∧
      node.kidsAfter 0 = before ++ kid :: node.kidsAfter slot := by
  obtain ⟨place, rfl⟩ := Nat.exists_eq_succ_of_ne_zero later
  have inside := kid?_eq_some.mp held
  cases parts : node.branches with
  | nil => simp [parts] at inside
  | cons first rest =>
      rw [parts, List.getElem?_cons_succ] at inside
      obtain ⟨bound, here⟩ := List.getElem?_eq_some_iff.mp inside
      refine ⟨(rest.take place).filterMap Branch.covered?, ?_, ?_⟩
      · rw [kidsBefore, kid?, parts]
        cases first <;> rfl
      · have split : rest = rest.take place ++ .node kid :: rest.drop (place + 1) := by
          rw [← here, ← List.drop_eq_getElem_cons bound, List.take_append_drop]
        rw [kidsAfter, kidsAfter, parts, List.drop_succ_cons, List.drop_succ_cons, List.drop_zero]
        conv => lhs; rw [split]
        simp

theorem slot_lt {node kid : Covered} {slot : Nat} (held : node.kid? slot = some kid) :
    slot < node.branches.length :=
  (List.getElem?_eq_some_iff.mp (kid?_eq_some.mp held)).1

theorem kidsBefore_subset {node kid : Covered} {slot : Nat} (member : kid ∈ node.kidsBefore slot) :
    kid ∈ node.kids := by
  obtain ⟨branch, inside, holds⟩ := List.mem_filterMap.mp member
  exact List.mem_filterMap.mpr ⟨branch, List.mem_of_mem_take inside, holds⟩

theorem kidsAfter_subset {node kid : Covered} {slot : Nat} (member : kid ∈ node.kidsAfter slot) :
    kid ∈ node.kids := by
  obtain ⟨branch, inside, holds⟩ := List.mem_filterMap.mp member
  exact List.mem_filterMap.mpr ⟨branch, List.mem_of_mem_drop inside, holds⟩

theorem slot_of_split {node kid : Covered} {before after : List Covered}
    (split : node.kids = before ++ kid :: after) :
    ∃ slot, node.kid? slot = some kid ∧ node.kidsBefore slot = before ∧
      node.kidsAfter slot = after := by
  obtain ⟨front, back, parts, frontKids, backKids⟩ := List.filterMap_eq_append_iff.mp split
  obtain ⟨gap, branch, rest, backParts, noKids, holds, restKids⟩ :=
    List.filterMap_eq_cons_iff.mp backKids
  have parts : node.branches = (front ++ gap) ++ branch :: rest := by
    rw [parts, backParts, List.append_assoc]
  have gapKids : gap.filterMap Branch.covered? = [] := by
    rw [List.filterMap_eq_nil_iff]
    exact noKids
  refine ⟨(front ++ gap).length, ?_, ?_, ?_⟩
  · rw [kid?, parts, List.getElem?_append_right (Nat.le_refl _), Nat.sub_self]
    exact holds
  · rw [kidsBefore, parts, List.take_left, List.filterMap_append, frontKids, gapKids,
      List.append_nil]
  · rw [kidsAfter, parts, ← List.drop_drop, List.drop_left]
    exact restKids

theorem next_of_mem_kidsBefore {node kid sibling : Covered} {slot : Nat}
    (held : node.kid? slot = some kid) (member : sibling ∈ node.kidsBefore slot) :
    ∃ place next, node.kid? place = some sibling ∧ (node.kidsAfter place).head? = some next ∧
      (next = kid ∨ next ∈ node.kidsBefore slot) := by
  obtain ⟨front, between, parts⟩ := List.append_of_mem member
  have split : node.kids = front ++ sibling :: (between ++ kid :: node.kidsAfter slot) := by
    rw [kids_split held, parts]
    simp
  obtain ⟨place, stands, _, behind⟩ := slot_of_split split
  cases between with
  | nil => exact ⟨place, kid, stands, by simp [behind], .inl rfl⟩
  | cons next rest => exact ⟨place, next, stands, by simp [behind], .inr (by simp [parts])⟩

/-- Induction over a tree: what passes from all children to their parent holds of every node. -/
theorem induction {motive : Covered → Prop}
    (step : ∀ node, (∀ kid ∈ node.kids, motive kid) → motive node) (node : Covered) :
    motive node := by
  refine @Covered.rec motive (fun branch => ∀ kid, branch.covered? = some kid → motive kid)
    (fun branches => ∀ kid ∈ branches.filterMap Branch.covered?, motive kid) ?_ ?_ ?_ ?_ ?_ node
  · intro info branches below
    exact step (.mk info branches) below
  · intro covered holds kid same
    simp only [Branch.covered?_node, Option.some.injEq] at same
    exact same ▸ holds
  · intro atom kid same
    simp at same
  · simp
  · intro head tail first rest kid member
    rw [List.filterMap_cons] at member
    cases held : head.covered? with
    | none => exact rest kid (by simpa [held] using member)
    | some covered =>
        rw [held] at member
        rcases List.mem_cons.mp member with same | later
        · exact first kid (same ▸ held)
        · exact rest kid later

end Covered

/-- A node stands in a tree: it is the root, or stands at a slot of a node that does. -/
inductive Occurs (root : Covered) : Option Covered → Nat → Covered → Prop where
  | top : Occurs root none 0 root
  | child {above : Option Covered} {place : Nat} {node : Covered} (slot : Nat) {kid : Covered} :
      Occurs root above place node → node.kid? slot = some kid → Occurs root (some node) slot kid

theorem Occurs.parent {root node kid : Covered} {slot : Nat}
    (occurs : Occurs root (some node) slot kid) :
    (∃ above place, Occurs root above place node) ∧ node.kid? slot = some kid := by
  cases occurs with
  | child _ parent held => exact ⟨⟨_, _, parent⟩, held⟩

section Cells

theorem cells_of_branch (parent slot index : Nat) (branches : List Branch) (kid : Covered)
    (held : branches[slot]? = some (.node kid)) :
    kid.cellsUnder (some parent) (index + slot) <:+: cellsOfBranches parent index branches := by
  induction branches generalizing index slot with
  | nil => simp at held
  | cons branch rest ih =>
      cases slot with
      | zero =>
          simp only [List.getElem?_cons_zero, Option.some.injEq] at held
          subst held
          exact ⟨[], cellsOfBranches parent (index + 1) rest, by simp [cellsOfBranches]⟩
      | succ slot =>
          have inside := ih slot (index + 1) (by simpa using held)
          rw [Nat.add_right_comm, Nat.add_assoc] at inside
          cases branch with
          | atom value => simpa [cellsOfBranches] using inside
          | node covered =>
              rw [cellsOfBranches]
              exact inside.trans (List.suffix_append _ _).isInfix

theorem branch_of_cell (parent index : Nat) (branches : List Branch) (cell : Cell)
    (member : cell ∈ cellsOfBranches parent index branches) :
    ∃ slot, ∃ kid : Covered, branches[slot]? = some (.node kid) ∧
      cell ∈ kid.cellsUnder (some parent) (index + slot) := by
  induction branches generalizing index with
  | nil => simp [cellsOfBranches] at member
  | cons branch rest ih =>
      have later (inside : cell ∈ cellsOfBranches parent (index + 1) rest) :
          ∃ slot, ∃ kid : Covered, (branch :: rest)[slot]? = some (.node kid) ∧
            cell ∈ kid.cellsUnder (some parent) (index + slot) := by
        obtain ⟨slot, kid, held, below⟩ := ih (index + 1) inside
        refine ⟨slot + 1, kid, by simpa using held, ?_⟩
        rwa [show index + (slot + 1) = index + 1 + slot by omega]
      cases branch with
      | atom value => exact later (by simpa [cellsOfBranches] using member)
      | node covered =>
          rw [cellsOfBranches, List.mem_append] at member
          rcases member with here | inside
          · exact ⟨0, covered, rfl, here⟩
          · exact later inside

theorem Covered.cellsUnder_eq (node : Covered) (parent : Option Nat) (slot : Nat) :
    node.cellsUnder parent slot =
      node.cell parent slot :: cellsOfBranches node.number 0 node.branches := by
  cases node
  rw [Covered.cellsUnder]
  rfl

theorem Occurs.cells_infix {root node : Covered} {above : Option Covered} {slot : Nat}
    (occurs : Occurs root above slot node) :
    node.cellsUnder (above.map Covered.number) slot <:+: root.cells := by
  induction occurs with
  | top => exact List.infix_refl _
  | child slot parent held ih =>
      rename_i node kid
      have inside := cells_of_branch node.number slot 0 _ _ (Covered.kid?_eq_some.mp held)
      rw [Nat.zero_add] at inside
      refine (inside.trans ?_).trans ih
      rw [Covered.cellsUnder_eq]
      exact (List.suffix_cons _ _).isInfix

theorem Occurs.cell_mem {root node : Covered} {above : Option Covered} {slot : Nat}
    (occurs : Occurs root above slot node) :
    node.cell (above.map Covered.number) slot ∈ root.cells := by
  apply occurs.cells_infix.subset
  rw [Covered.cellsUnder_eq]
  exact List.mem_cons_self

theorem occurs_of_mem {root : Covered} {cell : Cell} (member : cell ∈ root.cells) :
    ∃ above slot node, Occurs root above slot node ∧
      cell = node.cell (above.map Covered.number) slot := by
  have everywhere (node : Covered) : ∀ above slot, Occurs root above slot node →
      cell ∈ node.cellsUnder (above.map Covered.number) slot →
      ∃ above slot node, Occurs root above slot node ∧
        cell = node.cell (above.map Covered.number) slot := by
    induction node using Covered.induction with
    | step node ih =>
        intro above slot occurs inside
        rw [Covered.cellsUnder_eq, List.mem_cons] at inside
        rcases inside with same | deeper
        · exact ⟨above, slot, node, occurs, same⟩
        · obtain ⟨slot, kid, held, below⟩ := branch_of_cell _ _ _ _ deeper
          have held := Covered.kid?_eq_some.mpr held
          rw [Nat.zero_add] at below
          exact ih kid (Covered.mem_kids.mpr ⟨slot, held⟩) (some node) slot
            (.child slot occurs held) below
  exact everywhere root none 0 .top member

end Cells

end ProbeCoverage.Cover
