import ProbeCoverage.Proofs.Cover.Arena

/-!
Walking among the children of a node. The siblings of a node are found around its slot, the nodes
that control comes from and goes to by searching a list of children that may be turned round. Both
are neighbours in an order of the children of each node, so one argument about such orders serves
both: stepping on and stepping back undo each other, and stepping on from the first child comes to
every child once.
-/

namespace ProbeCoverage.Cover

section Lists

variable {items : List Nat} {item first second : Nat}

def NextTo (items : List Nat) (first second : Nat) : Prop :=
  ∃ front back, items = front ++ first :: second :: back

theorem follower?_absent (absent : item ∉ items) : follower? item items = none := by
  fun_induction follower? item items with
  | case1 | case2 => rfl
  | case3 => simp at absent
  | case4 first second rest other ih => exact ih fun later => absent (List.mem_cons_of_mem first later)

theorem predecessor?_absent (absent : item ∉ items) : predecessor? item items = none := by
  fun_induction predecessor? item items with
  | case1 | case2 | case3 => rfl
  | case4 => simp at absent
  | case5 first second rest other later ih =>
      exact ih fun later => absent (List.mem_cons_of_mem first later)

theorem follower?_eq_some_iff (distinct : items.Nodup) :
    follower? first items = some second ↔ NextTo items first second := by
  constructor
  · intro found
    by_cases member : first ∈ items
    · obtain ⟨front, back, rfl⟩ := List.append_of_mem member
      rw [follower?_split first front back distinct] at found
      obtain ⟨rest, rfl⟩ := List.head?_eq_some_iff.mp found
      exact ⟨front, rest, rfl⟩
    · rw [follower?_absent member] at found
      cases found
  · rintro ⟨front, back, rfl⟩
    exact follower?_split first front (second :: back) distinct

theorem predecessor?_eq_some_iff (distinct : items.Nodup) :
    predecessor? second items = some first ↔ NextTo items first second := by
  constructor
  · intro found
    by_cases member : second ∈ items
    · obtain ⟨front, back, rfl⟩ := List.append_of_mem member
      rw [predecessor?_split second front back distinct] at found
      obtain ⟨start, rfl⟩ := List.getLast?_eq_some_iff.mp found
      exact ⟨start, back, by simp⟩
    · rw [predecessor?_absent member] at found
      cases found
  · rintro ⟨front, back, rfl⟩
    have split : front ++ first :: second :: back = (front ++ [first]) ++ second :: back := by simp
    rw [split] at distinct ⊢
    rw [predecessor?_split second (front ++ [first]) back distinct, List.getLast?_concat]

theorem findIdx?_split {front : List Nat} (absent : item ∉ front) (back : List Nat) :
    (front ++ item :: back).findIdx? (· = item) = some front.length := by
  rw [List.findIdx?_append, List.findIdx?_eq_none_iff.mpr, Option.none_or]
  · simp [List.findIdx?_cons]
  · intro other member
    simp only [decide_eq_false_iff_not]
    rintro rfl
    exact absent member

theorem findIdx?_absent (absent : item ∉ items) : items.findIdx? (· = item) = none := by
  rw [List.findIdx?_eq_none_iff]
  intro other member
  simp only [decide_eq_false_iff_not]
  rintro rfl
  exact absent member

/-- Stepping on until there is no next item, with the items that are come to. -/
inductive Trail (step : Nat → Option Nat) : Option Nat → List Nat → Prop where
  | done : Trail step none []
  | visit {id : Nat} {order : List Nat} :
      Trail step (step id) order → Trail step (some id) (id :: order)

end Lists

section Orders

variable {tree : CoverTree} {order : Nat → List Nat}

structure Ordered (tree : CoverTree) (order : Nat → List Nat) : Prop where
  distinct : ∀ parent, (order parent).Nodup
  holds : ∀ parent child, child ∈ order parent ↔ tree.parent? child = some parent

def nextIn (tree : CoverTree) (order : Nat → List Nat) (id : Nat) : Option Nat :=
  (tree.parent? id).bind fun parent => follower? id (order parent)

def previousIn (tree : CoverTree) (order : Nat → List Nat) (id : Nat) : Option Nat :=
  (tree.parent? id).bind fun parent => predecessor? id (order parent)

theorem Ordered.nextIn_iff (ordered : Ordered tree order) {first second : Nat} :
    nextIn tree order first = some second ↔ ∃ parent, NextTo (order parent) first second := by
  simp only [nextIn, Option.bind_eq_some_iff, follower?_eq_some_iff (ordered.distinct _)]
  constructor
  · rintro ⟨parent, _, beside⟩
    exact ⟨parent, beside⟩
  · rintro ⟨parent, front, back, split⟩
    exact ⟨parent, (ordered.holds parent first).mp (by simp [split]), front, back, split⟩

theorem Ordered.previousIn_iff (ordered : Ordered tree order) {first second : Nat} :
    previousIn tree order second = some first ↔ ∃ parent, NextTo (order parent) first second := by
  simp only [previousIn, Option.bind_eq_some_iff, predecessor?_eq_some_iff (ordered.distinct _)]
  constructor
  · rintro ⟨parent, _, beside⟩
    exact ⟨parent, beside⟩
  · rintro ⟨parent, front, back, split⟩
    exact ⟨parent, (ordered.holds parent second).mp (by simp [split]), front, back, split⟩

/-- Stepping on from the first child comes to the children in their order. -/
theorem Ordered.trail (ordered : Ordered tree order) (parent : Nat) :
    Trail (nextIn tree order) (order parent).head? (order parent) := by
  -- from any child on, the children behind it
  have behind (back : List Nat) : ∀ front, order parent = front ++ back →
      Trail (nextIn tree order) back.head? back := by
    induction back with
    | nil => exact fun _ _ => .done
    | cons id rest ih =>
        intro front split
        have here : tree.parent? id = some parent := (ordered.holds parent id).mp (by simp [split])
        have next : nextIn tree order id = rest.head? := by
          have distinct := ordered.distinct parent
          rw [split] at distinct
          rw [nextIn, here, Option.bind_some, split, follower?_split id front rest distinct]
        have later := ih (front ++ [id]) (by rw [split, List.append_assoc, List.singleton_append])
        rw [← next] at later
        exact .visit later
  exact behind (order parent) [] rfl

theorem Ordered.of_reverse {other : Nat → List Nat} (ordered : Ordered tree order)
    (turned : ∀ parent, other parent = order parent ∨ other parent = (order parent).reverse) :
    Ordered tree other where
  distinct parent := by
    rcases turned parent with same | back
    · rw [same]
      exact ordered.distinct parent
    · rw [back]
      exact (List.reverse_perm _).nodup_iff.mpr (ordered.distinct parent)
  holds parent child := by
    rw [← ordered.holds parent child]
    rcases turned parent with same | back
    · rw [same]
    · rw [back, List.mem_reverse]

end Orders

namespace CoverTree

variable {tree : CoverTree}

def childNodes (tree : CoverTree) (id : Nat) : List Nat :=
  ((tree.cell? id).map Cell.nodes).getD []

theorem childNodes_of_cell? {id : Nat} {cell : Cell} (found : tree.cell? id = some cell) :
    tree.childNodes id = cell.nodes := by
  rw [childNodes, found]
  rfl

theorem flowChildren_eq (tree : CoverTree) (id : Nat) :
    tree.flowChildren id =
      if tree.kind? id = some .multipleAssignment then (tree.childNodes id).reverse
      else tree.childNodes id := by
  unfold flowChildren kind? childNodes
  cases tree.cell? id <;> simp

theorem nodes_around {cell : Cell} {slot id : Nat} (held : cell.children[slot]? = some (.node id)) :
    cell.nodes = (cell.children.take slot).filterMap Slot.node? ++
      id :: (cell.children.drop (slot + 1)).filterMap Slot.node? := by
  obtain ⟨bound, here⟩ := List.getElem?_eq_some_iff.mp held
  have parts : cell.children =
      cell.children.take slot ++ .node id :: cell.children.drop (slot + 1) := by
    rw [← here, ← List.drop_eq_getElem_cons bound, List.take_append_drop]
  calc cell.nodes
      = (cell.children.take slot ++ .node id :: cell.children.drop (slot + 1)).filterMap
          Slot.node? := by rw [← parts]; rfl
    _ = _ := by simp [Slot.node?]

theorem mem_nodes_iff {cell : Cell} {id : Nat} :
    id ∈ cell.nodes ↔ ∃ slot : Nat, cell.children[slot]? = some (.node id) := by
  constructor
  · intro member
    obtain ⟨held, inside, here⟩ := List.mem_filterMap.mp member
    obtain ⟨slot, found⟩ := List.mem_iff_getElem?.mp inside
    cases held with
    | atom value => cases here
    | node other =>
        obtain rfl : other = id := Option.some.inj here
        exact ⟨slot, found⟩
  · rintro ⟨slot, held⟩
    rw [nodes_around held]
    simp

theorem Numbered.ordered_childNodes (numbered : tree.Numbered) : Ordered tree tree.childNodes where
  distinct parent := by
    cases found : tree.cell? parent with
    | none => simp [childNodes, found]
    | some cell =>
        obtain ⟨above, slot, node, occurs, _, rfl⟩ := numbered.occurs_of_cell? found
        rw [childNodes_of_cell? found, Covered.cell_nodes]
        exact numbered.kids_nodup occurs
  holds parent child := by
    constructor
    · intro member
      cases found : tree.cell? parent with
      | none => simp [childNodes, found] at member
      | some cell =>
          rw [childNodes_of_cell? found] at member
          obtain ⟨slot, held⟩ := mem_nodes_iff.mp member
          obtain ⟨inner, innerFound, above, _⟩ := names_its_holder numbered found held
          rw [parent?, innerFound]
          exact above
    · intro stands
      obtain ⟨cell, found, above⟩ := Option.bind_eq_some_iff.mp stands
      obtain ⟨_, owner, ownerFound, held⟩ := held_by_parent numbered found above
      rw [childNodes_of_cell? ownerFound]
      exact mem_nodes_iff.mpr ⟨cell.index, held⟩

theorem Numbered.ordered_flowChildren (numbered : tree.Numbered) :
    Ordered tree tree.flowChildren := by
  apply numbered.ordered_childNodes.of_reverse
  intro parent
  rw [flowChildren_eq]
  split
  · exact .inr rfl
  · exact .inl rfl

section Slots

variable {id parent : Nat} {cell owner : Cell}

theorem Numbered.around (numbered : tree.Numbered) (found : tree.cell? id = some cell)
    (above : cell.parent = some parent) :
    ∃ owner, tree.cell? parent = some owner ∧ cell.index < owner.children.length ∧
      (owner.nodes).Nodup ∧ owner.nodes = (owner.children.take cell.index).filterMap Slot.node? ++
        id :: (owner.children.drop (cell.index + 1)).filterMap Slot.node? := by
  obtain ⟨_, owner, ownerFound, held⟩ := held_by_parent numbered found above
  have distinct := numbered.ordered_childNodes.distinct parent
  rw [childNodes_of_cell? ownerFound] at distinct
  exact ⟨owner, ownerFound, (List.getElem?_eq_some_iff.mp held).1, distinct, nodes_around held⟩

theorem Numbered.nextSibling?_eq (numbered : tree.Numbered) (id : Nat) :
    tree.nextSibling? id = nextIn tree tree.childNodes id := by
  cases found : tree.cell? id with
  | none => simp [nextSibling?, nextIn, parent?, found]
  | some cell =>
      cases above : cell.parent with
      | none => simp [nextSibling?, nextIn, parent?, found, above]
      | some parent =>
          obtain ⟨owner, ownerFound, _, distinct, split⟩ := numbered.around found above
          rw [split] at distinct
          simp only [nextSibling?, nextIn, parent?, found, above, ownerFound, Option.bind_eq_bind,
            Option.bind_some, childNodes_of_cell? ownerFound]
          rw [split, follower?_split _ _ _ distinct, List.head?_filterMap]

theorem Numbered.previousSibling?_eq (numbered : tree.Numbered) (id : Nat) :
    tree.previousSibling? id = previousIn tree tree.childNodes id := by
  cases found : tree.cell? id with
  | none => simp [previousSibling?, previousIn, parent?, found]
  | some cell =>
      cases above : cell.parent with
      | none => simp [previousSibling?, previousIn, parent?, found, above]
      | some parent =>
          obtain ⟨owner, ownerFound, _, distinct, split⟩ := numbered.around found above
          rw [split] at distinct
          simp only [previousSibling?, previousIn, parent?, found, above, ownerFound,
            Option.bind_eq_bind, Option.bind_some, childNodes_of_cell? ownerFound]
          rw [split, predecessor?_split _ _ _ distinct, findSome?_reverse]

end Slots

end CoverTree

section Indexing

def itemsFrom? {α : Type} (items : List α) (index : Nat) : Option (List α) :=
  if index ≤ items.length then some (items.drop index) else none

def itemsBefore? {α : Type} (items : List α) (index : Nat) : Option (List α) :=
  if index ≤ items.length then some (items.take index) else none

def nextAt? (items : List Nat) (item : Nat) : Option (Option Nat) :=
  some ((items.findIdx? (· = item)).bind fun position => items[position + 1]?)

def previousAt? (items : List Nat) (item : Nat) : Option (Option Nat) :=
  (items.findIdx? (· = item)).elim (some none) fun position =>
    if position = 0 then some none else (items[position - 1]?).map some

variable {items : List Nat}

theorem nextAt?_eq (distinct : items.Nodup) (item : Nat) :
    nextAt? items item = some (follower? item items) := by
  by_cases member : item ∈ items
  · obtain ⟨front, back, rfl⟩ := List.append_of_mem member
    have absent : item ∉ front := fun early =>
      (List.nodup_append.mp distinct).2.2 item early item List.mem_cons_self rfl
    rw [nextAt?, findIdx?_split absent, Option.bind_some, follower?_split item front back distinct,
      List.getElem?_append_right (by omega), List.head?_eq_getElem?]
    congr 1
    rw [show front.length + 1 - front.length = 0 + 1 by omega, List.getElem?_cons_succ]
  · rw [nextAt?, findIdx?_absent member, follower?_absent member]
    rfl

theorem previousAt?_eq (distinct : items.Nodup) (item : Nat) :
    previousAt? items item = some (predecessor? item items) := by
  by_cases member : item ∈ items
  · obtain ⟨front, back, rfl⟩ := List.append_of_mem member
    have absent : item ∉ front := fun early =>
      (List.nodup_append.mp distinct).2.2 item early item List.mem_cons_self rfl
    rw [previousAt?, findIdx?_split absent, Option.elim_some,
      predecessor?_split item front back distinct]
    rcases List.eq_nil_or_concat front with rfl | ⟨start, last, rfl⟩
    · rfl
    · rw [List.concat_eq_append, if_neg (by simp), List.getLast?_concat]
      simp
  · rw [previousAt?, findIdx?_absent member, predecessor?_absent member]
    rfl

namespace CoverTree

variable {tree : CoverTree} {id : Nat} {cell : Cell}

/-- A look-up below the parent of a node, where an index may be out of range: then the outer option
is empty. The inner one is empty where there is nothing to find. -/
def belowParent (tree : CoverTree) (id : Nat) (look : Nat → Cell → Cell → Option (Option Nat)) :
    Option (Option Nat) :=
  (tree.cell? id).bind fun cell =>
    cell.parent.elim (some none) fun parent =>
      (tree.cell? parent).bind fun owner => look parent owner cell

-- The four look-ups once more, as the parent's cell, the slices and the positions are indexed.

def nextSiblingAt? (tree : CoverTree) (id : Nat) : Option (Option Nat) :=
  tree.belowParent id fun _ owner cell =>
    (itemsFrom? owner.children (cell.index + 1)).map (List.findSome? Slot.node?)

def previousSiblingAt? (tree : CoverTree) (id : Nat) : Option (Option Nat) :=
  tree.belowParent id fun _ owner cell =>
    (itemsBefore? owner.children cell.index).map fun earlier => earlier.reverse.findSome? Slot.node?

def nextInFlowAt? (tree : CoverTree) (id : Nat) : Option (Option Nat) :=
  tree.belowParent id fun parent _ _ => nextAt? (tree.flowChildren parent) id

def previousInFlowAt? (tree : CoverTree) (id : Nat) : Option (Option Nat) :=
  tree.belowParent id fun parent _ _ => previousAt? (tree.flowChildren parent) id

structure InRange (tree : CoverTree) (id : Nat) : Prop where
  cell : (tree.cell? id).isSome = true
  nextSibling : tree.nextSiblingAt? id = some (tree.nextSibling? id)
  previousSibling : tree.previousSiblingAt? id = some (tree.previousSibling? id)
  nextInFlow : tree.nextInFlowAt? id = some (tree.nextInFlow? id)
  previousInFlow : tree.previousInFlowAt? id = some (tree.previousInFlow? id)

theorem Numbered.belowParent_eq (numbered : tree.Numbered) (found : tree.cell? id = some cell)
    {look : Nat → Cell → Cell → Option (Option Nat)} {answer : Option Nat}
    (top : cell.parent = none → answer = none)
    (inner : ∀ parent owner, cell.parent = some parent → tree.cell? parent = some owner →
      cell.index < owner.children.length → look parent owner cell = some answer) :
    tree.belowParent id look = some answer := by
  rw [belowParent, found, Option.bind_some]
  cases above : cell.parent with
  | none => rw [top above, Option.elim_none]
  | some parent =>
      obtain ⟨owner, ownerFound, bound, _⟩ := numbered.around found above
      rw [Option.elim_some, ownerFound, Option.bind_some, inner parent owner above ownerFound bound]

theorem Numbered.inRange (numbered : tree.Numbered) (found : tree.cell? id = some cell) :
    tree.InRange id where
  cell := by rw [found, Option.isSome_some]
  nextSibling := by
    apply numbered.belowParent_eq found
    · intro top
      simp [nextSibling?, found, top]
    · intro parent owner above ownerFound bound
      simp [itemsFrom?, nextSibling?, found, above, ownerFound, Nat.succ_le_of_lt bound]
  previousSibling := by
    apply numbered.belowParent_eq found
    · intro top
      simp [previousSibling?, found, top]
    · intro parent owner above ownerFound bound
      simp [itemsBefore?, previousSibling?, found, above, ownerFound, Nat.le_of_lt bound]
  nextInFlow := by
    apply numbered.belowParent_eq found
    · intro top
      simp [nextInFlow?, parent?, found, top]
    · intro parent owner above _ _
      rw [nextAt?_eq (numbered.ordered_flowChildren.distinct parent)]
      simp [nextInFlow?, parent?, found, above]
  previousInFlow := by
    apply numbered.belowParent_eq found
    · intro top
      simp [previousInFlow?, parent?, found, top]
    · intro parent owner above _ _
      rw [previousAt?_eq (numbered.ordered_flowChildren.distinct parent)]
      simp [previousInFlow?, parent?, found, above]

end CoverTree

end Indexing

namespace CoverTree

/-- The children of a node as control comes to them, and as they stand in the source. -/
structure Walked (tree : CoverTree) (id : Nat) (cell : Cell) (reached siblings : List Nat) :
    Prop where
  flow : Trail tree.nextInFlow? (tree.flowChildren id).head? reached
  source : Trail tree.nextSibling? cell.nodes.head? siblings
  once : reached.Nodup
  all : ∀ child, child ∈ reached ↔ tree.parent? child = some id
  last : reached.getLast? = tree.lastInFlow? id
  turned : reached = if cell.shape = some .masgn then siblings.reverse else siblings

structure Navigable (tree : CoverTree) : Prop where
  siblings : ∀ first second,
    tree.nextSibling? first = some second ↔ tree.previousSibling? second = some first
  flow : ∀ first second,
    tree.nextInFlow? first = some second ↔ tree.previousInFlow? second = some first
  inRange : ∀ id ∈ tree.ids, tree.InRange id
  walked : ∀ id cell, tree.cell? id = some cell → ∃ reached siblings,
    tree.Walked id cell reached siblings

end CoverTree

theorem multipleAssignment_iff {node : Covered} (regular : Regular node) :
    node.kind = .multipleAssignment ↔ node.info.shape = some .masgn := by
  have formed := regular.formed
  unfold Formed at formed
  cases shaped : node.info.shape with
  | none =>
      rw [shaped] at formed
      have other : node.info.kind ≠ .multipleAssignment := by
        rcases formed with ⟨kind, _⟩ | ⟨wraps, _⟩ | ⟨kind, _⟩
        · rw [kind]
          decide
        · intro same
          rw [same] at wraps
          cases wraps
        · rw [kind]
          decide
      simpa [Covered.kind] using other
  | some shape =>
      rw [shaped] at formed
      have suits := formed.1
      change node.info.kind = _ ↔ _
      generalize node.info.kind = kind at suits
      cases shape <;> simp [kindsOf, Kind.ofShape] at suits ⊢ <;> grind

/-- The look-ups around the nodes of every covered tree are consistent. -/
theorem lookups_consistent {tree : CoverTree} (built : Built tree) : tree.Navigable := by
  have numbered := built.grown.numbered
  have siblings := numbered.ordered_childNodes
  have flow := numbered.ordered_flowChildren
  constructor
  · intro first second
    rw [numbered.nextSibling?_eq, numbered.previousSibling?_eq, siblings.nextIn_iff,
      siblings.previousIn_iff]
  · intro first second
    exact flow.nextIn_iff.trans flow.previousIn_iff.symm
  · intro id member
    have bound : id < tree.cells.size := List.mem_range.mp member
    exact numbered.inRange (Array.getElem?_eq_getElem bound)
  · intro id cell found
    refine ⟨tree.flowChildren id, cell.nodes, flow.trail id, ?_, flow.distinct id, flow.holds id, rfl,
      ?_⟩
    · have walk := siblings.trail id
      rw [CoverTree.childNodes_of_cell? found] at walk
      rw [funext numbered.nextSibling?_eq]
      exact walk
    · obtain ⟨above, slot, node, occurs, rfl, rfl⟩ := numbered.occurs_of_cell? found
      have shaped := multipleAssignment_iff (built.grown.regular _ _ _ occurs)
      rw [CoverTree.flowChildren_eq, numbered.kind?_of_occurs occurs,
        CoverTree.childNodes_of_cell? found, Covered.cell_shape]
      by_cases multiple : node.kind = .multipleAssignment
      · rw [if_pos (congrArg some multiple), if_pos (shaped.mp multiple)]
      · rw [if_neg (multiple ∘ Option.some.inj), if_neg (multiple ∘ shaped.mpr)]

/-- `a, b = x.f(1)`: the call is reached before the targets. -/
def swappedOrder : Ast.Node :=
  let target (name : String) : Ast.Child := .node (.mk "lvasgn" [.atom (.text name)] none)
  .mk "masgn"
    [.node (.mk "mlhs" [target "a", target "b"] none),
     .node (.mk "send" [.node (.mk "lvar" [.atom (.text "x")] none), .atom (.text "f"),
       .node (.mk "int" [.atom (.int 1)] none)] none)] none

theorem lookups_consistent_swapped :
    ∃ tree, CoverTree.ofProgram Probe.defaultGlobal 0 swappedOrder = .ok tree ∧
      tree.flowChildren 1 = [5, 2] ∧ tree.nextSibling? 2 = some 5 ∧ tree.nextInFlow? 5 = some 2 ∧
      tree.nextSibling? 6 = some 7 ∧ tree.Navigable := by
  have consistent {tree : CoverTree}
      (covered : CoverTree.ofProgram Probe.defaultGlobal 0 swappedOrder = .ok tree) :
      tree.Navigable := lookups_consistent (.program covered)
  exact ⟨_, rfl, rfl, rfl, rfl, rfl, consistent rfl⟩

end ProbeCoverage.Cover
