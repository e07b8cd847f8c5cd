import Mathlib.Data.List.Pairwise
import ProbeCoverage.Proofs.Cover.OwnBytes
import ProbeCoverage.Proofs.Cover.ReadBack
import ProbeCoverage.Proofs.Instrument.Fragments

/-!
The innermost node at a byte. Where the spans of a syntax tree nest, the bytes that belong to a node
alone are those for which it is the innermost one. So each byte of the program belongs to one node,
and no other byte belongs to any.
-/

namespace ProbeCoverage

namespace Ast

namespace Span

def covers (outer inner : Span) : Bool :=
  inner.isEmpty || outer.contains inner

def apart (first second : Span) : Bool :=
  min first.endByte second.endByte ≤ max first.startByte second.startByte

def allApart : List Span → Bool
  | [] => true
  | span :: rest => rest.all span.apart && allApart rest

theorem holds_of_covers {outer inner : Span} {offset : Nat} (around : outer.covers inner = true)
    (held : inner.holds offset = true) : outer.holds offset = true := by
  simp only [covers, isEmpty, size, contains, holds, Bool.or_eq_true, Bool.and_eq_true,
    beq_iff_eq, decide_eq_true_eq] at around held ⊢
  omega

theorem not_both_of_apart {first second : Span} {offset : Nat}
    (separate : first.apart second = true) (held : first.holds offset = true) :
    ¬second.holds offset = true := by
  simp only [apart, holds, Bool.and_eq_true, decide_eq_true_eq] at separate held ⊢
  omega

end Span

namespace Node

def childLocations (children : List Child) : List Span :=
  children.filterMap fun child => child.node?.bind location

mutual

/-- Whether every node of the tree has a location, with those of its children inside it and apart
from each other. -/
def isNested : Node → Bool
  | .mk _ children location =>
      location.any (fun span => (childLocations children).all span.covers) &&
        Span.allApart (childLocations children) && allNested children

def allNested : List Child → Bool
  | [] => true
  | .node node :: rest => isNested node && allNested rest
  | .atom _ :: rest => allNested rest

end

end Node

end Ast

namespace Cover

open Ast (Child Node Span)

def Covered.Apart (first second : Covered) : Prop :=
  ∀ offset, first.holds offset = true → ¬second.holds offset = true

instance : Std.Symm Covered.Apart where
  symm _ _ apart offset held otherHeld := apart offset otherHeld held

/-- The children of a node hold no byte outside its span, and no two of them hold a byte in
common. Around the program there is no span. -/
structure Nests (node : Covered) : Prop where
  inside : node.kind ≠ .root → ∀ kid ∈ node.kids, ∀ offset,
    kid.holds offset = true → node.holds offset = true
  apart : node.kids.Pairwise Covered.Apart

theorem pairwise_of_allApart (kids : List Covered)
    (separate : Span.allApart (kids.filterMap Covered.span?) = true) :
    kids.Pairwise Covered.Apart := by
  induction kids with
  | nil => exact .nil
  | cons kid rest ih =>
      cases located : kid.span? with
      | none =>
          rw [List.filterMap_cons_none located] at separate
          refine List.pairwise_cons.mpr ⟨?_, ih separate⟩
          intro other _ offset held
          simp [Covered.holds, located] at held
      | some span =>
          rw [List.filterMap_cons_some located, Span.allApart, Bool.and_eq_true] at separate
          refine List.pairwise_cons.mpr ⟨?_, ih separate.2⟩
          intro other member offset held otherHeld
          obtain ⟨otherSpan, otherLocated, inside⟩ := Covered.holds_iff.mp otherHeld
          have far := List.all_eq_true.mp separate.1 otherSpan
            (List.mem_filterMap.mpr ⟨other, member, otherLocated⟩)
          have held : span.holds offset = true := by simpa [Covered.holds, located] using held
          exact Span.not_both_of_apart far held inside

theorem nests_childless (info : Info) : Everywhere Nests (.mk info []) := by
  apply Everywhere.of_kids
  · exact ⟨by simp [Covered.kids, Covered.branches], .nil⟩
  · intro kid member
    simp [Covered.kids, Covered.branches] at member

theorem spans_cons {covered : Covered} {node : Node} {kids : List Covered} {rest : List Child}
    (same : covered.span? = node.location)
    (later : kids.filterMap Covered.span? = Node.childLocations rest) :
    (covered :: kids).filterMap Covered.span? = Node.childLocations (.node node :: rest) := by
  rw [List.filterMap_cons, same, later, Node.childLocations, Node.childLocations,
    List.filterMap_cons]
  rfl

theorem kept_nests :
    Kept
      (fun _ _ _ node covered _ => covered.span? = node.location ∧
        (node.isNested = true → Everywhere Nests covered))
      (fun _ _ _ _ children branches _ =>
        (branches.filterMap Branch.covered?).filterMap Covered.span? =
            Node.childLocations children ∧
          (Node.allNested children = true →
            ∀ kid ∈ branches.filterMap Branch.covered?, Everywhere Nests kid)) where
  node {_ _ _ children location _ _ branches} _ _ below := by
    refine ⟨rfl, ?_⟩
    intro nested
    rw [Node.isNested, Bool.and_eq_true, Bool.and_eq_true, Option.any_eq_true] at nested
    obtain ⟨⟨⟨span, located, around⟩, separate⟩, deeper⟩ := nested
    obtain ⟨spans, kids⟩ := below
    apply Everywhere.of_kids
    · constructor
      · intro _ kid member offset held
        obtain ⟨kidSpan, kidLocated, inside⟩ := Covered.holds_iff.mp held
        have listed : kidSpan ∈ Node.childLocations children := by
          rw [← spans]
          exact List.mem_filterMap.mpr ⟨kid, member, kidLocated⟩
        apply Covered.holds_iff.mpr
        exact ⟨span, located,
          Span.holds_of_covers (List.all_eq_true.mp around kidSpan listed) inside⟩
      · apply pairwise_of_allApart
        rw [← spans] at separate
        exact separate
    · exact kids deeper
  nil _ _ _ _ := by
    refine ⟨rfl, ?_⟩
    intro _ kid member
    simp at member
  plain _ _ _ inside later := by
    rw [List.filterMap_cons_some (Branch.covered?_node _)]
    refine ⟨spans_cons inside.1 later.1, ?_⟩
    intro nested kid member
    rw [Node.allNested, Bool.and_eq_true] at nested
    rcases List.mem_cons.mp member with rfl | rest
    · exact inside.2 nested.1
    · exact later.2 nested.2 kid rest
  wrapper _ _ _ inside later := by
    rw [List.filterMap_cons_some (Branch.covered?_node _)]
    refine ⟨spans_cons rfl later.1, ?_⟩
    intro nested kid member
    rw [Node.allNested, Bool.and_eq_true] at nested
    rcases List.mem_cons.mp member with rfl | rest
    · -- the wrapper has the span of the test below it
      apply Everywhere.of_kids
      · refine ⟨?_, List.pairwise_singleton _ _⟩
        intro _ test only offset held
        obtain rfl := List.mem_singleton.mp only
        rw [Covered.holds, inside.1] at held
        exact held
      · intro test only
        obtain rfl := List.mem_singleton.mp only
        exact inside.2 nested.1
    · exact later.2 nested.2 kid rest
  empty _ _ later := by
    rw [List.filterMap_cons_some (Branch.covered?_node _)]
    refine ⟨later.1, ?_⟩
    intro nested kid member
    rcases List.mem_cons.mp member with rfl | rest
    · exact nests_childless _
    · exact later.2 nested kid rest
  atom _ later := by
    rw [List.filterMap_cons_none (Branch.covered?_atom _)]
    exact later

theorem nests_of_build {global : String} {fileIndex : Nat} {program : Option Node}
    {tree : CoverTree} (covered : CoverTree.build global fileIndex program = .ok tree)
    (nested : program.all Node.isNested = true) : Everywhere Nests tree.root := by
  have wraps (info : Info) (kid : Covered) (root : info.kind = .root)
      (below : Everywhere Nests kid) : Everywhere Nests (.mk info [.node kid]) := by
    apply Everywhere.of_kids
    · exact ⟨fun other => absurd root other, List.pairwise_singleton _ _⟩
    · intro other member
      obtain rfl := List.mem_singleton.mp member
      exact below
  cases program with
  | none =>
      obtain rfl : CoverTree.ofNothing global fileIndex = tree := Except.ok.inj covered
      exact wraps _ _ rfl (nests_childless _)
  | some program =>
      obtain ⟨shape, inner, after, shaped, covers, rfl⟩ := ofProgram_ok covered
      exact wraps _ _ rfl ((kept_nests.cover _ _ _ _ _ _ shaped covers).2 nested)

theorem wrapped_of_build {global : String} {fileIndex : Nat} {program : Option Node}
    {tree : CoverTree} (covered : CoverTree.build global fileIndex program = .ok tree) :
    ∃ inner, tree.root.kid? 0 = some inner ∧ tree.root.kids = [inner] ∧
      tree.program = inner.number := by
  obtain ⟨built, top⟩ := built_of_build covered
  cases program with
  | none =>
      obtain rfl : CoverTree.ofNothing global fileIndex = tree := Except.ok.inj covered
      exact ⟨_, rfl, rfl, program_eq built.grown rfl rfl⟩
  | some program =>
      obtain ⟨shape, inner, after, shaped, covers, rfl⟩ := ofProgram_ok covered
      exact ⟨_, rfl, rfl, program_eq built.grown rfl rfl⟩

def Covered.Owns (node : Covered) (offset : Nat) : Prop :=
  node.holds offset = true ∧ ¬∃ kid ∈ node.kids, kid.holds offset = true

/-- A byte that a node holds belongs to the node or to one below it. -/
theorem owner_within (node : Covered) {offset : Nat} (held : node.holds offset = true) :
    ∃ inner ∈ node.within, inner.Owns offset := by
  induction node using Covered.induction with
  | step node ih =>
      by_cases deeper : ∃ kid ∈ node.kids, kid.holds offset = true
      · obtain ⟨kid, member, below⟩ := deeper
        obtain ⟨inner, inside, owns⟩ := ih kid member below
        refine ⟨inner, ?_, owns⟩
        rw [node.within_eq]
        exact List.mem_cons_of_mem _ (List.mem_flatMap.mpr ⟨kid, member, inside⟩)
      · exact ⟨node, self_mem_within node, held, deeper⟩

section Owners

variable {tree : CoverTree} {node : Covered} {above : Option Covered} {slot offset : Nat}
variable (grown : Grown tree) (nests : Everywhere Nests tree.root)

include grown nests

theorem holds_of_within (occurs : Occurs tree.root above slot node) (ordinary : node.kind ≠ .root)
    {inner : Covered} (member : inner ∈ node.within) (held : inner.holds offset = true) :
    node.holds offset = true := by
  induction node using Covered.induction generalizing above slot with
  | step node ih =>
      rw [node.within_eq, List.mem_cons, List.mem_flatMap] at member
      rcases member with rfl | ⟨kid, inside, below⟩
      · exact held
      · obtain ⟨place, stands⟩ := Covered.mem_kids.mp inside
        have plain := (grown.regular _ _ _ occurs).kid_ne_root stands
        have kidHolds := ih kid inside (.child place occurs stands) plain below
        exact (nests _ _ _ occurs).inside ordinary kid inside offset kidHolds

theorem kid_holds (occurs : Occurs tree.root above slot node) {kid inner : Covered}
    (member : kid ∈ node.kids) (below : inner ∈ kid.within) (held : inner.holds offset = true) :
    kid.holds offset = true := by
  obtain ⟨place, stands⟩ := Covered.mem_kids.mp member
  exact holds_of_within grown nests (.child place occurs stands)
    ((grown.regular _ _ _ occurs).kid_ne_root stands) below held

/-- A byte belongs to one node at most. -/
theorem owner_unique (occurs : Occurs tree.root above slot node) {first second : Covered}
    (firstIn : first ∈ node.within) (secondIn : second ∈ node.within)
    (firstOwns : first.Owns offset) (secondOwns : second.Owns offset) : first = second := by
  induction node using Covered.induction generalizing above slot with
  | step node ih =>
      rw [node.within_eq, List.mem_cons, List.mem_flatMap] at firstIn secondIn
      rcases firstIn with rfl | ⟨kid, inside, below⟩
      · rcases secondIn with rfl | ⟨other, otherInside, otherBelow⟩
        · rfl
        · exact absurd ⟨other, otherInside,
            kid_holds grown nests occurs otherInside otherBelow secondOwns.1⟩ firstOwns.2
      · have kidHolds := kid_holds grown nests occurs inside below firstOwns.1
        rcases secondIn with rfl | ⟨other, otherInside, otherBelow⟩
        · exact absurd ⟨kid, inside, kidHolds⟩ secondOwns.2
        · have otherHolds := kid_holds grown nests occurs otherInside otherBelow secondOwns.1
          -- siblings hold no byte in common
          obtain rfl : kid = other := by
            by_contra different
            have apart := (nests _ _ _ occurs).apart.forall inside otherInside different
            exact apart offset kidHolds otherHolds
          obtain ⟨place, stands⟩ := Covered.mem_kids.mp inside
          exact ih kid inside (.child place occurs stands) below otherBelow

end Owners

def CoverTree.holdsAt (tree : CoverTree) (id offset : Nat) : Bool :=
  (tree.cell? id).any fun cell => cell.span.any fun span => span.holds offset

def CoverTree.ownsAt (tree : CoverTree) (id offset : Nat) : Bool :=
  (tree.properRange id).any fun range => range.holds offset

/-- The innermost node at an offset: its span holds the offset, and every other node with such a
span stands above it. -/
def Innermost (tree : CoverTree) (id offset : Nat) : Prop :=
  tree.holdsAt id offset = true ∧
    ∀ other, tree.holdsAt other offset = true → other = id ∨ Instrument.Below tree id other

section Numbers

variable {tree : CoverTree} {offset id : Nat} (grown : Grown tree)

include grown

theorem holdsAt_iff : tree.holdsAt id offset = true ↔
    ∃ above slot node, Occurs tree.root above slot node ∧ node.number = id ∧
      node.holds offset = true := by
  rw [CoverTree.holdsAt, Option.any_eq_true]
  constructor
  · rintro ⟨cell, found, held⟩
    obtain ⟨above, slot, node, occurs, rfl, rfl⟩ := grown.numbered.occurs_of_cell? found
    exact ⟨above, slot, node, occurs, rfl, held⟩
  · rintro ⟨above, slot, node, occurs, rfl, held⟩
    exact ⟨_, grown.numbered.cell?_of_occurs occurs, held⟩

theorem ownsAt_iff : tree.ownsAt id offset = true ↔
    ∃ above slot node, Occurs tree.root above slot node ∧ node.number = id ∧
      node.Owns offset := by
  rw [CoverTree.ownsAt, List.any_eq_true]
  constructor
  · intro owns
    cases found : tree.cell? id with
    | none => simp [CoverTree.properRange, found] at owns
    | some cell =>
        obtain ⟨above, slot, node, occurs, rfl, rfl⟩ := grown.numbered.occurs_of_cell? found
        exact ⟨above, slot, node, occurs, rfl, (properRange_holds grown.numbered occurs).mp owns⟩
  · rintro ⟨above, slot, node, occurs, rfl, owns⟩
    exact (properRange_holds grown.numbered occurs).mpr owns

variable (nests : Everywhere Nests tree.root)

include nests

/-- The bytes of a node alone are those at which it is innermost. -/
theorem ownsAt_iff_innermost : tree.ownsAt id offset = true ↔ Innermost tree id offset := by
  rw [ownsAt_iff grown]
  constructor
  · rintro ⟨above, slot, node, occurs, rfl, owns⟩
    refine ⟨(holdsAt_iff grown).mpr ⟨above, slot, node, occurs, rfl, owns.1⟩, ?_⟩
    intro other held
    obtain ⟨around, place, outer, outerOccurs, rfl, outerHolds⟩ := (holdsAt_iff grown).mp held
    -- the owner within the other node is the same one
    obtain ⟨inner, inside, innerOwns⟩ := owner_within outer outerHolds
    obtain rfl : inner = node := owner_unique grown nests .top
      (outerOccurs.within_subset inner inside)
      (occurs.within_subset node (self_mem_within node)) innerOwns owns
    rw [outer.within_eq, List.mem_cons, List.mem_flatMap] at inside
    rcases inside with rfl | ⟨kid, member, below⟩
    · exact .inl rfl
    · exact .inr (Instrument.below_of_within grown outer _ _ outerOccurs kid member inner below)
  · rintro ⟨held, around⟩
    obtain ⟨above, slot, node, occurs, rfl, nodeHolds⟩ := (holdsAt_iff grown).mp held
    obtain ⟨inner, inside, innerOwns⟩ := owner_within node nodeHolds
    obtain ⟨innerAbove, innerSlot, innerOccurs⟩ := occurs_of_within occurs inside
    have stands := around inner.number
      ((holdsAt_iff grown).mpr ⟨_, _, inner, innerOccurs, rfl, innerOwns.1⟩)
    rcases stands with same | below
    · obtain rfl := grown.unique innerOccurs occurs same
      exact ⟨_, _, inner, innerOccurs, rfl, innerOwns⟩
    · -- then the node would stand below a child of its owner
      obtain ⟨kid, member, deeper, within, same⟩ :=
        Instrument.within_of_below grown innerOccurs below
      obtain ⟨place, kidHeld⟩ := Covered.mem_kids.mp member
      obtain ⟨_, _, deeperOccurs⟩ := occurs_of_within (.child place innerOccurs kidHeld) within
      obtain rfl := grown.unique deeperOccurs occurs same
      exact absurd ⟨kid, member, kid_holds grown nests innerOccurs member within nodeHolds⟩
        innerOwns.2

theorem ownsAt_unique {other : Nat} (owns : tree.ownsAt id offset = true)
    (otherOwns : tree.ownsAt other offset = true) : id = other := by
  obtain ⟨_, _, node, occurs, rfl, nodeOwns⟩ := (ownsAt_iff grown).mp owns
  obtain ⟨_, _, second, secondOccurs, rfl, secondOwns⟩ := (ownsAt_iff grown).mp otherOwns
  rw [owner_unique grown nests .top (occurs.within_subset node (self_mem_within node))
    (secondOccurs.within_subset second (self_mem_within second)) nodeOwns secondOwns]

/-- Bytes belong to some node inside the span of the program, and to none outside. -/
theorem owned_iff_program {inner : Covered} (unlocated : tree.root.info.span = none)
    (held : tree.root.kid? 0 = some inner) (only : tree.root.kids = [inner]) :
    (∃ id, tree.ownsAt id offset = true) ↔ tree.holdsAt inner.number offset = true := by
  have stands : Occurs tree.root (some tree.root) 0 inner := .child 0 .top held
  constructor
  · rintro ⟨id, owns⟩
    obtain ⟨_, _, node, occurs, rfl, nodeOwns⟩ := (ownsAt_iff grown).mp owns
    refine (holdsAt_iff grown).mpr ⟨_, _, inner, stands, rfl, ?_⟩
    have inside := occurs.within_subset node (self_mem_within node)
    rw [tree.root.within_eq, only, List.flatMap_singleton, List.mem_cons] at inside
    rcases inside with rfl | below
    · have nothing := nodeOwns.1
      simp [Covered.holds, Covered.span?, unlocated] at nothing
    · exact kid_holds grown nests .top (by simp [only]) below nodeOwns.1
  · intro programHolds
    obtain ⟨_, _, node, occurs, same, nodeHolds⟩ := (holdsAt_iff grown).mp programHolds
    obtain ⟨owner, inside, owns⟩ := owner_within node nodeHolds
    obtain ⟨_, _, ownerOccurs⟩ := occurs_of_within occurs inside
    exact ⟨owner.number, (ownsAt_iff grown).mpr ⟨_, _, owner, ownerOccurs, rfl, owns⟩⟩

end Numbers

end Cover

end ProbeCoverage
