import ProbeCoverage.Cover.Build
import ProbeCoverage.Proofs.Cover.Neighbours

/-!
What covering a syntax tree guarantees. The cells of a covered node take the next numbers and the
next counter slots in their own order, nothing is skipped and nothing is handed out twice. Each node
has a kind that its shape can take and as many slots as its shape allows, and each slot holds what
the kind of the node admits there: a child of the kind asked for, a wrapper around a test, an empty
body, or an atom.
-/

namespace ProbeCoverage.Cover

open Ast (Atom Child Node Shape Span)
open Probe (Allocator)

/-- The kinds that a shape can take. The first one is taken unless the parent asks for another. -/
def kindsOf (shape : Shape) : List Kind :=
  .ofShape shape ::
    match shape with
    | .send => [.blockCall, .setterTarget, .callAccess]
    | .yield | .superCall | .zsuper => [.blockCall]
    | .const => [.name]
    | .splat => [.splatTarget]
    | .lvasgn | .ivasgn | .gvasgn | .cvasgn => [.variableTarget, .variableAccess]
    | .casgn => [.variableTarget]
    | _ => []

/-- A node has a kind and a number of slots that go with its shape, or is one of the three nodes
without a shape. -/
def Formed (info : Info) (count : Nat) : Prop :=
  match info.shape with
  | some shape => info.kind ∈ kindsOf shape ∧ shape.arity.accepts count = true
  | none =>
      (info.kind = .root ∧ count = 1) ∨ (info.kind.isMatcher = true ∧ count = 1) ∨
        (info.kind = .emptyBody ∧ count = 0)

inductive Fits (parent : Kind) (slot count : Nat) : Branch → Prop where
  | plain {kid : Covered} (shape : Shape) :
      kid.info.shape = some shape → kindBelow? parent slot count shape = some kid.kind →
      kid.kind.isMatcher = false → Fits parent slot count (.node kid)
  | wrapper {info : Info} {test : Covered} (shape : Shape) :
      info.shape = none → test.info.shape = some shape →
      kindBelow? parent slot count shape = some info.kind → info.kind.isMatcher = true →
      Fits parent slot count (.node (.mk info [.node test]))
  | empty {info : Info} :
      info.shape = none → info.kind = .emptyBody → parent.mayBeEmpty slot count = true →
      Fits parent slot count (.node (.mk info []))
  | atom {value : Atom} :
      (value.isNil && parent.mayBeEmpty slot count) = false → Fits parent slot count (.atom value)

structure Regular (node : Covered) : Prop where
  formed : Formed node.info node.branches.length
  fits : ∀ slot branch, node.branches[slot]? = some branch →
    Fits node.kind slot node.branches.length branch

def Everywhere (holds : Covered → Prop) (root : Covered) : Prop :=
  ∀ above slot node, Occurs root above slot node → holds node

theorem Occurs.cases_root {root node : Covered} {above : Option Covered} {slot : Nat}
    (occurs : Occurs root above slot node) :
    node = root ∨ ∃ kid ∈ root.kids, ∃ above slot, Occurs kid above slot node := by
  induction occurs with
  | top => exact .inl rfl
  | child slot parent held ih =>
      right
      rcases ih with same | ⟨kid, member, above, place, inside⟩
      · subst same
        exact ⟨_, Covered.mem_kids.mpr ⟨slot, held⟩, none, 0, .top⟩
      · exact ⟨kid, member, _, slot, .child slot inside held⟩

theorem Everywhere.of_kids {holds : Covered → Prop} {root : Covered} (here : holds root)
    (below : ∀ kid ∈ root.kids, Everywhere holds kid) : Everywhere holds root := by
  intro above slot node occurs
  rcases occurs.cases_root with rfl | ⟨kid, member, above, slot, inside⟩
  · exact here
  · exact below kid member above slot node inside

section Handout

def Cell.slots (cell : Cell) : List Nat :=
  List.range' cell.firstSlot cell.kind.trackers.length

/-- The cells take exactly the numbers and slots that one state of the allocator has handed out
more than the other, in order. -/
structure Handout (before after : Allocator) (cells : List Cell) : Prop where
  numberLe : before.nextNumber ≤ after.nextNumber
  numbers : cells.map Cell.number =
    List.range' before.nextNumber (after.nextNumber - before.nextNumber)
  slotLe : before.nextSlot ≤ after.nextSlot
  slots : cells.flatMap Cell.slots =
    List.range' before.nextSlot (after.nextSlot - before.nextSlot)

theorem range'_join (start middle stop : Nat) (first : start ≤ middle) (second : middle ≤ stop) :
    List.range' start (middle - start) ++ List.range' middle (stop - middle) =
      List.range' start (stop - start) := by
  have joined := @List.range'_append start (middle - start) (stop - middle) 1
  rw [Nat.one_mul, Nat.add_sub_cancel' first] at joined
  rw [joined, show middle - start + (stop - middle) = stop - start by omega]

theorem Handout.nil (allocator : Allocator) : Handout allocator allocator [] := by
  constructor <;> simp

theorem Handout.append {before middle after : Allocator} {first second : List Cell}
    (left : Handout before middle first) (right : Handout middle after second) :
    Handout before after (first ++ second) where
  numberLe := Nat.le_trans left.numberLe right.numberLe
  numbers := by
    rw [List.map_append, left.numbers, right.numbers]
    exact range'_join _ _ _ left.numberLe right.numberLe
  slotLe := Nat.le_trans left.slotLe right.slotLe
  slots := by
    rw [List.flatMap_append, left.slots, right.slots]
    exact range'_join _ _ _ left.slotLe right.slotLe

theorem Handout.place (allocator : Allocator) (kind : Kind) (shape : Option Shape)
    (span : Option Span) (anchor : Option Anchor) (parent : Option Nat) (slot : Nat)
    (branches : List Branch) :
    Handout allocator (place allocator kind shape span anchor).2
      [(Cover.place allocator kind shape span anchor).1.cell parent slot branches] := by
  constructor
  · exact Nat.le_succ _
  · simp [Cover.place, Info.cell, Allocator.skipNumber, Allocator.reserve]
  · exact Nat.le_add_right _ _
  · simp [Cover.place, Info.cell, Cell.slots, Allocator.skipNumber, Allocator.reserve]

end Handout

section Inversion

variable {parent : Kind} {parentShape : Shape} {count index : Nat} {anchor : Nat → Option Anchor}
variable {before after : Allocator} {branches : List Branch} {rest : List Child}

theorem cover_ok {kind : Kind} {shape : Shape} {tag : String} {children : List Child}
    {location : Option Span} {covered : Covered}
    (covers : cover kind shape before (.mk tag children location) = .ok (covered, after)) :
    ∃ branches, shape.arity.accepts children.length = true ∧
      coverChildren kind shape children.length (emptyAnchor kind location children) 0
        (place before kind (some shape) location none).2 children = .ok (branches, after) ∧
      covered = .mk (place before kind (some shape) location none).1 branches := by
  rw [cover] at covers
  split at covers
  · rename_i accepted
    split at covers
    · cases covers
    · simp only [place] at covers
      split at covers
      · rename_i branches _ below
        simp only [Except.ok.injEq, Prod.mk.injEq] at covers
        obtain ⟨rfl, rfl⟩ := covers
        exact ⟨branches, accepted, below, rfl⟩
      · cases covers
  · cases covers

theorem cover_info {kind : Kind} {shape : Shape} {node : Node} {covered : Covered}
    (covers : cover kind shape before node = .ok (covered, after)) :
    covered.info.shape = some shape ∧ covered.kind = kind := by
  obtain ⟨tag, children, location⟩ := node
  obtain ⟨branches, _, _, rfl⟩ := cover_ok covers
  exact ⟨rfl, rfl⟩

theorem coverChildren_node_ok {node : Node}
    (covers : coverChildren parent parentShape count anchor index before (.node node :: rest) =
      .ok (branches, after)) :
    ∃ shape kind middle covered later, shapeOf node = .ok shape ∧
      kindBelow? parent index count shape = some kind ∧
      ((kind.isMatcher = false ∧ cover kind shape before node = .ok (covered, middle)) ∨
        (kind.isMatcher = true ∧ ∃ test,
          cover (.ofShape shape) shape (place before kind none node.location none).2 node =
            .ok (test, middle) ∧
          covered = .mk (place before kind none node.location none).1 [.node test])) ∧
      coverChildren parent parentShape count anchor (index + 1) middle rest = .ok (later, after) ∧
      branches = .node covered :: later := by
  rw [coverChildren] at covers
  split at covers
  · cases covers
  rename_i shape shaped
  split at covers
  · cases covers
  rename_i kind classified
  have asked : kindBelow? parent index count shape = some kind := by
    unfold classify at classified
    split at classified
    · rename_i found
      cases classified
      exact found
    · cases classified
  split at covers
  · cases covers
  rename_i covered middle child
  split at covers
  · rename_i later _ follows
    simp only [Except.ok.injEq, Prod.mk.injEq] at covers
    obtain ⟨rfl, rfl⟩ := covers
    refine ⟨shape, kind, middle, covered, later, shaped, asked, ?_, follows, rfl⟩
    cases wraps : kind.isMatcher with
    | false => exact .inl ⟨rfl, by simpa [wraps] using child⟩
    | true =>
        right
        refine ⟨rfl, ?_⟩
        simp only [wraps, ↓reduceIte] at child
        split at child
        · cases child
        · simp only [place] at child
          split at child
          · rename_i test _ inner
            simp only [Except.ok.injEq, Prod.mk.injEq] at child
            obtain ⟨rfl, rfl⟩ := child
            exact ⟨test, inner, rfl⟩
          · cases child
  · cases covers

theorem coverChildren_atom_ok {value : Atom}
    (covers : coverChildren parent parentShape count anchor index before (.atom value :: rest) =
      .ok (branches, after)) :
    ∃ later,
      ((value.isNil && parent.mayBeEmpty index count) = true ∧
        coverChildren parent parentShape count anchor (index + 1)
          (place before .emptyBody none none (anchor index)).2 rest = .ok (later, after) ∧
        branches = .node (.mk (place before .emptyBody none none (anchor index)).1 []) :: later) ∨
      ((value.isNil && parent.mayBeEmpty index count) = false ∧
        coverChildren parent parentShape count anchor (index + 1) before rest =
          .ok (later, after) ∧
        branches = .atom value :: later) := by
  rw [coverChildren] at covers
  split at covers
  · rename_i absent
    simp only [place] at covers
    split at covers
    · rename_i later _ follows
      simp only [Except.ok.injEq, Prod.mk.injEq] at covers
      obtain ⟨rfl, rfl⟩ := covers
      exact ⟨later, .inl ⟨absent, follows, rfl⟩⟩
    · cases covers
  · rename_i present
    split at covers
    · rename_i later _ follows
      simp only [Except.ok.injEq, Prod.mk.injEq] at covers
      obtain ⟨rfl, rfl⟩ := covers
      exact ⟨later, .inr ⟨by simpa using present, follows, rfl⟩⟩
    · cases covers

end Inversion

theorem tag_of_shapeOf {node : Node} {shape : Shape} (shaped : shapeOf node = .ok shape) :
    shape.tag = node.tag := by
  unfold shapeOf at shaped
  split at shaped
  · rename_i found
    obtain rfl := Except.ok.inj shaped
    exact Shape.tag_of_ofTag? found
  · cases shaped

/-- What every step of covering keeps: `holds` of covered nodes, and `along` of the covered slots of
a node from one index on. -/
structure Kept (holds : Kind → Shape → Allocator → Node → Covered → Allocator → Prop)
    (along : Kind → Nat → Nat → Allocator → List Child → List Branch → Allocator → Prop) :
    Prop where
  node {kind : Kind} {shape : Shape} {tag : String} {children : List Child}
    {location : Option Span} {before after : Allocator} {branches : List Branch} :
    shape.tag = tag → shape.arity.accepts children.length = true →
    along kind children.length 0 (place before kind (some shape) location none).2 children branches
      after →
    holds kind shape before (.mk tag children location)
      (.mk (place before kind (some shape) location none).1 branches) after
  nil (parent : Kind) (count index : Nat) (allocator : Allocator) :
    along parent count index allocator [] [] allocator
  plain {parent kind : Kind} {shape : Shape} {count index : Nat} {before middle after : Allocator}
    {node : Node} {rest : List Child} {covered : Covered} {later : List Branch} :
    kindBelow? parent index count shape = some kind → kind.isMatcher = false →
    cover kind shape before node = .ok (covered, middle) →
    holds kind shape before node covered middle →
    along parent count (index + 1) middle rest later after →
    along parent count index before (.node node :: rest) (.node covered :: later) after
  wrapper {parent kind : Kind} {shape : Shape} {count index : Nat}
    {before middle after : Allocator} {node : Node} {rest : List Child} {test : Covered}
    {later : List Branch} :
    kindBelow? parent index count shape = some kind → kind.isMatcher = true →
    cover (.ofShape shape) shape (place before kind none node.location none).2 node =
      .ok (test, middle) →
    holds (.ofShape shape) shape (place before kind none node.location none).2 node test middle →
    along parent count (index + 1) middle rest later after →
    along parent count index before (.node node :: rest)
      (.node (.mk (place before kind none node.location none).1 [.node test]) :: later) after
  empty {parent : Kind} {count index : Nat} {before after : Allocator} {rest : List Child}
    {later : List Branch} (anchor : Option Anchor) :
    parent.mayBeEmpty index count = true →
    along parent count (index + 1) (place before .emptyBody none none anchor).2 rest later after →
    along parent count index before (.atom .nil :: rest)
      (.node (.mk (place before .emptyBody none none anchor).1 []) :: later) after
  atom {parent : Kind} {count index : Nat} {before after : Allocator} {value : Atom}
    {rest : List Child} {later : List Branch} :
    (value.isNil && parent.mayBeEmpty index count) = false →
    along parent count (index + 1) before rest later after →
    along parent count index before (.atom value :: rest) (.atom value :: later) after

section Pass

variable {holds : Kind → Shape → Allocator → Node → Covered → Allocator → Prop}
variable {along : Kind → Nat → Nat → Allocator → List Child → List Branch → Allocator → Prop}

mutual

theorem Kept.cover (kept : Kept holds along) (kind : Kind) (shape : Shape)
    (before after : Allocator) (covered : Covered) : (node : Node) → shapeOf node = .ok shape →
    cover kind shape before node = .ok (covered, after) →
      holds kind shape before node covered after
  | .mk tag children location => by
      intro shaped covers
      obtain ⟨branches, accepted, below, rfl⟩ := cover_ok covers
      exact kept.node (tag_of_shapeOf shaped) accepted
        (kept.coverChildren _ _ _ _ _ _ _ _ children below)

theorem Kept.coverChildren (kept : Kept holds along) (parent : Kind) (parentShape : Shape)
    (count : Nat) (anchor : Nat → Option Anchor) (index : Nat) (before after : Allocator)
    (branches : List Branch) : (children : List Child) →
    coverChildren parent parentShape count anchor index before children = .ok (branches, after) →
      along parent count index before children branches after
  | [] => by
      intro covers
      simp only [Cover.coverChildren, Except.ok.injEq, Prod.mk.injEq] at covers
      obtain ⟨rfl, rfl⟩ := covers
      exact kept.nil parent count index before
  | .node node :: rest => by
      intro covers
      obtain ⟨shape, kind, middle, covered, later, shaped, asked, child, follows, rfl⟩ :=
        coverChildren_node_ok covers
      have tail := kept.coverChildren _ _ _ _ _ _ _ _ rest follows
      rcases child with ⟨bare, inside⟩ | ⟨wraps, test, inside, rfl⟩
      · exact kept.plain asked bare inside (kept.cover _ _ _ _ _ node shaped inside) tail
      · exact kept.wrapper asked wraps inside (kept.cover _ _ _ _ _ node shaped inside) tail
  | .atom value :: rest => by
      intro covers
      obtain ⟨later, ⟨absent, follows, rfl⟩ | ⟨present, follows, rfl⟩⟩ :=
        coverChildren_atom_ok covers
      · have tail := kept.coverChildren _ _ _ _ _ _ _ _ rest follows
        rw [Bool.and_eq_true] at absent
        cases value <;> simp [Atom.isNil] at absent
        exact kept.empty (anchor index) absent tail
      · exact kept.atom present (kept.coverChildren _ _ _ _ _ _ _ _ rest follows)

end

end Pass

theorem kindBelow?_mem {parent kind : Kind} {slot count : Nat} {shape : Shape}
    (asked : kindBelow? parent slot count shape = some kind) (plain : kind.isMatcher = false) :
    kind ∈ kindsOf shape := by
  cases parent with
  | whenClause =>
      simp only [kindBelow?] at asked
      split at asked
      · simp only [Option.some.injEq] at asked
        subst asked
        split at plain <;> simp [Kind.isMatcher] at plain
      · simp only [Option.some.injEq] at asked
        simp [kindsOf, asked]
  | caseDispatch | guarded | classBody | multipleAssignment =>
      simp only [kindBelow?] at asked
      split at asked
      · split at asked
        · rename_i same
          subst same
          simp only [Option.some.injEq] at asked
          subst asked
          decide
        · cases asked
      · simp only [Option.some.injEq] at asked
        simp [kindsOf, asked]
  | block | operatorAssignment | booleanAssignment =>
      simp only [kindBelow?] at asked
      split at asked
      · cases shape <;> simp [Shape.isVariableAssignment] at asked <;> subst asked <;> decide
      · simp only [Option.some.injEq] at asked
        simp [kindsOf, asked]
  | targetList | splatTarget =>
      cases shape <;>
        simp [kindBelow?, targetKind?, Shape.isVariableAssignment] at asked <;> subst asked <;>
        decide
  | _ =>
      simp only [kindBelow?, Option.some.injEq] at asked
      simp [kindsOf, asked]

structure SlotsGrown (parent : Kind) (count index length : Nat) (before after : Allocator)
    (branches : List Branch) : Prop where
  handout : ∀ owner slot, Handout before after (cellsOfBranches owner slot branches)
  regular : ∀ kid ∈ branches.filterMap Branch.covered?, Everywhere Regular kid
  lengthEq : branches.length = length
  fits : ∀ offset branch, branches[offset]? = some branch →
    Fits parent (index + offset) count branch

theorem isMatcher_ofShape (shape : Shape) : (Kind.ofShape shape).isMatcher = false := by
  cases shape <;> rfl

theorem kindBelow?_of_isMatcher {kind : Kind} (wraps : kind.isMatcher = true) (slot count : Nat)
    (shape : Shape) : kindBelow? kind slot count shape = some (.ofShape shape) := by
  cases kind <;> first | rfl | cases wraps

section Growth

variable {parent : Kind} {count index length : Nat} {before middle after : Allocator}
variable {covered : Covered} {later : List Branch}

theorem SlotsGrown.nil (parent : Kind) (count index : Nat) (allocator : Allocator) :
    SlotsGrown parent count index 0 allocator allocator [] where
  handout owner slot := by simpa [cellsOfBranches] using Handout.nil allocator
  regular := by simp
  lengthEq := rfl
  fits := by simp

theorem SlotsGrown.node_cons
    (handout : ∀ owner slot, Handout before middle (covered.cellsUnder (some owner) slot))
    (regular : Everywhere Regular covered) (fits : Fits parent index count (.node covered))
    (grown : SlotsGrown parent count (index + 1) length middle after later) :
    SlotsGrown parent count index (length + 1) before after (.node covered :: later) where
  handout owner slot := by
    rw [cellsOfBranches]
    exact (handout owner slot).append (grown.handout owner (slot + 1))
  regular kid member := by
    rw [List.filterMap_cons, Branch.covered?_node, List.mem_cons] at member
    rcases member with rfl | inside
    · exact regular
    · exact grown.regular kid inside
  lengthEq := by simp [grown.lengthEq]
  fits offset branch held := by
    cases offset with
    | zero =>
        simp only [List.getElem?_cons_zero, Option.some.injEq] at held
        exact held ▸ fits
    | succ offset =>
        have inside := grown.fits offset branch (by simpa using held)
        rwa [show index + (offset + 1) = index + 1 + offset by omega]

theorem SlotsGrown.atom_cons {value : Atom} (fits : Fits parent index count (.atom value))
    (grown : SlotsGrown parent count (index + 1) length before after later) :
    SlotsGrown parent count index (length + 1) before after (.atom value :: later) where
  handout owner slot := by
    rw [cellsOfBranches]
    exact grown.handout owner (slot + 1)
  regular kid member := grown.regular kid (by simpa [List.filterMap_cons] using member)
  lengthEq := by simp [grown.lengthEq]
  fits offset branch held := by
    cases offset with
    | zero =>
        simp only [List.getElem?_cons_zero, Option.some.injEq] at held
        exact held ▸ fits
    | succ offset =>
        have inside := grown.fits offset branch (by simpa using held)
        rwa [show index + (offset + 1) = index + 1 + offset by omega]

theorem Everywhere.regular_mk {info : Info} {branches : List Branch}
    (formed : Formed info branches.length)
    (grown : SlotsGrown info.kind branches.length 0 length before after branches) :
    Everywhere Regular (.mk info branches) := by
  refine .of_kids ⟨formed, ?_⟩ grown.regular
  intro slot branch held
  have fits := grown.fits slot branch held
  rwa [Nat.zero_add] at fits

theorem Handout.over {kind : Kind} {shape : Option Shape} {span : Option Span}
    {anchor : Option Anchor} {branches : List Branch}
    (below : ∀ owner slot,
      Handout (Cover.place before kind shape span anchor).2 after
        (cellsOfBranches owner slot branches)) (owner : Option Nat) (slot : Nat) :
    Handout before after
      ((Covered.mk (Cover.place before kind shape span anchor).1 branches).cellsUnder
        owner slot) := by
  rw [Covered.cellsUnder]
  exact (Handout.place before kind shape span anchor owner slot branches).append (below _ 0)

end Growth

/-- Covering hands out what the cells take, and makes regular nodes. -/
theorem kept_grown :
    Kept
      (fun kind shape before _ covered after => kind ∈ kindsOf shape →
        (∀ owner slot, Handout before after (covered.cellsUnder owner slot)) ∧
          Everywhere Regular covered)
      (fun parent count index before children branches after =>
        SlotsGrown parent count index children.length before after branches) where
  node _ accepted grown suits := by
    constructor
    · exact Handout.over grown.handout
    · have length := grown.lengthEq
      rw [← length] at grown accepted
      exact Everywhere.regular_mk ⟨suits, accepted⟩ grown
  nil := .nil
  plain asked bare covers inside grown := by
    obtain ⟨handout, regular⟩ := inside (kindBelow?_mem asked bare)
    obtain ⟨hasShape, hasKind⟩ := cover_info covers
    subst hasKind
    exact grown.node_cons (fun owner => handout (some owner)) regular
      (.plain _ hasShape asked bare)
  wrapper {_ kind shape _ _ before middle _ node _ test _} asked wraps covers inside grown := by
    obtain ⟨handout, regular⟩ := inside List.mem_cons_self
    obtain ⟨hasShape, hasKind⟩ := cover_info covers
    -- the wrapper is a node over the one slot that holds the test
    have slots : SlotsGrown kind 1 0 1
        (place before kind none node.location none).2 middle [.node test] := by
      refine (SlotsGrown.nil kind 1 1 middle).node_cons (fun owner => handout (some owner))
        regular (.plain shape hasShape ?_ ?_)
      · rw [hasKind, kindBelow?_of_isMatcher wraps]
      · rw [hasKind, isMatcher_ofShape]
    refine grown.node_cons (fun owner => Handout.over slots.handout (some owner)) ?_
      (.wrapper shape rfl hasShape asked wraps)
    exact Everywhere.regular_mk (.inr (.inl ⟨wraps, rfl⟩)) slots
  empty {_ _ _ before _ _ _} anchor allowed grown := by
    have slots := SlotsGrown.nil .emptyBody 0 0 (place before .emptyBody none none anchor).2
    refine grown.node_cons (fun owner => Handout.over slots.handout (some owner)) ?_
      (.empty rfl rfl allowed)
    exact Everywhere.regular_mk (.inr (.inr ⟨rfl, rfl⟩)) slots
  atom present grown := grown.atom_cons (.atom present)

/-- The trees that covering makes: of a program, of nothing, or of a part of a program. -/
inductive Built : CoverTree → Prop where
  | program {global : String} {fileIndex : Nat} {program : Node} {tree : CoverTree} :
      CoverTree.ofProgram global fileIndex program = .ok tree → Built tree
  | nothing (global : String) (fileIndex : Nat) : Built (CoverTree.ofNothing global fileIndex)
  | fragment {global : String} {fileIndex : Nat} {fragment : Node} {tree : CoverTree} :
      CoverTree.ofFragment global fileIndex fragment = .ok tree → Built tree

structure Grown (tree : CoverTree) : Prop where
  numbered : tree.Numbered
  slots : tree.root.cells.flatMap Cell.slots = List.range tree.allocator.nextSlot
  regular : Everywhere Regular tree.root
  top : tree.root.kind = .root ∨ ∃ shape, tree.root.kind = .ofShape shape

theorem Grown.ofRoot {root : Covered} {global : String} {fileIndex : Nat} {after : Allocator}
    (handout : Handout (.fresh global fileIndex) after (root.cellsUnder none 0))
    (regular : Everywhere Regular root)
    (top : root.kind = .root ∨ ∃ shape, root.kind = .ofShape shape) :
    Grown (.ofRoot root after) where
  numbered := by
    have numbers := handout.numbers
    have length := congrArg List.length numbers
    simp only [List.length_map, List.length_range'] at length
    rw [← length] at numbers
    rw [CoverTree.Numbered, List.range_eq_range']
    exact numbers
  slots := by
    have slots := handout.slots
    rw [show (Allocator.fresh global fileIndex).nextSlot = 0 from rfl, Nat.sub_zero,
      ← List.range_eq_range'] at slots
    exact slots
  regular := regular
  top := top

theorem Grown.ofWrapped {global : String} {fileIndex : Nat} {after : Allocator} {covered : Covered}
    (handout : ∀ owner slot,
      Handout (place (.fresh global fileIndex) .root none none none).2 after
        (covered.cellsUnder owner slot))
    (regular : Everywhere Regular covered) (fits : Fits .root 0 1 (.node covered)) :
    Grown (.ofRoot (.mk (place (.fresh global fileIndex) .root none none none).1 [.node covered])
      after) := by
  have slots : SlotsGrown .root 1 0 1 _ after [.node covered] :=
    (SlotsGrown.nil .root 1 1 after).node_cons (fun owner => handout (some owner)) regular fits
  exact Grown.ofRoot (Handout.over slots.handout none 0)
    (Everywhere.regular_mk (.inl ⟨rfl, rfl⟩) slots) (.inl rfl)

theorem ofProgram_ok {global : String} {fileIndex : Nat} {program : Node} {tree : CoverTree}
    (built : CoverTree.ofProgram global fileIndex program = .ok tree) :
    ∃ shape covered after, shapeOf program = .ok shape ∧
      cover (.ofShape shape) shape (place (.fresh global fileIndex) .root none none none).2
        program = .ok (covered, after) ∧
      tree = .ofRoot (.mk (place (.fresh global fileIndex) .root none none none).1
        [.node covered]) after := by
  simp only [CoverTree.ofProgram, classify, kindBelow?] at built
  split at built
  · cases built
  · rename_i shape shaped
    split at built
    · rename_i covered after covers
      simp only [Except.ok.injEq] at built
      exact ⟨shape, covered, after, shaped, covers, built.symm⟩
    · cases built

theorem ofFragment_ok {global : String} {fileIndex : Nat} {fragment : Node} {tree : CoverTree}
    (built : CoverTree.ofFragment global fileIndex fragment = .ok tree) :
    ∃ shape covered after, shapeOf fragment = .ok shape ∧
      cover (.ofShape shape) shape (.fresh global fileIndex) fragment = .ok (covered, after) ∧
      tree = .ofRoot covered after := by
  unfold CoverTree.ofFragment at built
  split at built
  · cases built
  · rename_i shape shaped
    split at built
    · rename_i covered after covers
      simp only [Except.ok.injEq] at built
      exact ⟨shape, covered, after, shaped, covers, built.symm⟩
    · cases built

theorem Built.grown {tree : CoverTree} (built : Built tree) : Grown tree := by
  cases built with
  | program built =>
      obtain ⟨shape, covered, after, shaped, covers, rfl⟩ := ofProgram_ok built
      obtain ⟨handout, regular⟩ := kept_grown.cover _ _ _ _ _ _ shaped covers List.mem_cons_self
      obtain ⟨hasShape, hasKind⟩ := cover_info covers
      refine Grown.ofWrapped handout regular (.plain shape hasShape ?_ ?_)
      · rw [hasKind]
        rfl
      · rw [hasKind, isMatcher_ofShape]
  | nothing global fileIndex =>
      have slots := SlotsGrown.nil .emptyBody 0 0
        (place (place (.fresh global fileIndex) .root none none none).2 .emptyBody none none
          (some (.exactly 0))).2
      exact Grown.ofWrapped (Handout.over slots.handout)
        (Everywhere.regular_mk (.inr (.inr ⟨rfl, rfl⟩)) slots) (.empty rfl rfl rfl)
  | fragment built =>
      obtain ⟨shape, covered, after, shaped, covers, rfl⟩ := ofFragment_ok built
      obtain ⟨handout, regular⟩ := kept_grown.cover _ _ _ _ _ _ shaped covers List.mem_cons_self
      exact Grown.ofRoot (handout none 0) regular (.inr ⟨_, (cover_info covers).2⟩)

theorem built_of_build {global : String} {fileIndex : Nat} {program : Option Node}
    {tree : CoverTree} (covered : CoverTree.build global fileIndex program = .ok tree) :
    Built tree ∧ tree.root.kind = .root := by
  cases program with
  | none =>
      obtain rfl : CoverTree.ofNothing global fileIndex = tree := Except.ok.inj covered
      exact ⟨.nothing global fileIndex, rfl⟩
  | some program =>
      obtain ⟨_, _, _, _, _, rfl⟩ := ofProgram_ok covered
      exact ⟨.program covered, rfl⟩

theorem kept_origin :
    Kept (fun _ _ before _ _ after =>
        after.global = before.global ∧ after.fileIndex = before.fileIndex)
      (fun _ _ _ before _ _ after =>
        after.global = before.global ∧ after.fileIndex = before.fileIndex) where
  node _ _ below := below
  nil _ _ _ _ := ⟨rfl, rfl⟩
  plain _ _ _ inside later := ⟨later.1.trans inside.1, later.2.trans inside.2⟩
  wrapper _ _ _ inside later := ⟨later.1.trans inside.1, later.2.trans inside.2⟩
  empty _ _ later := later
  atom _ later := later

theorem origin_of_build {global : String} {fileIndex : Nat} {program : Option Node}
    {tree : CoverTree} (covered : CoverTree.build global fileIndex program = .ok tree) :
    tree.allocator.global = global ∧ tree.allocator.fileIndex = fileIndex := by
  cases program with
  | none =>
      obtain rfl : CoverTree.ofNothing global fileIndex = tree := Except.ok.inj covered
      exact ⟨rfl, rfl⟩
  | some program =>
      obtain ⟨shape, inner, after, shaped, covers, rfl⟩ := ofProgram_ok covered
      exact kept_origin.cover _ _ _ _ _ _ shaped covers

end ProbeCoverage.Cover
