import Mathlib.Logic.Relation
import ProbeCoverage.Proofs.Cover.Arena
import ProbeCoverage.Proofs.Instrument.Rendering

/-!
Where the fragments of a node end up. A text is rendered from the top, and a node without a span has
no text to render its children into. So a node is reached if all nodes between it and the root have
spans. The fragments of a reached node stand in the text once, at the two ends of its place, around
those of the nodes below it. The fragments of any other node are lost, and nothing tells.
-/

namespace ProbeCoverage.Instrument

open Cover

def Below (tree : CoverTree) : Nat → Nat → Prop :=
  Relation.TransGen fun lower upper => tree.parent? lower = some upper

/-- All nodes between the root and the node have spans. -/
def Reached (tree : CoverTree) (id : Nat) : Prop :=
  ∀ upper, Below tree id upper → upper ≠ 0 →
    ∃ cell, tree.cell? upper = some cell ∧ cell.span.isSome = true

structure Frame (tree : CoverTree) (pieces : List Piece) (id : Nat) (plan : Plan)
    (range : ByteRange) (front inner back : List Piece) : Prop where
  split : pieces = front ++ (around id plan inner ++ back)
  -- offsets are those of the source
  start : Text.byteCount (keptOf front) = range.start
  stop : Text.byteCount (keptOf (front ++ inner)) = range.stop
  inside : ∀ other ∈ ownersOf inner, other ≠ id ∧ Below tree other id
  outside : ∀ other ∈ ownersOf (front ++ back), other ≠ id ∧ ¬Below tree other id

/-- The fragments of a node stand once, at the ends of its place. -/
def Placed (tree : CoverTree) (source : List Char) (pieces : List Piece) (cell : Cell)
    (plan : Plan) : Prop :=
  ∃ range front inner back, place? source cell.span cell.anchor = some range ∧
    Frame tree pieces cell.number plan range front inner back ∧ (cell.span = none → inner = [])

section Order

variable {tree : CoverTree} {node : Covered} {above : Option Covered} {slot id upper : Nat}

theorem occurs_of_parent? (grown : Grown tree) (stands : tree.parent? id = some upper) :
    ∃ parent slot kid, Occurs tree.root (some parent) slot kid ∧ parent.number = upper ∧
      kid.number = id := by
  obtain ⟨cell, found, parent⟩ := Option.bind_eq_some_iff.mp stands
  obtain ⟨above, slot, kid, occurs, rfl, rfl⟩ := grown.numbered.occurs_of_cell? found
  rw [Covered.cell_parent] at parent
  cases above with
  | none => cases parent
  | some holder => exact ⟨holder, slot, kid, occurs, Option.some.inj parent, rfl⟩

theorem below_of_within (grown : Grown tree) (node : Covered) :
    ∀ above slot, Occurs tree.root above slot node →
      ∀ kid ∈ node.kids, ∀ inner ∈ kid.within, Below tree inner.number node.number := by
  induction node using Covered.induction with
  | step node ih =>
      intro above slot occurs kid member inner inside
      obtain ⟨place, held⟩ := Covered.mem_kids.mp member
      have stands := Occurs.child place occurs held
      have step := grown.numbered.parent?_of_occurs stands
      rw [kid.within_eq, List.mem_cons, List.mem_flatMap] at inside
      rcases inside with rfl | ⟨deeper, below, within⟩
      · exact .single step
      · exact (ih kid member (some node) place stands deeper below inner within).tail step

theorem within_of_below (grown : Grown tree) (occurs : Occurs tree.root above slot node)
    (below : Below tree id node.number) :
    ∃ kid ∈ node.kids, ∃ inner ∈ kid.within, inner.number = id := by
  induction below using Relation.TransGen.head_induction_on with
  | single stands =>
      obtain ⟨parent, place, kid, lower, same, rfl⟩ := occurs_of_parent? grown stands
      obtain ⟨⟨_, _, upper⟩, held⟩ := lower.parent
      obtain rfl := grown.unique upper occurs same
      exact ⟨kid, Covered.mem_kids.mpr ⟨place, held⟩, kid, self_mem_within kid, rfl⟩
  | head stands _ ih =>
      obtain ⟨kid, member, inner, inside, number⟩ := ih
      obtain ⟨parent, place, deeper, lower, same, rfl⟩ := occurs_of_parent? grown stands
      obtain ⟨⟨_, _, upper⟩, held⟩ := lower.parent
      obtain ⟨first, kidHeld⟩ := Covered.mem_kids.mp member
      obtain ⟨_, _, stands⟩ := occurs_of_within (.child first occurs kidHeld) inside
      obtain rfl := grown.unique upper stands (same.trans number.symm)
      -- the same step, seen from the child
      obtain ⟨_, _, within⟩ := occurs_of_within .top inside
      have step : Occurs kid (some parent) place deeper := .child place within held
      exact ⟨kid, member, deeper, step.within_subset deeper (self_mem_within deeper), rfl⟩

theorem within_nodup (grown : Grown tree) (occurs : Occurs tree.root above slot node) :
    (node.within.map Covered.number).Nodup := by
  have all : (tree.root.cells.map Cell.number).Nodup := by
    rw [grown.numbered]
    exact List.nodup_range
  rw [within_numbers node (above.map Covered.number) slot]
  exact all.sublist (occurs.cells_infix.sublist.map Cell.number)

theorem kids_nodup (grown : Grown tree) (occurs : Occurs tree.root above slot node) :
    node.number ∉ (node.kids.flatMap Covered.within).map Covered.number ∧
      ((node.kids.flatMap Covered.within).map Covered.number).Nodup := by
  have distinct := within_nodup grown occurs
  rw [node.within_eq, List.map_cons, List.nodup_cons] at distinct
  exact distinct

theorem reached_root (grown : Grown tree) : Reached tree 0 := by
  intro top below
  obtain ⟨next, first, _⟩ := Relation.TransGen.head'_iff.mp below
  have none := grown.numbered.parent?_of_occurs .top
  rw [root_number grown.numbered, first] at none
  cases none

theorem Reached.parent (reached : Reached tree id) (stands : tree.parent? id = some upper) :
    Reached tree upper :=
  fun top below => reached top (.head stands below)

theorem Reached.child (reached : Reached tree upper) (stands : tree.parent? id = some upper)
    (located : upper ≠ 0 → ∃ cell, tree.cell? upper = some cell ∧ cell.span.isSome = true) :
    Reached tree id := by
  intro top below
  obtain ⟨next, first, rest⟩ := Relation.TransGen.head'_iff.mp below
  obtain rfl : upper = next := Option.some.inj (stands.symm.trans first)
  rcases Relation.reflTransGen_iff_eq_or_transGen.mp rest with rfl | higher
  · exact located
  · exact reached top higher

end Order

section Embedding

variable {tree : CoverTree} {stem : String} {source : List Char} {pieces : List Piece}

def Embedded (tree : CoverTree) (stem : String) (source : List Char) (pieces : List Piece)
    (node : Covered) : Prop :=
  ∃ front output back place, renderNode tree stem source node = .ok output ∧
    place? source node.info.span node.info.anchor = some place ∧
    pieces = front ++ (output ++ back) ∧ Text.byteCount (keptOf front) = place.start ∧
    ∀ id ∈ ownersOf (front ++ back), id ∉ node.within.map Covered.number

theorem Embedded.kid (grown : Grown tree) {node kid : Covered} {above : Option Covered}
    {slot : Nat} (occurs : Occurs tree.root above slot node) {span : Ast.Span}
    (embedded : Embedded tree stem source pieces node) (located : node.info.span = some span)
    (member : kid ∈ node.kids) (loud : ¬Silent tree stem kid) :
    Embedded tree stem source pieces kid := by
  obtain ⟨front, output, back, place, rendered, placed, rfl, size, apart⟩ := embedded
  obtain ⟨plan, inner, _, filled, rfl⟩ := renderNode_located rendered located
  obtain rfl : rangeOf span = place := by simpa [place?, located] using placed
  have distinct := kids_nodup grown occurs
  obtain ⟨ahead, output, behind, place, kidRendered, kidPlaced, rfl, offset, others⟩ :=
    filled.places_kid distinct.2 member loud
  refine ⟨front ++ .inserted node.number plan.before :: ahead, output,
    behind ++ .inserted node.number plan.after :: back, place, kidRendered, kidPlaced, ?_, ?_, ?_⟩
  · simp [around]
  · simp only [keptOf_append, keptOf_inserted, Text.byteCount_append]
    omega
  · intro id owner inside
    have within : ∀ id ∈ kid.within.map Covered.number,
        id ∈ (node.kids.flatMap Covered.within).map Covered.number := by
      intro _ inner
      obtain ⟨deeper, holds, rfl⟩ := List.mem_map.mp inner
      exact number_mem_within member holds
    simp only [ownersOf_append, ownersOf_inserted, List.mem_append, List.mem_cons] at owner
    have far : id ∈ ownersOf (front ++ back) ∨ id ∈ ownersOf (ahead ++ behind) ∨
        id = node.number := by
      simp only [ownersOf_append, List.mem_append]
      tauto
    rcases far with outside | sibling | rfl
    · apply apart id outside
      rw [node.within_eq, List.map_cons]
      exact List.mem_cons_of_mem _ (within id inside)
    · exact others id sibling inside
    · exact distinct.1 (within _ inside)

/-- Every reached node is rendered into the text, but for those that leave no trace. The step goes
from a node to its children: a reached node stands below located nodes only, and these leave one. -/
theorem embedded_of_reached (grown : Grown tree) (unlocated : tree.root.info.span = none)
    (done : Instrument.pieces tree stem source = .ok pieces) {node : Covered}
    {above : Option Covered} {slot : Nat} (occurs : Occurs tree.root above slot node)
    (inner : above ≠ none) (reached : Reached tree node.number)
    (loud : ¬Silent tree stem node) : Embedded tree stem source pieces node := by
  induction occurs with
  | top => exact absurd rfl inner
  | @child above place parent slot kid stands held ih =>
      have step := grown.numbered.parent?_of_occurs (.child slot stands held)
      have member := Covered.mem_kids.mpr ⟨slot, held⟩
      by_cases top : above = none
      · subst top
        cases stands with
        | top =>
            obtain ⟨front, output, back, place, rendered, placed, split, size, apart⟩ :=
              (pieces_filled done unlocated).places_kid (kids_nodup grown .top).2 member loud
            exact ⟨front, output, back, place, rendered, placed, split, by simpa using size, apart⟩
      · have notRoot : parent.number ≠ 0 := by
          cases stands with
          | top => exact absurd rfl top
          | child _ upper holds =>
              rw [← root_number grown.numbered]
              exact grown.root_not_below (.child _ upper holds)
        obtain ⟨cell, found, located⟩ := reached parent.number (.single step) notRoot
        rw [grown.numbered.cell?_of_occurs stands] at found
        obtain rfl := Option.some.inj found
        obtain ⟨span, located⟩ := Option.isSome_iff_exists.mp located
        have located : parent.info.span = some span := located
        have parentLoud : ¬Silent tree stem parent := by
          rintro ⟨missing, _⟩
          rw [located] at missing
          cases missing
        exact (ih top (reached.parent step) parentLoud).kid grown stands located member loud

theorem added_reached (grown : Grown tree) (node : Covered) : ∀ above slot output,
    Occurs tree.root above slot node → Reached tree node.number → ¬Silent tree stem node →
    renderNode tree stem source node = .ok output → ∀ entry ∈ addedOf output,
      ∃ around place inner, Occurs tree.root around place inner ∧ inner.number = entry.1 ∧
        Reached tree entry.1 ∧ ¬Silent tree stem inner := by
  induction node using Covered.induction with
  | step node ih =>
      intro above slot output occurs reached loud rendered entry member
      rcases added_cases rendered member with ⟨plan, _, own⟩ | ⟨located, kid, below, later⟩
      · have owner : node.number = entry.1 := by
          rcases own with rfl | rfl
          · rfl
          · rfl
        exact ⟨above, slot, node, occurs, owner, owner ▸ reached, loud⟩
      · obtain ⟨output, kidRendered, kidLoud, found⟩ := later
        obtain ⟨place, held⟩ := Covered.mem_kids.mp below
        have stands := Occurs.child place occurs held
        have kidReached : Reached tree kid.number :=
          reached.child (grown.numbered.parent?_of_occurs stands) fun _ =>
            ⟨_, grown.numbered.cell?_of_occurs occurs, located⟩
        exact ih kid below (some node) place output stands kidReached kidLoud kidRendered entry found

end Embedding

section Main

variable {tree : CoverTree} {stem : String} {source : List Char} {pieces : List Piece}
variable {node : Covered} {above : Option Covered} {slot : Nat}

theorem Embedded.placed (grown : Grown tree) (occurs : Occurs tree.root above slot node)
    (embedded : Embedded tree stem source pieces node) :
    ∃ plan, Instrument.plan tree stem node.number = .ok plan ∧
      Placed tree source pieces (node.cell (above.map Covered.number) slot) plan := by
  obtain ⟨front, output, back, place, rendered, placed, split, size, apart⟩ := embedded
  have outside : ∀ other ∈ ownersOf (front ++ back),
      other ≠ node.number ∧ ¬Below tree other node.number := by
    intro other owner
    have far := apart other owner
    rw [node.within_eq, List.map_cons, List.mem_cons, not_or] at far
    refine ⟨far.1, fun below => far.2 ?_⟩
    obtain ⟨kid, member, inner, inside, rfl⟩ := within_of_below grown occurs below
    exact number_mem_within member inside
  cases located : node.info.span with
  | none =>
      obtain ⟨plan, planned, rfl⟩ := renderNode_unlocated rendered located
      refine ⟨plan, planned, place, front, [], back, placed, ?_, fun _ => rfl⟩
      rw [located] at placed
      obtain ⟨anchor, _, rfl⟩ := Option.map_eq_some_iff.mp placed
      exact ⟨split, size, by simpa using size, by simp, outside⟩
  | some span =>
      obtain ⟨plan, inner, planned, filled, rfl⟩ := renderNode_located rendered located
      refine ⟨plan, planned, place, front, inner, back, placed, ?_, ?_⟩
      · obtain rfl : rangeOf span = place := by simpa [place?, located] using placed
        obtain ⟨_, _, _, _, width⟩ := Text.slice?_eq_some_iff.mp filled.keeps
        refine ⟨split, size, by rw [keptOf_append, Text.byteCount_append, size, width], ?_, outside⟩
        intro other owner
        obtain ⟨entry, here, rfl⟩ := List.mem_map.mp owner
        obtain ⟨kid, member, output, rendered, _, found⟩ := filled.added here
        obtain ⟨deeper, holds, same⟩ :=
          List.mem_map.mp (added_within kid output rendered entry found)
        rw [← same]
        refine ⟨?_, below_of_within grown node above slot occurs kid member deeper holds⟩
        intro own
        have below := number_mem_within member holds
        rw [own] at below
        exact (kids_nodup grown occurs).1 below
      · intro missing
        rw [show node.info.span = none from missing] at located
        cases located

/-- Everything in a text was put in for a reached node that leaves a trace. -/
theorem owner_of_pieces (grown : Grown tree) (unlocated : tree.root.info.span = none)
    (done : Instrument.pieces tree stem source = .ok pieces) {id : Nat}
    (owner : id ∈ ownersOf pieces) :
    ∃ around place inner, Occurs tree.root around place inner ∧ inner.number = id ∧
      Reached tree id ∧ ¬Silent tree stem inner := by
  obtain ⟨entry, here, rfl⟩ := List.mem_map.mp owner
  obtain ⟨kid, member, output, rendered, loud, found⟩ :=
    (pieces_filled done unlocated).added here
  obtain ⟨place, held⟩ := Covered.mem_kids.mp member
  have stands : Occurs tree.root (some tree.root) place kid := .child place .top held
  refine added_reached grown kid (some tree.root) place output stands ?_ loud rendered entry found
  have step := grown.numbered.parent?_of_occurs stands
  rw [Option.map_some, root_number grown.numbered] at step
  exact (reached_root grown).child step fun notRoot => absurd rfl notRoot

theorem root_unlocated {global : String} {fileIndex : Nat} {program : Option Ast.Node}
    (covered : CoverTree.build global fileIndex program = .ok tree) :
    tree.root.info.span = none := by
  cases program with
  | none =>
      obtain rfl : CoverTree.ofNothing global fileIndex = tree := Except.ok.inj covered
      rfl
  | some program =>
      obtain ⟨_, _, _, _, _, rfl⟩ := ofProgram_ok covered
      rfl

theorem plan_root (grown : Grown tree) (top : tree.root.kind = .root) :
    plan tree stem tree.root.number = .ok .empty := by
  unfold plan ownPlan parentPlan
  rw [grown.numbered.cell?_of_occurs .top]
  simp [Kind.ownPattern, top, Plan.around, Plan.empty]

theorem instrument_ok {text output : String} (done : instrument tree stem text = .ok output) :
    ∃ pieces, Instrument.pieces tree stem text.toList = .ok pieces ∧
      output = Piece.textOf pieces := by
  unfold instrument at done
  split at done
  · rename_i pieces rendered
    exact ⟨pieces, rendered, (Except.ok.inj done).symm⟩
  · cases done

end Main

/-- An instrumented text holds the fragments of a node if and only if the node is reached. -/
theorem fragments_placed_where_reached {global : String} {fileIndex : Nat}
    {program : Option Ast.Node} {tree : CoverTree} {stem source output : String}
    (covered : CoverTree.build global fileIndex program = .ok tree)
    (done : instrument tree stem source = .ok output) :
    ∃ pieces, Instrument.pieces tree stem source.toList = .ok pieces ∧
      output = Piece.textOf pieces ∧
      ∀ id cell plan, tree.cell? id = some cell → Instrument.plan tree stem id = .ok plan →
        plan.isEmpty = false →
        (Reached tree id → Placed tree source.toList pieces cell plan) ∧
          (¬Reached tree id → id ∉ ownersOf pieces) := by
  obtain ⟨built, top⟩ := built_of_build covered
  have grown := built.grown
  have unlocated := root_unlocated covered
  obtain ⟨pieces, rendered, rfl⟩ := instrument_ok done
  refine ⟨pieces, rendered, rfl, ?_⟩
  intro id cell plan found planned nonempty
  obtain ⟨above, slot, node, occurs, rfl, rfl⟩ := grown.numbered.occurs_of_cell? found
  have something : Instrument.plan tree stem node.number ≠ .ok .empty := by
    intro nothing
    obtain rfl : plan = .empty := Except.ok.inj (planned.symm.trans nothing)
    cases nonempty
  constructor
  · intro reached
    have inner : above ≠ none := by
      rintro rfl
      cases occurs with
      | top => exact something (plan_root grown top)
    have loud : ¬Silent tree stem node := fun silent => something silent.2
    obtain ⟨own, ownPlanned, placed⟩ :=
      (embedded_of_reached grown unlocated rendered occurs inner reached loud).placed grown occurs
    obtain rfl : plan = own := Except.ok.inj (planned.symm.trans ownPlanned)
    exact placed
  · intro unreached owner
    obtain ⟨_, _, _, _, _, reached, _⟩ := owner_of_pieces grown unlocated rendered owner
    exact unreached reached

/-- Two calls, the second one in a sequence without a span. -/
def halfLocated : Ast.Node :=
  let call (name : String) (span : Option Ast.Span) : Ast.Child :=
    .node (.mk "send" [.atom .nil, .atom (.text name)] span)
  .mk "begin" [call "foo" (some ⟨0, 3, 1, 1⟩), .node (.mk "begin" [call "bar" none] none)]
    (some ⟨0, 7, 1, 1⟩)

theorem fragments_placed_where_reached_half :
    ∃ tree, CoverTree.build Probe.defaultGlobal 0 (some halfLocated) = .ok tree ∧
      ∃ pieces cell, Instrument.pieces tree defaultStem "foo;bar".toList = .ok pieces ∧
        tree.cell? 2 = some cell ∧ 4 ∉ ownersOf pieces ∧
        Placed tree "foo;bar".toList pieces cell
          ⟨"(_dc_l2=(", ");$_dc_cov[0][1]+=1;_dc_l2=_dc_l2)"⟩ := by
  have known {tree : CoverTree} {call bare inner : Cell}
      (covered : CoverTree.build Probe.defaultGlobal 0 (some halfLocated) = .ok tree)
      (done : instrument tree defaultStem "foo;bar" =
        .ok "$_dc_cov[0][0]+=1;(_dc_l2=(foo);$_dc_cov[0][1]+=1;_dc_l2=_dc_l2);bar")
      (above : tree.parent? 1 = some 0 ∧ tree.parent? 2 = some 1 ∧ tree.parent? 4 = some 3)
      (located : ∃ cell, tree.cell? 1 = some cell ∧ cell.span.isSome = true)
      (unlocated : tree.cell? 3 = some bare ∧ bare.span = none)
      (first : tree.cell? 2 = some call) (second : tree.cell? 4 = some inner)
      (firstPlan : Instrument.plan tree defaultStem 2 =
        .ok ⟨"(_dc_l2=(", ");$_dc_cov[0][1]+=1;_dc_l2=_dc_l2)"⟩)
      (secondPlan : Instrument.plan tree defaultStem 4 =
        .ok ⟨"(_dc_l4=(", ");$_dc_cov[0][2]+=1;_dc_l4=_dc_l4)"⟩) :
      ∃ pieces cell, Instrument.pieces tree defaultStem "foo;bar".toList = .ok pieces ∧
        tree.cell? 2 = some cell ∧ 4 ∉ ownersOf pieces ∧
        Placed tree "foo;bar".toList pieces cell
          ⟨"(_dc_l2=(", ");$_dc_cov[0][1]+=1;_dc_l2=_dc_l2)"⟩ := by
    obtain ⟨pieces, rendered, _, placed⟩ := fragments_placed_where_reached covered done
    have top := reached_root (built_of_build covered).1.grown
    have outer : Reached tree 1 := top.child above.1 fun notRoot => absurd rfl notRoot
    refine ⟨pieces, call, rendered, first, ?_, ?_⟩
    · apply (placed 4 inner _ second secondPlan (by decide +kernel)).2
      intro reached
      obtain ⟨cell, found, spanned⟩ := reached 3 (.single above.2.2) (by decide)
      obtain rfl := Option.some.inj (found.symm.trans unlocated.1)
      simp [unlocated.2] at spanned
    · apply (placed 2 call _ first firstPlan (by decide +kernel)).1
      exact outer.child above.2.1 fun _ => located
  refine ⟨_, rfl, known rfl ?_ ⟨rfl, rfl, rfl⟩ ⟨_, rfl, rfl⟩ ⟨rfl, rfl⟩ rfl rfl ?_ ?_⟩
  · decide +kernel
  · decide +kernel
  · decide +kernel

/-- The second call is instrumented without its probe and without a complaint. -/
theorem bare_sequence_loses_probe :
    ∃ tree, CoverTree.build Probe.defaultGlobal 0 (some halfLocated) = .ok tree ∧
      Instrument.plan tree defaultStem 4 =
        .ok ⟨"(_dc_l4=(", ");$_dc_cov[0][2]+=1;_dc_l4=_dc_l4)"⟩ ∧
      instrument tree defaultStem "foo;bar" =
        .ok "$_dc_cov[0][0]+=1;(_dc_l2=(foo);$_dc_cov[0][1]+=1;_dc_l2=_dc_l2);bar" := by
  refine ⟨_, rfl, ?_, ?_⟩
  · decide +kernel
  · decide +kernel

end ProbeCoverage.Instrument
