import ProbeCoverage.Proofs.Cover.Patterns
import ProbeCoverage.Proofs.Cover.Placement

/-!
Which syntax trees are refused. Each node of a syntax tree can be judged on its own: by its tag, by
the place where it stands, and by the number of its children. Covering refuses a tree for the first
node with a fault, in source order, and covers every tree without one.

Some places are reserved for certain shapes. A clause that stands outside its construct is refused
at a reserved place. Everywhere else it passes.
-/

namespace ProbeCoverage.Cover

open Ast (Child Node Shape)
open Probe (Allocator)

/-- A node of a syntax tree and where it stands: the nodes above it, the nearest one first, and its
slot in the nearest one. -/
structure Position where
  above : List Node
  slot : Nat
  node : Node

mutual

def positionsFrom (above : List Node) (slot : Nat) : Node → List Position
  | .mk tag children location =>
      ⟨above, slot, .mk tag children location⟩ ::
        positionsOfChildren (.mk tag children location :: above) 0 children

def positionsOfChildren (above : List Node) (slot : Nat) : List Child → List Position
  | [] => []
  | .node node :: rest => positionsFrom above slot node ++ positionsOfChildren above (slot + 1) rest
  | .atom _ :: rest => positionsOfChildren above (slot + 1) rest

end

def positions (program : Node) : List Position :=
  positionsFrom [] 0 program

def targetShapes : List Shape :=
  [.lvasgn, .ivasgn, .gvasgn, .cvasgn, .casgn, .send]

/-- The shapes that a parent takes at `slot` of `count`, if it does not take all. `higher` is what the
parent itself stands in. -/
def reservedFor? (higher : Option Shape) (parent : Shape) (slot count : Nat) :
    Option (List Shape) :=
  match parent with
  | .caseOf => if 0 < slot ∧ slot < count - 1 then some [.whenOf] else none
  | .rescue => if 0 < slot ∧ slot < count - 1 then some [.resbody] else none
  | .block => if slot = 0 then some [.send, .superCall, .zsuper, .yield] else none
  | .classDef | .moduleDef => if slot = 0 then some [.const] else none
  | .masgn => if slot = 0 then some [.mlhs] else none
  | .mlhs => some (.splat :: .mlhs :: targetShapes)
  | .splat => if higher = some .mlhs then some targetShapes else none
  | .opAsgn | .orAsgn | .andAsgn => if slot = 0 then some targetShapes else none
  | _ => none

def nearestShape? (above : List Node) : Option Shape :=
  above.head?.bind fun node => Shape.ofTag? node.tag

namespace Position

def shape? (position : Position) : Option Shape :=
  Shape.ofTag? position.node.tag

def parentShape? (position : Position) : Option Shape :=
  nearestShape? position.above

def reserved? (position : Position) : Option (List Shape) :=
  match position.above with
  | [] => none
  | parent :: higher =>
      (Shape.ofTag? parent.tag).bind fun shape =>
        reservedFor? (nearestShape? higher) shape position.slot parent.children.length

def takes (position : Position) (shape : Shape) : Bool :=
  position.reserved?.all fun shapes => decide (shape ∈ shapes)

def fault? (position : Position) : Option BuildError :=
  match position.shape? with
  | none => some (.unknownShape position.node.tag)
  | some shape =>
      if position.takes shape then
        if shape.arity.accepts position.node.children.length then none
        else some (.arity shape position.node.children.length)
      else some (.unexpectedChild position.parentShape? position.slot shape)

/-- A clause outside the construct that it belongs to. -/
def misplaced (position : Position) : Bool :=
  match position.shape? with
  | some .resbody => position.parentShape? != some .rescue
  | some .whenOf => position.parentShape? != some .caseOf
  | some .mlhs =>
      !(position.parentShape? == some .masgn && position.slot == 0) &&
        position.parentShape? != some .mlhs
  | _ => false

end Position

def refusal? {α : Type} : Except BuildError α → Option BuildError
  | .ok _ => none
  | .error error => some error

section Kinds

variable {higher : Option Shape} {parent shape : Shape} {kind inner : Kind} {slot count : Nat}

/-- The kinds that a node can have below a given shape. A splat in a list of targets is a target. -/
def Suits (higher : Option Shape) (shape : Shape) (kind : Kind) : Prop :=
  kind ∈ kindsOf shape ∧ (kind = .splatTarget ↔ shape = .splat ∧ higher = some .mlhs)

/-- A row of the table: a parent that asks for some shapes under a condition. -/
theorem isSome_row {asked reserved : Prop} [Decidable asked] [Decidable reserved]
    {found : Option Kind} {shapes : List Shape} (same : asked ↔ reserved)
    (takes : found.isSome = decide (shape ∈ shapes)) :
    (if asked then found else some (.ofShape shape)).isSome =
      (if reserved then some shapes else none).all fun shapes => decide (shape ∈ shapes) := by
  by_cases here : reserved
  · simp [same.mpr here, here, takes]
  · simp [mt same.mp here, here]

theorem kindBelow?_isSome (suits : Suits higher parent kind) :
    (kindBelow? kind slot count shape).isSome =
      (reservedFor? higher parent slot count).all fun shapes => decide (shape ∈ shapes) := by
  rcases suits with ⟨member, target⟩
  cases parent
  case caseOf | rescue =>
    obtain rfl := List.mem_singleton.mp member
    exact isSome_row (by simp) (by cases shape <;> rfl)
  case block | classDef | moduleDef | masgn | opAsgn | orAsgn | andAsgn =>
    obtain rfl := List.mem_singleton.mp member
    exact isSome_row Iff.rfl (by cases shape <;> rfl)
  case mlhs =>
    obtain rfl := List.mem_singleton.mp member
    cases shape <;> rfl
  case splat =>
    -- the only kind here that asks for something is the one that a list of targets gives
    by_cases below : higher = some .mlhs
    · obtain rfl := target.mpr ⟨rfl, below⟩
      rw [reservedFor?, if_pos below]
      cases shape <;> rfl
    · have other : kind ≠ .splatTarget := fun same => below (target.mp same).2
      obtain rfl : kind = .container := by simpa [kindsOf, Kind.ofShape, other] using member
      rw [reservedFor?, if_neg below]
      rfl
  case whenOf =>
    obtain rfl := List.mem_singleton.mp member
    change (if slot < count - 1 then some _ else some _).isSome = true
    split <;> rfl
  case send =>
    simp only [kindsOf, List.mem_cons, List.not_mem_nil, or_false] at member
    rcases member with rfl | rfl | rfl | rfl <;> rfl
  case lvasgn | ivasgn | gvasgn | cvasgn =>
    simp only [kindsOf, List.mem_cons, List.not_mem_nil, or_false] at member
    rcases member with rfl | rfl | rfl <;> rfl
  case yield | superCall | zsuper | const | casgn =>
    simp only [kindsOf, List.mem_cons, List.not_mem_nil, or_false] at member
    rcases member with rfl | rfl <;> rfl
  all_goals
    obtain rfl := List.mem_singleton.mp member
    rfl

theorem ofShape_ne_splatTarget (shape : Shape) : Kind.ofShape shape ≠ .splatTarget := by
  cases shape <;> decide

theorem targetList_iff (member : kind ∈ kindsOf parent) : kind = .targetList ↔ parent = .mlhs := by
  revert kind
  cases parent <;> decide

theorem splatTarget_asked (asked : kindBelow? kind slot count shape = some .splatTarget) :
    kind = .targetList ∧ shape = .splat := by
  rcases kindBelow?_cases asked with same | ⟨_, _, wraps⟩ | ⟨_, _, same⟩ | ⟨_, _, same⟩ |
    ⟨parent, _⟩ | ⟨_, _, access⟩
  · exact absurd same.symm (ofShape_ne_splatTarget shape)
  · cases wraps
  · cases same
  · cases same
  · rcases parent with rfl | rfl <;>
      cases shape <;> simp [kindBelow?, targetKind?, Shape.isVariableAssignment] at asked ⊢
  · simp at access

theorem Suits.below (suits : Suits higher parent kind)
    (asked : kindBelow? kind slot count shape = some inner) (plain : inner.isMatcher = false) :
    Suits (some parent) shape inner := by
  refine ⟨kindBelow?_mem asked plain, ?_⟩
  rw [Option.some.injEq]
  constructor
  · rintro rfl
    rcases splatTarget_asked asked with ⟨list, splat⟩
    exact ⟨splat, (targetList_iff suits.1).mp list⟩
  · rintro ⟨rfl, list⟩
    obtain rfl := (targetList_iff suits.1).mpr list
    exact (Option.some.inj asked).symm

theorem Suits.test (suits : Suits higher parent kind)
    (asked : kindBelow? kind slot count shape = some inner) (wraps : inner.isMatcher = true) :
    Suits (some parent) shape (.ofShape shape) := by
  refine ⟨List.mem_cons_self, ?_⟩
  rw [Option.some.injEq]
  constructor
  · exact fun same => absurd same (ofShape_ne_splatTarget shape)
  · rintro ⟨_, list⟩
    -- lists of targets wrap nothing
    have target := propagation_below_targets asked (.inl ((targetList_iff suits.1).mpr list))
    cases inner <;> cases wraps <;> cases target

end Kinds

section Steps

variable {parent kind : Kind} {parentShape shape : Shape} {count index : Nat}
variable {anchor : Nat → Option Anchor} {rest : List Child}

theorem refusal_of_cover {children : List Child}
    (accepted : shape.arity.accepts children.length = true) (allocator : Allocator) (tag : String)
    (location : Option Ast.Span) :
    refusal? (cover kind shape allocator (.mk tag children location)) =
      refusal? (coverChildren kind shape children.length (emptyAnchor kind location children) 0
        (place allocator kind (some shape) location none).2 children) := by
  rw [cover, if_pos accepted, patternFault?_eq_none]
  simp only [place]
  generalize coverChildren _ _ _ _ _ _ children = below
  cases below <;> rfl

theorem refusal_of_atom (allocator : Allocator) (value : Ast.Atom) :
    ∃ after, refusal? (coverChildren parent parentShape count anchor index allocator
        (.atom value :: rest)) =
      refusal? (coverChildren parent parentShape count anchor (index + 1) after rest) := by
  rw [coverChildren]
  split
  · refine ⟨(place allocator .emptyBody none none (anchor index)).2, ?_⟩
    simp only [place]
    generalize coverChildren _ _ _ _ _ _ rest = behind
    cases behind <;> rfl
  · refine ⟨allocator, ?_⟩
    generalize coverChildren _ _ _ _ _ _ rest = behind
    cases behind <;> rfl

theorem refusal_of_node {node : Node} {later : Option BuildError} (allocator : Allocator)
    (shaped : shapeOf node = .ok shape) (asked : kindBelow? parent index count shape = some kind)
    (follows : ∀ after, refusal? (coverChildren parent parentShape count anchor (index + 1) after
      rest) = later) :
    ∃ own before, own = (if kind.isMatcher then .ofShape shape else kind) ∧
      refusal? (coverChildren parent parentShape count anchor index allocator
        (.node node :: rest)) = (refusal? (cover own shape before node)).or later := by
  rw [coverChildren, shaped]
  simp only [classify, asked]
  cases wraps : kind.isMatcher with
  | false =>
      refine ⟨kind, allocator, rfl, ?_⟩
      simp only [Bool.false_eq_true, if_false]
      cases cover kind shape allocator node with
      | error error => rfl
      | ok result =>
          rw [← follows result.2]
          dsimp only
          generalize coverChildren _ _ _ _ _ result.2 rest = behind
          cases behind <;> rfl
  | true =>
      refine ⟨.ofShape shape, (place allocator kind none node.location none).2, rfl, ?_⟩
      simp only [if_true, patternFault?_eq_none]
      cases cover (.ofShape shape) shape (place allocator kind none node.location none).2 node with
      | error error => rfl
      | ok result =>
          rw [← follows result.2]
          dsimp only
          generalize coverChildren _ _ _ _ _ result.2 rest = behind
          cases behind <;> rfl

end Steps

section Walk

variable {above : List Node} {shape : Shape} {kind : Kind}

theorem findSome?_of_fault? {slot : Nat} {node : Node} {error : BuildError}
    (fault : (Position.mk above slot node).fault? = some error) :
    (positionsFrom above slot node).findSome? Position.fault? = some error := by
  cases node
  rw [positionsFrom, List.findSome?_cons, fault]

theorem fault?_of_taken {position : Position} (known : position.shape? = some shape)
    (taken : position.takes shape = true) :
    position.fault? =
      if shape.arity.accepts position.node.children.length then none
      else some (.arity shape position.node.children.length) := by
  rw [Position.fault?, known]
  simp only
  rw [if_pos taken]

theorem takes_below {parent : Node} (known : Shape.ofTag? parent.tag = some shape)
    (suits : Suits (nearestShape? above) shape kind) (slot : Nat) (node : Node) (inner : Shape) :
    (Position.mk (parent :: above) slot node).takes inner =
      (kindBelow? kind slot parent.children.length inner).isSome := by
  rw [kindBelow?_isSome suits, Position.takes, Position.reserved?]
  simp only [known, Option.bind_some]

mutual

/-- Covering a node that its place takes fails for the first fault in it. -/
theorem refusal_cover (above : List Node) (slot : Nat) (kind : Kind) (shape : Shape)
    (allocator : Allocator) : (node : Node) → Shape.ofTag? node.tag = some shape →
    Suits (nearestShape? above) shape kind → (Position.mk above slot node).takes shape = true →
      refusal? (cover kind shape allocator node) =
        (positionsFrom above slot node).findSome? Position.fault?
  | .mk tag children location => by
      intro known suits taken
      have own : (Position.mk above slot (.mk tag children location)).fault? =
          if shape.arity.accepts children.length then none
          else some (.arity shape children.length) := fault?_of_taken known taken
      rw [positionsFrom, List.findSome?_cons, own]
      by_cases accepted : shape.arity.accepts children.length = true
      · rw [if_pos accepted, refusal_of_cover accepted]
        exact refusal_children (.mk tag children location) above kind shape _ known suits 0 _ children
      · rw [if_neg accepted, cover, if_neg accepted]
        rfl

theorem refusal_children (parent : Node) (above : List Node) (kind : Kind) (shape : Shape)
    (anchor : Nat → Option Anchor) (known : Shape.ofTag? parent.tag = some shape)
    (suits : Suits (nearestShape? above) shape kind) (index : Nat) (allocator : Allocator) :
    (children : List Child) →
      refusal? (coverChildren kind shape parent.children.length anchor index allocator children) =
        (positionsOfChildren (parent :: above) index children).findSome? Position.fault?
  | [] => rfl
  | .atom value :: rest => by
      rcases refusal_of_atom allocator value with ⟨after, same⟩
      rw [same, positionsOfChildren]
      exact refusal_children parent above kind shape anchor known suits (index + 1) after rest
  | .node node :: rest => by
      have takes := takes_below known suits index node
      have later (after : Allocator) :=
        refusal_children parent above kind shape anchor known suits (index + 1) after rest
      rw [positionsOfChildren, List.findSome?_append]
      cases tagged : Shape.ofTag? node.tag with
      | none =>
          have fault : (Position.mk (parent :: above) index node).fault? =
              some (.unknownShape node.tag) := by
            simp only [Position.fault?, Position.shape?, tagged]
          rw [findSome?_of_fault? fault, coverChildren, shapeOf, tagged]
          rfl
      | some inner =>
          have shaped : shapeOf node = .ok inner := by rw [shapeOf, tagged]
          cases asked : kindBelow? kind index parent.children.length inner with
          | none =>
              have fault : (Position.mk (parent :: above) index node).fault? =
                  some (.unexpectedChild (some shape) index inner) := by
                simp only [Position.fault?, Position.shape?, tagged, takes, asked]
                simp [Position.parentShape?, nearestShape?, known]
              rw [findSome?_of_fault? fault, coverChildren, shaped]
              simp only [classify, asked]
              rfl
          | some asks =>
              have taken : (Position.mk (parent :: above) index node).takes inner = true := by
                rw [takes, asked]
                rfl
              rcases refusal_of_node allocator shaped asked later with ⟨own, before, which, same⟩
              have fits : Suits (nearestShape? (parent :: above)) inner own := by
                have nearest : nearestShape? (parent :: above) = some shape := known
                rw [nearest, which]
                cases wraps : asks.isMatcher with
                | false => exact suits.below asked wraps
                | true => exact suits.test asked wraps
              rw [same, refusal_cover (parent :: above) index own inner before node tagged fits taken]

end

theorem refusal_unknown {program : Node} (unknown : Shape.ofTag? program.tag = none) :
    (positions program).findSome? Position.fault? = some (.unknownShape program.tag) := by
  apply findSome?_of_fault?
  simp only [Position.fault?, Position.shape?, unknown]

theorem refusal_top {program : Node} (known : Shape.ofTag? program.tag = some shape)
    (allocator : Allocator) :
    refusal? (cover (.ofShape shape) shape allocator program) =
      (positions program).findSome? Position.fault? := by
  have suits : Suits (nearestShape? []) shape (.ofShape shape) := by
    refine ⟨List.mem_cons_self, ?_⟩
    simp [ofShape_ne_splatTarget, nearestShape?]
  exact refusal_cover [] 0 (.ofShape shape) shape allocator program known suits rfl

theorem refusal_ofProgram (global : String) (fileIndex : Nat) (program : Node) :
    refusal? (CoverTree.ofProgram global fileIndex program) =
      (positions program).findSome? Position.fault? := by
  rw [CoverTree.ofProgram, shapeOf]
  cases tagged : Shape.ofTag? program.tag with
  | none => exact (refusal_unknown tagged).symm
  | some shape =>
      rw [← refusal_top tagged (place (.fresh global fileIndex) .root none none none).2]
      simp only [classify, kindBelow?]
      cases cover (.ofShape shape) shape (place (.fresh global fileIndex) .root none none none).2
        program <;> rfl

theorem refusal_ofFragment (global : String) (fileIndex : Nat) (fragment : Node) :
    refusal? (CoverTree.ofFragment global fileIndex fragment) =
      (positions fragment).findSome? Position.fault? := by
  rw [CoverTree.ofFragment, shapeOf]
  cases tagged : Shape.ofTag? fragment.tag with
  | none => exact (refusal_unknown tagged).symm
  | some shape =>
      rw [← refusal_top tagged (.fresh global fileIndex)]
      simp only
      cases cover (.ofShape shape) shape (.fresh global fileIndex) fragment <;> rfl

theorem refusal?_eq_some {α : Type} {result : Except BuildError α} {error : BuildError} :
    refusal? result = some error ↔ result = .error error := by
  cases result <;> simp [refusal?]

theorem fault?_ne_template (position : Position) (error : Template.Error) :
    position.fault? ≠ some (.template error) := by
  unfold Position.fault?
  split
  · simp
  · split
    · split <;> simp
    · simp

end Walk

section Clauses

variable {higher : Option Shape} {around : Shape} {slot count : Nat} {shapes : List Shape}

/-- The places that are reserved for clauses are those of their constructs. -/
theorem reserved_for_clause (reserved : reservedFor? higher around slot count = some shapes) :
    (.resbody ∈ shapes → around = .rescue) ∧ (.whenOf ∈ shapes → around = .caseOf) ∧
      (.mlhs ∈ shapes → (around = .masgn ∧ slot = 0) ∨ around = .mlhs) := by
  cases around
  case caseOf | rescue | block | classDef | moduleDef | masgn | opAsgn | orAsgn | andAsgn | splat =>
    simp only [reservedFor?, Option.ite_none_right_eq_some, Option.some.injEq] at reserved
    rcases reserved with ⟨here, rfl⟩
    simp [targetShapes, here]
  case mlhs =>
    obtain rfl := Option.some.inj reserved
    simp [targetShapes]
  all_goals cases reserved

theorem fault_of_foreign {position : Position} {shape : Shape}
    (known : position.shape? = some shape) (reserved : position.reserved? = some shapes)
    (foreign : shape ∉ shapes) :
    position.fault? = some (.unexpectedChild position.parentShape? position.slot shape) := by
  simp [Position.fault?, known, Position.takes, reserved, foreign]

theorem fault_of_misplaced {position : Position} (misplaced : position.misplaced = true)
    (reserved : position.reserved? = some shapes) :
    ∃ shape, position.fault? = some (.unexpectedChild position.parentShape? position.slot shape) := by
  rcases position with ⟨_ | ⟨parent, above⟩, slot, node⟩
  · cases reserved
  rcases Option.bind_eq_some_iff.mp reserved with ⟨around, known, places⟩
  rcases reserved_for_clause places with ⟨handler, clause, list⟩
  have nearest : (Position.mk (parent :: above) slot node).parentShape? = some around := known
  unfold Position.misplaced at misplaced
  split at misplaced
  · rename_i shape
    refine ⟨.resbody, fault_of_foreign shape reserved fun member => ?_⟩
    simp [nearest, handler member] at misplaced
  · rename_i shape
    refine ⟨.whenOf, fault_of_foreign shape reserved fun member => ?_⟩
    simp [nearest, clause member] at misplaced
  · rename_i shape
    refine ⟨.mlhs, fault_of_foreign shape reserved fun member => ?_⟩
    rcases list member with ⟨same, rfl⟩ | same
    · simp [nearest, same] at misplaced
    · simp [nearest, same] at misplaced
  · cases misplaced

theorem fault_of_unreserved {position : Position} {error : BuildError}
    (misplaced : position.misplaced = true) (unreserved : position.reserved? = none)
    (fault : position.fault? = some error) :
    ∃ shape, error = .arity shape position.node.children.length := by
  cases known : position.shape? with
  | none => simp [Position.misplaced, known] at misplaced
  | some shape =>
      have taken : position.takes shape = true := by rw [Position.takes, unreserved]; rfl
      rw [fault?_of_taken known taken] at fault
      split at fault
      · cases fault
      · exact ⟨shape, (Option.some.inj fault).symm⟩

end Clauses

/-- A clause outside its construct is refused where its place is reserved for other shapes. Elsewhere
its place is no fault, and a syntax tree without faults is covered. -/
theorem misplaced_refused_where_reserved (global : String) (fileIndex : Nat) (program : Node) :
    (∀ error, CoverTree.build global fileIndex (some program) = .error error ↔
      (positions program).findSome? Position.fault? = some error) ∧
    ∀ position ∈ positions program, position.misplaced = true →
      (∀ shapes, position.reserved? = some shapes →
        ∃ error, CoverTree.build global fileIndex (some program) = .error error) ∧
      (position.reserved? = none → ∀ error, position.fault? = some error →
        ∃ shape, error = .arity shape position.node.children.length) := by
  have refused (error : BuildError) :
      CoverTree.build global fileIndex (some program) = .error error ↔
        (positions program).findSome? Position.fault? = some error := by
    rw [← refusal_ofProgram global fileIndex program, refusal?_eq_some]
    rfl
  refine ⟨refused, fun position member misplaced => ⟨?_, ?_⟩⟩
  · intro shapes reserved
    rcases fault_of_misplaced misplaced reserved with ⟨shape, fault⟩
    have found : ((positions program).findSome? Position.fault?).isSome = true := by
      rw [List.isSome_findSome?, List.any_eq_true]
      exact ⟨position, member, by rw [fault]; rfl⟩
    rcases Option.isSome_iff_exists.mp found with ⟨error, first⟩
    exact ⟨error, (refused error).mpr first⟩
  · exact fun unreserved error fault => fault_of_unreserved misplaced unreserved fault

/-- `case x` with an exception handler in place of a clause. -/
def handlerInCase : Node :=
  .mk "case"
    [.node (.mk "lvar" [.atom (.text "x")] none),
     .node (.mk "resbody" [.atom .nil, .atom .nil, .atom .nil] none), .atom .nil] none

theorem misplaced_refused_where_reserved_case :
    CoverTree.build Probe.defaultGlobal 0 (some handlerInCase) =
        .error (.unexpectedChild (some .caseOf) 1 .resbody) ∧
      ∃ position ∈ positions handlerInCase, position.misplaced = true ∧
        position.reserved? = some [.whenOf] :=
  ⟨((misplaced_refused_where_reserved _ _ handlerInCase).1 _).mpr rfl,
    _, List.mem_cons_of_mem _ (List.mem_cons_of_mem _ List.mem_cons_self), rfl, rfl⟩

def handlerAmongStatements : Node :=
  .mk "begin"
    [.node (.mk "resbody"
      [.atom .nil, .atom .nil, .node (.mk "send" [.atom .nil, .atom (.text "b")] none)] none)] none

theorem stray_handler_covered :
    (∃ tree, CoverTree.build Probe.defaultGlobal 0 (some handlerAmongStatements) = .ok tree) ∧
      ∃ position ∈ positions handlerAmongStatements,
        position.misplaced = true ∧ position.shape? = some .resbody ∧
          position.parentShape? = some .begin :=
  ⟨⟨_, rfl⟩, _, List.mem_cons_of_mem _ List.mem_cons_self, rfl, rfl, rfl⟩

end ProbeCoverage.Cover
