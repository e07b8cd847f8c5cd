import ProbeCoverage.Proofs.Cover.Growth

/-!
Where nodes of a kind can stand. The kind of a node fixes how many slots it has, and some kinds only
stand below certain others. Covering accepts a few trees that no parser writes: a list of targets or
a clause outside the construct it belongs to, or a slot without the node that its construct needs.
`targetsPlaced`, `clausesPlaced` and `slotsFilled` tell these trees apart from the rest.
-/

namespace ProbeCoverage.Cover

open Ast (Arity Shape)

def Kind.arity : Kind → Arity
  | .root | .matcher | .splatMatcher => .exactly 1
  | .emptyBody => .exactly 0
  | .literal | .returnJump | .parameter | .splatTarget => .between 0 1
  | .name | .constant | .shortCircuit | .optionalParameter => .exactly 2
  | .multipleAssignment | .booleanAssignment => .exactly 2
  | .sequence | .keywordBegin | .container | .call | .blockCall => .atLeast 0
  | .parameters | .targetList => .atLeast 0
  | .block | .conditional | .handler | .method | .operatorAssignment => .exactly 3
  | .caseDispatch | .whenClause | .guarded | .setterTarget | .callAccess => .atLeast 2
  | .classBody | .constantAssignment => .between 2 3
  | .variableAssignment | .variableAccess => .between 1 2
  | .variableTarget => .between 1 3

def within (inner outer : Arity) : Bool :=
  outer.min ≤ inner.min && outer.max.all fun limit => inner.max.any (· ≤ limit)

theorem accepts_of_within {inner outer : Arity} {count : Nat} (narrower : within inner outer = true)
    (accepted : inner.accepts count = true) : outer.accepts count = true := by
  simp only [within, Arity.accepts, Bool.and_eq_true, decide_eq_true_eq] at *
  obtain ⟨minLe, maxLe⟩ := narrower
  refine ⟨Nat.le_trans minLe accepted.1, ?_⟩
  cases upper : outer.max with
  | none => rfl
  | some limit =>
      cases inside : inner.max with
      | none => simp [upper, inside] at maxLe
      | some bound =>
          simp only [upper, inside, Option.all_some, Option.any_some, decide_eq_true_eq] at *
          omega

theorem arity_of_kindsOf (shape : Shape) :
    ∀ kind ∈ kindsOf shape, within shape.arity kind.arity = true := by
  cases shape <;> decide

theorem Formed.arity {info : Info} {count : Nat} (formed : Formed info count) :
    info.kind.arity.accepts count = true := by
  unfold Formed at formed
  split at formed
  · exact accepts_of_within (arity_of_kindsOf _ _ formed.1) formed.2
  · rcases formed with ⟨same, rfl⟩ | ⟨wraps, rfl⟩ | ⟨same, rfl⟩
    · rw [same]
      rfl
    · cases kind : info.kind <;> simp [kind, Kind.isMatcher] at wraps <;> rfl
    · rw [same]
      rfl

/-- A child has the kind of its shape unless its parent is one of those that ask for another. -/
theorem kindBelow?_cases {parent kind : Kind} {slot count : Nat} {shape : Shape}
    (asked : kindBelow? parent slot count shape = some kind) :
    kind = .ofShape shape ∨
    (parent = .whenClause ∧ slot < count - 1 ∧ kind.isMatcher = true) ∨
    (parent = .block ∧ slot = 0 ∧ kind = .blockCall) ∨
    (parent = .classBody ∧ slot = 0 ∧ kind = .name) ∨
    ((parent = .targetList ∨ parent = .splatTarget) ∧
      kind ∈ [.splatTarget, .setterTarget, .variableTarget]) ∨
    ((parent = .operatorAssignment ∨ parent = .booleanAssignment) ∧ slot = 0 ∧
      kind ∈ [.variableAccess, .callAccess]) := by
  cases parent with
  | whenClause =>
      simp only [kindBelow?] at asked
      split at asked
      · rename_i test
        simp only [Option.some.injEq] at asked
        subst asked
        refine .inr (.inl ⟨rfl, test, ?_⟩)
        split <;> rfl
      · simp_all
  | caseDispatch | guarded | multipleAssignment =>
      simp only [kindBelow?] at asked
      split at asked
      · split at asked
        · simp_all [Kind.ofShape]
        · cases asked
      · simp_all
  | classBody | block =>
      simp only [kindBelow?] at asked
      split at asked
      · split at asked <;> simp_all
      · simp_all
  | operatorAssignment | booleanAssignment =>
      simp only [kindBelow?] at asked
      split at asked
      · cases shape <;> simp_all [Shape.isVariableAssignment, Kind.ofShape]
      · simp_all
  | targetList | splatTarget =>
      cases shape <;> simp_all [kindBelow?, targetKind?, Shape.isVariableAssignment, Kind.ofShape]
  | _ => exact .inl (by simpa [kindBelow?] using asked.symm)

theorem propagation_below_targets {parent kind : Kind} {slot count : Nat} {shape : Shape}
    (asked : kindBelow? parent slot count shape = some kind)
    (targets : parent = .targetList ∨ parent = .splatTarget) : kind.propagation = .alternate := by
  rcases targets with rfl | rfl <;> cases shape <;>
    simp [kindBelow?, targetKind?, Shape.isVariableAssignment] at asked <;> subst asked <;> rfl

section Kids

variable {node kid : Covered} {slot : Nat}

theorem Regular.kid_kind (regular : Regular node) (held : node.kid? slot = some kid) :
    (∃ shape, kindBelow? node.kind slot node.branches.length shape = some kid.kind) ∨
      (kid.kind = .emptyBody ∧ node.kind.mayBeEmpty slot node.branches.length = true) := by
  cases regular.fits slot _ (Covered.kid?_eq_some.mp held) with
  | plain shape _ asked _ => exact .inl ⟨shape, asked⟩
  | wrapper shape _ _ asked _ => exact .inl ⟨shape, asked⟩
  | empty _ body allowed => exact .inr ⟨body, allowed⟩

theorem Regular.parent_of_target (regular : Regular node) (held : node.kid? slot = some kid)
    (target : kid.kind ∈ [Kind.splatTarget, .setterTarget, .variableTarget]) :
    node.kind = .targetList ∨ node.kind = .splatTarget := by
  rcases regular.kid_kind held with ⟨shape, asked⟩ | ⟨body, _⟩
  · rcases kindBelow?_cases asked with same | ⟨_, _, wraps⟩ | ⟨_, _, same⟩ | ⟨_, _, same⟩ |
      ⟨parent, _⟩ | ⟨_, _, access⟩
    · rw [same] at target
      cases shape <;> simp [Kind.ofShape] at target
    · cases kind : kid.kind <;> simp [kind, Kind.isMatcher] at wraps target
    · simp [same] at target
    · simp [same] at target
    · exact parent
    · cases kind : kid.kind <;> simp [kind] at access target
  · simp [body] at target

theorem Regular.parent_of_blockCall (regular : Regular node) (held : node.kid? slot = some kid)
    (call : kid.kind = .blockCall) : node.kind = .block := by
  rcases regular.kid_kind held with ⟨shape, asked⟩ | ⟨body, _⟩
  · rw [call] at asked
    rcases kindBelow?_cases asked with same | ⟨_, _, wraps⟩ | ⟨parent, _, _⟩ | ⟨_, _, same⟩ |
      ⟨_, target⟩ | ⟨_, _, access⟩
    · cases shape <;> cases same
    · cases wraps
    · exact parent
    · cases same
    · simp at target
    · simp at access
  · simp [body] at call

theorem Regular.kid_ne_root (regular : Regular node) (held : node.kid? slot = some kid) :
    kid.kind ≠ .root := by
  intro wrapper
  rcases regular.kid_kind held with ⟨shape, asked⟩ | ⟨body, _⟩
  · rw [wrapper] at asked
    rcases kindBelow?_cases asked with same | ⟨_, _, wraps⟩ | ⟨_, _, same⟩ | ⟨_, _, same⟩ |
      ⟨_, target⟩ | ⟨_, _, access⟩
    · cases shape <;> cases same
    · cases wraps
    · cases same
    · cases same
    · simp at target
    · simp at access
  · simp [body] at wrapper

theorem Regular.parent_of_test (regular : Regular node) (held : node.kid? slot = some kid)
    (wraps : kid.kind.isMatcher = true) : node.kind = .whenClause := by
  rcases regular.kid_kind held with ⟨shape, asked⟩ | ⟨body, _⟩
  · rcases kindBelow?_cases asked with same | ⟨parent, _, _⟩ | ⟨_, _, same⟩ | ⟨_, _, same⟩ |
      ⟨_, target⟩ | ⟨_, _, access⟩
    · rw [same, isMatcher_ofShape] at wraps
      cases wraps
    · exact parent
    · simp [same, Kind.isMatcher] at wraps
    · simp [same, Kind.isMatcher] at wraps
    · cases kind : kid.kind <;> simp [kind, Kind.isMatcher] at target wraps
    · cases kind : kid.kind <;> simp [kind, Kind.isMatcher] at access wraps
  · simp [body, Kind.isMatcher] at wraps

theorem Regular.propagation_of_parent (regular : Regular node) (held : node.kid? slot = some kid)
    (targets : node.kind = .targetList ∨ node.kind = .splatTarget) :
    kid.kind.propagation = .alternate := by
  rcases regular.kid_kind held with ⟨shape, asked⟩ | ⟨_, allowed⟩
  · exact propagation_below_targets asked targets
  · rcases targets with same | same <;> simp [same, Kind.mayBeEmpty] at allowed

theorem Regular.left_kid (regular : Regular node) (assigns : node.kind = .multipleAssignment)
    (held : node.kid? 0 = some kid) : kid.kind = .targetList := by
  rcases regular.kid_kind held with ⟨shape, asked⟩ | ⟨_, allowed⟩
  · simp only [assigns, kindBelow?, if_true] at asked
    split at asked <;> simp_all
  · simp [assigns, Kind.mayBeEmpty] at allowed

end Kids

section Shapes

variable {node : Covered} {shape : Shape}

theorem Regular.arity (regular : Regular node) :
    node.kind.arity.accepts node.branches.length = true :=
  regular.formed.arity

theorem Regular.length_eq (regular : Regular node) {count : Nat}
    (exact : node.kind.arity = .exactly count) : node.branches.length = count := by
  have arity := regular.arity
  rw [exact] at arity
  obtain ⟨lower, upper⟩ := Bool.and_eq_true_iff.mp arity
  exact Nat.le_antisymm (of_decide_eq_true upper) (of_decide_eq_true lower)

theorem Regular.kind_mem (regular : Regular node) (has : node.info.shape = some shape) :
    node.kind ∈ kindsOf shape := by
  have formed := regular.formed
  rw [Formed, has] at formed
  exact formed.1

theorem Regular.shape_eq (regular : Regular node)
    (only : ∀ other, node.kind ∈ kindsOf other → other = shape)
    (shaped : node.kind ∉ [Kind.root, .matcher, .splatMatcher, .emptyBody]) :
    node.info.shape = some shape := by
  have formed := regular.formed
  unfold Formed at formed
  split at formed
  · rename_i other has
    rw [has, only other formed.1]
  · rcases formed with ⟨same, _⟩ | ⟨wraps, _⟩ | ⟨same, _⟩
    · simp [Covered.kind, same] at shaped
    · cases kind : node.info.kind <;> simp [Covered.kind, kind, Kind.isMatcher] at wraps shaped
    · simp [Covered.kind, same] at shaped

end Shapes

namespace CoverTree

def parentCell? (tree : CoverTree) (cell : Cell) : Option Cell :=
  cell.parent.bind tree.cell?

/-- Whether each list of targets is the left side of a multiple assignment or stands in a list of
targets. -/
def targetsPlaced (tree : CoverTree) : Bool :=
  tree.cells.toList.all fun cell =>
    cell.shape != some .mlhs ||
      (tree.parentCell? cell).any fun parent =>
        (parent.shape == some .masgn && cell.index == 0) || parent.shape == some .mlhs

def standsBetween (tree : CoverTree) (shape around : Shape) : Bool :=
  tree.cells.toList.all fun cell =>
    cell.shape != some shape ||
      (tree.parentCell? cell).any fun parent =>
        parent.shape == some around && decide (0 < cell.index) &&
          decide (cell.index + 1 < parent.children.length)

/-- Whether clauses stand in dispatches and handlers in guarded bodies, each between the first and
the last slot. -/
def clausesPlaced (tree : CoverTree) : Bool :=
  tree.standsBetween .whenOf .caseOf && tree.standsBetween .resbody .rescue

/-- The slots of a construct that its rules need filled: conditions, operands, branches, tests,
bodies and `else` bodies. -/
def neededSlots (kind : Kind) (count : Nat) : List Nat :=
  match kind with
  | .conditional => [0, 1, 2]
  | .shortCircuit => [0, 1]
  | .caseDispatch => [count - 1]
  | .whenClause => List.range count
  | .guarded => [0, count - 1]
  | .handler => [2]
  | _ => []

/-- Whether all these slots hold nodes. A missing body counts as one: it was covered as an empty
body. -/
def slotsFilled (tree : CoverTree) : Bool :=
  tree.cells.toList.all fun cell =>
    (neededSlots cell.kind cell.children.length).all fun slot => (cell.child? slot).isSome

end CoverTree

section Placed

variable {tree : CoverTree} {node kid : Covered} {above : Option Covered} {slot : Nat}

theorem Occurs.cell_mem_cells (occurs : Occurs tree.root above slot node) :
    node.cell (above.map Covered.number) slot ∈ tree.cells.toList := by
  rw [tree.cells_eq]
  exact occurs.cell_mem

theorem Grown.parentCell?_of_occurs (grown : Grown tree)
    (occurs : Occurs tree.root above slot node) :
    (above = none ∧ tree.parentCell? (node.cell (above.map Covered.number) slot) = none) ∨
      ∃ parent higher place, above = some parent ∧ Occurs tree.root higher place parent ∧
        tree.parentCell? (node.cell (above.map Covered.number) slot) =
          some (parent.cell (higher.map Covered.number) place) := by
  cases above with
  | none => exact .inl ⟨rfl, rfl⟩
  | some parent =>
      obtain ⟨⟨higher, place, occursAbove⟩, _⟩ := occurs.parent
      exact .inr ⟨parent, higher, place, rfl, occursAbove,
        grown.numbered.cell?_of_occurs occursAbove⟩

theorem Grown.root_of_kind (grown : Grown tree) (occurs : Occurs tree.root above slot node)
    (wrapper : node.kind = .root) : node = tree.root := by
  cases occurs with
  | top => rfl
  | child slot parent held => exact absurd wrapper ((grown.regular _ _ _ parent).kid_ne_root held)

theorem targetList_placed (grown : Grown tree) (placed : tree.targetsPlaced = true)
    (occurs : Occurs tree.root above slot node) (targets : node.kind = .targetList) :
    ∃ parent, above = some parent ∧
      ((parent.kind = .multipleAssignment ∧ slot = 0) ∨ parent.kind = .targetList) := by
  have shaped : node.info.shape = some .mlhs := by
    apply (grown.regular _ _ _ occurs).shape_eq
    · intro other suits
      rw [targets] at suits
      cases other <;> simp [kindsOf, Kind.ofShape] at suits ⊢
    · rw [targets]
      decide
  have checked := List.all_eq_true.mp placed _ occurs.cell_mem_cells
  rcases grown.parentCell?_of_occurs occurs with
    ⟨_, top⟩ | ⟨parent, higher, place, rfl, occursAbove, found⟩
  · simp [shaped, top] at checked
  · refine ⟨parent, rfl, ?_⟩
    have regular := grown.regular _ _ _ occursAbove
    simp only [Covered.cell_shape, shaped, found, bne_self_eq_false, Option.any_some,
      Bool.false_or, Bool.or_eq_true, Bool.and_eq_true, beq_iff_eq, Covered.cell_index] at checked
    rcases checked with ⟨assignment, first⟩ | list
    · exact .inl ⟨by simpa [kindsOf, Kind.ofShape] using regular.kind_mem assignment, first⟩
    · exact .inr (by simpa [kindsOf, Kind.ofShape] using regular.kind_mem list)

theorem parent_of_alternate (grown : Grown tree) (placed : tree.targetsPlaced = true)
    (occurs : Occurs tree.root above slot node) (alternate : node.kind.propagation = .alternate) :
    ∃ parent, above = some parent ∧
      ((parent.kind = .multipleAssignment ∧ slot = 0) ∨ parent.kind = .targetList ∨
        parent.kind = .splatTarget) := by
  by_cases list : node.kind = .targetList
  · obtain ⟨parent, stands, left | inner⟩ := targetList_placed grown placed occurs list
    · exact ⟨parent, stands, .inl left⟩
    · exact ⟨parent, stands, .inr (.inl inner)⟩
  · have target : node.kind ∈ [Kind.splatTarget, .setterTarget, .variableTarget] := by
      cases kind : node.kind <;> simp [kind, Kind.propagation] at alternate list ⊢
    cases occurs with
    | top =>
        rcases grown.top with wrapper | ⟨shape, same⟩
        · simp [wrapper] at target
        · rw [same] at target
          cases shape <;> simp [Kind.ofShape] at target
    | child slot parent held =>
        have stands := (grown.regular _ _ _ parent).parent_of_target held target
        exact ⟨_, rfl, .inr stands⟩

theorem forward_kid (grown : Grown tree) (placed : tree.targetsPlaced = true)
    (occurs : Occurs tree.root (some node) slot kid)
    (ordinary : node.kind ∉ [Kind.multipleAssignment, .targetList, .splatTarget]) :
    kid.kind.propagation = .forward := by
  cases way : kid.kind.propagation with
  | forward => rfl
  | alternate =>
      obtain ⟨parent, same, stands⟩ := parent_of_alternate grown placed occurs way
      obtain rfl : node = parent := by simpa using same
      rcases stands with ⟨kind, _⟩ | kind | kind <;> simp [kind] at ordinary

theorem plain_kid (grown : Grown tree) (occurs : Occurs tree.root (some node) slot kid)
    (ordinary : node.kind ≠ .whenClause) : kid.kind.isMatcher = false := by
  obtain ⟨⟨_, _, parentOccurs⟩, held⟩ := occurs.parent
  cases wraps : kid.kind.isMatcher with
  | false => rfl
  | true => exact absurd ((grown.regular _ _ _ parentOccurs).parent_of_test held wraps) ordinary

theorem slot_filled (filled : tree.slotsFilled = true) (occurs : Occurs tree.root above slot node)
    (needed : Nat) (member : needed ∈ CoverTree.neededSlots node.kind node.branches.length) :
    ∃ kid, node.kid? needed = some kid := by
  have checked := List.all_eq_true.mp filled _ occurs.cell_mem_cells
  have held := List.all_eq_true.mp checked needed (by simpa using member)
  simpa [Option.isSome_iff_exists] using held

theorem stands_between (grown : Grown tree) {shape around : Shape}
    (placed : tree.standsBetween shape around = true) (occurs : Occurs tree.root above slot node)
    (shaped : node.info.shape = some shape) :
    ∃ parent, above = some parent ∧ parent.info.shape = some around ∧ 0 < slot ∧
      slot + 1 < parent.branches.length := by
  have checked := List.all_eq_true.mp placed _ occurs.cell_mem_cells
  rcases grown.parentCell?_of_occurs occurs with ⟨_, top⟩ | ⟨parent, higher, place, rfl, _, found⟩
  · simp [shaped, top] at checked
  · simp only [Covered.cell_shape, shaped, found, bne_self_eq_false, Option.any_some,
      Bool.false_or, Bool.and_eq_true, beq_iff_eq, Covered.cell_index, Covered.cell_children,
      List.length_map] at checked
    exact ⟨parent, rfl, checked.1.1, of_decide_eq_true checked.1.2, of_decide_eq_true checked.2⟩

theorem shape_of_clause (grown : Grown tree) (occurs : Occurs tree.root above slot node)
    (clause : node.kind = .whenClause) : node.info.shape = some .whenOf := by
  apply (grown.regular _ _ _ occurs).shape_eq
  · intro other suits
    rw [clause] at suits
    cases other <;> simp [kindsOf, Kind.ofShape] at suits ⊢
  · simp [clause]

theorem parent_of_clause (grown : Grown tree) (placed : tree.clausesPlaced = true)
    (occurs : Occurs tree.root above slot node) (clause : node.kind = .whenClause) :
    ∃ parent, above = some parent ∧ parent.kind = .caseDispatch := by
  obtain ⟨whens, _⟩ := Bool.and_eq_true_iff.mp placed
  obtain ⟨parent, rfl, shaped, _⟩ :=
    stands_between grown whens occurs (shape_of_clause grown occurs clause)
  obtain ⟨⟨_, _, parentOccurs⟩, _⟩ := occurs.parent
  refine ⟨parent, rfl, ?_⟩
  simpa [kindsOf, Kind.ofShape] using (grown.regular _ _ _ parentOccurs).kind_mem shaped

/-- A clause or a handler stands neither in the first nor in the last slot. -/
theorem clause_placed (grown : Grown tree) (placed : tree.clausesPlaced = true)
    (occurs : Occurs tree.root (some node) slot kid)
    (clause : kid.kind = .whenClause ∨ kid.kind = .handler) :
    0 < slot ∧ slot + 1 < node.branches.length := by
  have regular := grown.regular _ _ _ occurs
  obtain ⟨whens, handlers⟩ := Bool.and_eq_true_iff.mp placed
  have bounds {shape around : Shape} (between : tree.standsBetween shape around = true)
      (shaped : kid.info.shape = some shape) : 0 < slot ∧ slot + 1 < node.branches.length := by
    obtain ⟨parent, same, _, stands⟩ := stands_between grown between occurs shaped
    obtain rfl : node = parent := by simpa using same
    exact stands
  rcases clause with kind | kind
  · exact bounds whens (shape_of_clause grown occurs kind)
  · apply bounds handlers
    apply regular.shape_eq
    · intro other suits
      rw [kind] at suits
      cases other <;> simp [kindsOf, Kind.ofShape] at suits ⊢
    · simp [kind]

theorem Regular.middle_kid (regular : Regular node) (held : node.kid? slot = some kid)
    (later : 0 < slot) (notLast : slot + 1 < node.branches.length) :
    (node.kind = .caseDispatch → kid.kind = .whenClause) ∧
      (node.kind = .guarded → kid.kind = .handler) := by
  have between : slot < node.branches.length - 1 := by omega
  rcases regular.kid_kind held with ⟨shape, asked⟩ | ⟨_, allowed⟩
  · constructor <;> intro kind <;>
      simp only [kind, kindBelow?, later, between, decide_true, Bool.and_self, if_true] at asked <;>
      split at asked <;> simp_all
  · constructor <;> intro kind <;> simp [kind, Kind.mayBeEmpty] at allowed <;> omega

theorem Regular.test_kid (regular : Regular node) (held : node.kid? slot = some kid)
    (kind : node.kind = .whenClause) :
    kid.kind.isMatcher = decide (slot < node.branches.length - 1) := by
  rcases regular.kid_kind held with ⟨shape, asked⟩ | ⟨body, allowed⟩
  · simp only [kind, kindBelow?] at asked
    split at asked
    · rename_i test
      rw [← Option.some.inj asked, decide_eq_true test]
      split <;> rfl
    · rename_i last
      rw [← Option.some.inj asked, isMatcher_ofShape, decide_eq_false last]
  · simp only [kind, Kind.mayBeEmpty, Bool.and_eq_true, beq_iff_eq] at allowed
    rw [body, decide_eq_false (by omega)]
    rfl

end Placed

end ProbeCoverage.Cover
