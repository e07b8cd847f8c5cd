import ProbeCoverage.Proofs.Cover.Placement

/-!
What the constructs of an orderly tree hold. A `when` holds tests and a body behind them. A dispatch
holds clauses between its subject and its last body, and a guarded body holds handlers in the same
way.
-/

namespace ProbeCoverage.Cover

/-- A tree without holes: needed slots are filled, and targets and clauses stand where they
belong. -/
structure Orderly (tree : CoverTree) : Prop where
  grown : Grown tree
  filled : tree.slotsFilled = true
  targets : tree.targetsPlaced = true
  clauses : tree.clausesPlaced = true

namespace Covered

def slotOf (node : Covered) (tracker : Tracker) : Nat :=
  node.info.firstSlot + (node.kind.trackerIndex? tracker).getD 0

def tests (node : Covered) : List Covered :=
  node.kids.filter fun kid => kid.kind.isMatcher

def kidsOfKind (node : Covered) (kind : Kind) : List Covered :=
  node.kids.filter fun kid => kid.kind = kind

abbrev clauses (node : Covered) : List Covered := node.kidsOfKind .whenClause

abbrev handlers (node : Covered) : List Covered := node.kidsOfKind .handler

def last? (node : Covered) : Option Covered :=
  node.kid? (node.branches.length - 1)

end Covered

theorem tracker_of_isMatcher {kind : Kind} (wraps : kind.isMatcher = true) :
    kind.trackers = [.matched, .missed] := by
  cases kind <;> simp [Kind.isMatcher] at wraps <;> rfl

section Constructs

variable {tree : CoverTree} {node kid : Covered} {above : Option Covered} {slot : Nat}

theorem trackedBranch_cases {kind : Kind} {branches : List Branch} {tracked : Nat}
    (found : trackedBranch kind branches = some tracked) : tracked = 1 ∨ tracked = 2 := by
  unfold trackedBranch at found
  split at found
  · simpa using List.mem_of_find?_eq_some found
  · cases found

theorem occurs_of_test (occurs : Occurs tree.root above slot node) {test : Covered}
    (member : test ∈ node.tests) :
    test.kind.isMatcher = true ∧ ∃ place, Occurs tree.root (some node) place test := by
  obtain ⟨inside, wraps⟩ := List.mem_filter.mp member
  obtain ⟨place, held⟩ := Covered.mem_kids.mp inside
  exact ⟨wraps, place, .child place occurs held⟩

theorem occurs_of_kidsOfKind (occurs : Occurs tree.root above slot node) {kind : Kind}
    (member : kid ∈ node.kidsOfKind kind) :
    kid.kind = kind ∧ ∃ place, Occurs tree.root (some node) place kid := by
  obtain ⟨inside, same⟩ := List.mem_filter.mp member
  obtain ⟨place, held⟩ := Covered.mem_kids.mp inside
  exact ⟨by simpa using same, place, .child place occurs held⟩

theorem when_kids (grown : Grown tree) (occurs : Occurs tree.root above slot node)
    (kind : node.kind = .whenClause) :
    node.kids = node.tests ++ node.last?.toList ∧
      node.tests = node.kidsBefore (node.branches.length - 1) := by
  have regular := grown.regular _ _ _ occurs
  have several : node.branches ≠ [] := by
    intro none
    have arity := regular.arity
    simp [kind, none, Kind.arity, Ast.Arity.accepts, Ast.Arity.atLeast] at arity
  have split := Covered.kids_last several
  have tests : node.tests = node.kidsBefore (node.branches.length - 1) := by
    have noTest : node.last?.toList.filter (fun kid => kid.kind.isMatcher) = [] := by
      cases held : node.last? with
      | none => rfl
      | some body => simp [regular.test_kid held kind]
    rw [Covered.tests, split, List.filter_append, ← Covered.last?, noTest, List.append_nil,
      List.filter_eq_self]
    intro kid member
    obtain ⟨place, earlier, stands⟩ := Covered.slot_of_mem_kidsBefore member
    simpa [regular.test_kid stands kind] using earlier
  exact ⟨by rw [tests, split, Covered.last?], tests⟩

theorem clause_kids (orderly : Orderly tree) (occurs : Occurs tree.root above slot node)
    (kind : node.kind = .whenClause) :
    ∃ body, node.last? = some body ∧ node.kids = node.tests ++ [body] ∧ node.tests ≠ [] := by
  have several : 2 ≤ node.branches.length := by
    have arity := (orderly.grown.regular _ _ _ occurs).arity
    simpa [kind, Kind.arity, Ast.Arity.accepts, Ast.Arity.atLeast] using arity
  have filled (place : Nat) (inside : place < node.branches.length) :
      ∃ kid, node.kid? place = some kid :=
    slot_filled orderly.filled occurs place (by simpa [kind, CoverTree.neededSlots] using inside)
  obtain ⟨kids, tests⟩ := when_kids orderly.grown occurs kind
  obtain ⟨body, held⟩ := filled (node.branches.length - 1) (by omega)
  refine ⟨body, held, by rw [kids, Covered.last?, held]; rfl, ?_⟩
  obtain ⟨test, first⟩ := filled 0 (by omega)
  intro none
  have member := Covered.mem_kidsBefore first (show 0 < node.branches.length - 1 by omega)
  rw [← tests, none] at member
  cases member

/-- The children of a dispatch or of a guarded body: what the first slot holds, clauses or handlers,
and a last body. -/
theorem middle_kids (orderly : Orderly tree) (occurs : Occurs tree.root above slot node)
    {inner : Kind} (around : node.kind = .caseDispatch ∧ inner = .whenClause ∨
      node.kind = .guarded ∧ inner = .handler) :
    ∃ last, node.last? = some last ∧ last.kind ≠ inner ∧
      node.kids = (node.kid? 0).toList ++ (node.kidsOfKind inner ++ [last]) ∧
      node.kidsAfter 0 = node.kidsOfKind inner ++ [last] ∧
      ∀ first, node.kid? 0 = some first → first.kind ≠ inner := by
  have grown := orderly.grown
  have regular := grown.regular _ _ _ occurs
  have several : 2 ≤ node.branches.length := by
    have arity := regular.arity
    rcases around with ⟨kind, _⟩ | ⟨kind, _⟩ <;>
      simpa [kind, Kind.arity, Ast.Arity.accepts, Ast.Arity.atLeast] using arity
  obtain ⟨last, held⟩ := slot_filled orderly.filled occurs (node.branches.length - 1)
    (by rcases around with ⟨kind, _⟩ | ⟨kind, _⟩ <;> simp [kind, CoverTree.neededSlots])
  obtain ⟨middle, kids, later, between⟩ := Covered.kids_ends several held
  have outer {place : Nat} {kid : Covered} (stands : node.kid? place = some kid)
      (outside : place = 0 ∨ place = node.branches.length - 1) : kid.kind ≠ inner := by
    intro same
    have bounds := clause_placed grown orderly.clauses (.child place occurs stands)
      (by rcases around with ⟨_, rfl⟩ | ⟨_, rfl⟩ <;> simp [same])
    omega
  have clauses : node.kidsOfKind inner = middle := by
    have first : (node.kid? 0).toList.filter (fun kid => kid.kind = inner) = [] := by
      cases subject : node.kid? 0 with
      | none => rfl
      | some kid => simp [outer subject (.inl rfl)]
    have all : middle.filter (fun kid => kid.kind = inner) = middle := by
      apply List.filter_eq_self.mpr
      intro kid member
      obtain ⟨place, lower, upper, stands⟩ := between kid member
      have kinds := regular.middle_kid stands lower upper
      rcases around with ⟨kind, rfl⟩ | ⟨kind, rfl⟩
      · simpa using kinds.1 kind
      · simpa using kinds.2 kind
    rw [Covered.kidsOfKind, kids, List.filter_append, List.filter_append, first, all]
    simp [outer held (.inr rfl)]
  refine ⟨last, held, outer held (.inr rfl), by rw [clauses, kids], by rw [clauses, later], ?_⟩
  intro first stands
  exact outer stands (.inl rfl)

end Constructs

end ProbeCoverage.Cover
