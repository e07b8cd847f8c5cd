import ProbeCoverage.Proofs.Flow.Balance
import ProbeCoverage.Proofs.Flow.Magnitude
import ProbeCoverage.Proofs.Flow.Termination

/-!
Reconstruction from hits. A ledger that solves the rules of every node holds the derived counts,
since derivation ends and the rules leave it no choice. The account of a history is such a ledger.
So for every history of a program, the counts derived from its hits alone are those of the history
itself. No sum on the way is above a hit count, so it does not matter that sums are taken in words.
-/

namespace ProbeCoverage

open Cover

namespace Flow

open Ast (Shape)

/-- Derivation finds the numbers of a balanced ledger. -/
theorem Balanced.derived {ledger : Ledger} {tree : CoverTree} (balanced : Balanced ledger tree)
    (grown : Grown tree) (placed : tree.targetsPlaced = true) {above : Option Covered} {slot : Nat}
    {node : Covered} (occurs : Occurs tree.root above slot node) {measure : Measure}
    (flow : measure ≠ .execution) :
    View.derive ⟨tree, ledger.hits, ledger.told, ledger.arithmetic⟩ ⟨measure, node.number⟩ =
      .ok (ledger.value ⟨measure, node.number⟩) := by
  have ordered := ranked grown placed
  let known (query : Query) : Prop := query.measure ≠ .execution ∧ query ∈ schedule tree.root
  have closed (query : Query) (_ : known query) (asked : Query)
      (asks : asked ∈ (rule tree query).asks) : known asked := by
    refine ⟨(plain_rule tree query).2 asked asks, ?_⟩
    -- what is asked for comes earlier in the schedule, and so is in it
    apply List.idxOf_lt_length_iff.mp
    exact Nat.lt_of_lt_of_le (ordered query asked asks) List.idxOf_le_length
  have solved (query : Query) (member : known query) : ledger.Solves tree query := by
    obtain ⟨flow, listed⟩ := member
    obtain ⟨_, _, inner, stands, number⟩ := occurs_of_mem_schedule tree.root .top query listed
    obtain ⟨measure, id⟩ := query
    obtain rfl : inner.number = id := number
    cases measure with
    | entry => exact balanced.entry stands
    | completion => exact balanced.completion stands
    | interruption => exact balanced.interruption stands
    | execution => exact absurd rfl flow
  have listed : known ⟨measure, node.number⟩ :=
    ⟨flow, mem_schedule_of_occurs occurs (own_mem_schedule node measure)⟩
  refine View.derive_of_solution ordered (rank_le tree) known ledger.value closed ?_ _ listed
  exact solved

theorem AllDerived.of_balanced {ledger : Ledger} {tree : CoverTree}
    (balanced : Balanced ledger tree) (grown : Grown tree) (placed : tree.targetsPlaced = true)
    (exact : ledger.arithmetic = .exact) :
    AllDerived ⟨tree, ledger.hits, ledger.told, ledger.arithmetic⟩ where
  grown := grown
  exact := exact
  derived := by
    intro above place node occurs measure flow
    have known := balanced.derived grown placed occurs flow
    rw [(View.ledger_solves known).1]
    exact known

/-- Shapes whose evaluation is described: all but blocks, jumps, definitions and multiple
assignments. -/
def traceableShape : Shape → Bool
  | .block | .ret | .method | .args | .arg | .optarg | .restarg | .kwarg | .kwoptarg => false
  | .blockarg | .classDef | .moduleDef | .masgn | .mlhs => false
  | _ => true

/-- Whether the runs of a program are described: it has such shapes only, its constructs hold the
nodes that they need, the operator of a compound assignment is no node, and the variable of a
handler is assigned without evaluating anything. -/
def traceable (tree : CoverTree) : Bool :=
  tree.slotsFilled && tree.clausesPlaced &&
    tree.cells.toList.all fun cell =>
      cell.shape.all traceableShape &&
        (cell.kind != .operatorAssignment || (cell.child? 1).isNone) &&
        (cell.kind != .handler ||
          (cell.child? 1).all fun target =>
            (tree.cell? target).any fun inner =>
              inner.kind == .variableAssignment && inner.nodes.isEmpty)

section Traces

variable {tree : CoverTree} {above : Option Covered} {slot : Nat} {node kid : Covered}

theorem traced_ofShape {shape : Shape} (known : traceableShape shape = true) :
    traced (.ofShape shape) = true := by
  cases shape <;> first | rfl | cases known

theorem traced_of_isMatcher {kind : Kind} (wraps : kind.isMatcher = true) : traced kind = true := by
  cases kind <;> first | rfl | cases wraps

theorem traced_kid {parent kind : Kind} {count : Nat} {shape : Shape}
    (around : traced parent = true) (known : traceableShape shape = true)
    (asked : kindBelow? parent slot count shape = some kind) : traced kind = true := by
  rcases kindBelow?_cases asked with same | ⟨_, _, wraps⟩ | ⟨same, _⟩ | ⟨same, _⟩ |
    ⟨same | same, _⟩ | ⟨_, _, access⟩
  · rw [same]
    exact traced_ofShape known
  · exact traced_of_isMatcher wraps
  · rw [same] at around
    cases around
  · rw [same] at around
    cases around
  · rw [same] at around
    cases around
  · rw [same] at around
    cases around
  · cases kind <;> first | rfl | simp at access

theorem shape_known (checked : traceable tree = true) (occurs : Occurs tree.root above slot node)
    {shape : Shape} (has : node.info.shape = some shape) : traceableShape shape = true := by
  simp only [traceable, Bool.and_eq_true] at checked
  have cell := List.all_eq_true.mp checked.2 _ occurs.cell_mem_cells
  simp only [Covered.cell_shape, has, Option.all_some, Bool.and_eq_true] at cell
  exact cell.1.1

theorem traced_of_occurs (grown : Grown tree) (wrapper : tree.root.kind = .root)
    (checked : traceable tree = true) (occurs : Occurs tree.root above slot node) :
    traced node.kind = true := by
  induction occurs with
  | top =>
      rw [wrapper]
      rfl
  | @child _ _ parent slot kid parentOccurs held ih =>
      have occurs : Occurs tree.root (some parent) slot kid := .child slot parentOccurs held
      cases (grown.regular _ _ _ parentOccurs).fits slot _ (Covered.kid?_eq_some.mp held) with
      | plain shape has asked _ => exact traced_kid ih (shape_known checked occurs has) asked
      | wrapper shape _ _ _ wraps => exact traced_of_isMatcher wraps
      | @empty info _ body _ =>
          change traced info.kind = true
          rw [body]
          rfl

theorem targetsPlaced_of_traceable (checked : traceable tree = true) :
    tree.targetsPlaced = true := by
  simp only [traceable, Bool.and_eq_true] at checked
  apply List.all_eq_true.mpr
  intro cell member
  have known := List.all_eq_true.mp checked.2 cell member
  simp only [Bool.and_eq_true] at known
  cases has : cell.shape with
  | none => simp
  | some shape =>
      have known := known.1.1
      rw [has, Option.all_some] at known
      cases shape <;> first | rfl | cases known

theorem Traceable.of_checked (grown : Grown tree) (wrapper : tree.root.kind = .root)
    (checked : traceable tree = true) : Traceable tree := by
  have parts := checked
  simp only [traceable, Bool.and_eq_true] at parts
  obtain ⟨⟨filled, clauses⟩, cells⟩ := parts
  have cell {above : Option Covered} {slot : Nat} {node : Covered}
      (occurs : Occurs tree.root above slot node) :=
    List.all_eq_true.mp cells _ occurs.cell_mem_cells
  refine ⟨⟨grown, filled, targetsPlaced_of_traceable checked, clauses⟩, wrapper,
    traced_of_occurs grown wrapper checked, ?_, ?_⟩
  · intro above slot node occurs kind
    have operator := (Bool.and_eq_true_iff.mp (Bool.and_eq_true_iff.mp (cell occurs)).1).2
    simpa [kind] using operator
  · intro above slot node occurs kind target held
    have found := grown.numbered.cell?_of_occurs (.child 1 occurs held)
    have assigned := (Bool.and_eq_true_iff.mp (cell occurs)).2
    simpa [kind, held, found] using assigned

end Traces

/-- Reconstruction is sound: the counts that are derived from the hits of any runs of a program are
those of the runs, with exact sums as with words. -/
theorem reconstruction_sound {global : String} {fileIndex : Nat} {program : Option Ast.Node}
    {tree : CoverTree} {hits : Probe.Hits} {events : List Event} {arithmetic : Arithmetic}
    (covered : CoverTree.build global fileIndex program = .ok tree)
    (checked : traceable tree = true) (history : History tree.root events)
    (recorded : ∀ slot, hits.get slot = events.count (.hit slot))
    (fits : ∀ slot, arithmetic.Holds (hits.get slot)) :
    let view : View := ⟨tree, hits, none, arithmetic⟩
    ∀ id < tree.size,
      view.entry id = .ok (events.count (.entered id)) ∧
      view.completion id = .ok (events.count (.completed id)) ∧
      view.interruption id = .ok (events.count (.left id)) := by
  intro view id bound
  obtain ⟨built, wrapper⟩ := built_of_build covered
  have grown := built.grown
  have placed := targetsPlaced_of_traceable checked
  obtain ⟨log, account⟩ := history.account grown recorded
  have balanced := account.balanced (.of_checked grown wrapper checked)
  obtain ⟨above, slot, node, occurs, rfl, _⟩ :=
    grown.numbered.occurs_of_cell? (Array.getElem?_eq_getElem bound)
  have complete : AllDerived ⟨tree, hits, none, .exact⟩ := .of_balanced balanced grown placed rfl
  have held : view.Held := ⟨fits, by simp [view]⟩
  have found (measure : Measure) (flow : measure ≠ .execution) :
      view.derive ⟨measure, node.number⟩ =
        .ok ((ledgerOf hits events).value ⟨measure, node.number⟩) :=
    (View.derive_of_fitting (complete.part_holds held) _).trans
      (balanced.derived grown placed occurs flow)
  exact ⟨found .entry (by simp), found .completion (by simp), found .interruption (by simp)⟩

/-- `risky rescue Error => e; fix`. -/
def rescued : Ast.Node :=
  let call (name : String) : Ast.Child := .node (.mk "send" [.atom .nil, .atom (.text name)] none)
  .mk "rescue"
    [call "risky",
     .node (.mk "resbody"
       [.node (.mk "array" [.node (.mk "const" [.atom .nil, .atom (.text "Error")] none)] none),
        .node (.mk "lvasgn" [.atom (.text "e")] none), call "fix"] none),
     .atom .nil] none

/-- Two runs of it, both of which fail at `risky`. -/
def rescuedHits : Probe.Hits := ⟨#[2, 0, 1, 2, 1]⟩

/-- The handler is tried twice and runs once, and one of the runs is interrupted. None of these has
a counter of its own. -/
theorem reconstruction_sound_rescued :
    ∃ tree, CoverTree.build Probe.defaultGlobal 0 (some rescued) = .ok tree ∧
      traceable tree = true ∧ ∃ events, History tree.root events ∧
        (∀ slot, rescuedHits.get slot = events.count (.hit slot)) ∧
        events.count (.entered 3) = 2 ∧ events.count (.left 1) = 1 ∧
        let view : View := ⟨tree, rescuedHits, none, .word⟩
        ∀ id < tree.size,
          view.entry id = .ok (events.count (.entered id)) ∧
          view.completion id = .ok (events.count (.completed id)) ∧
          view.interruption id = .ok (events.count (.left id)) := by
  have runs : ∃ tree, CoverTree.build Probe.defaultGlobal 0 (some rescued) = .ok tree ∧
      traceable tree = true ∧ ∃ events, History tree.root events ∧
        (∀ slot, rescuedHits.get slot = events.count (.hit slot)) ∧
        events.count (.entered 3) = 2 ∧ events.count (.left 1) = 1 := by
    refine ⟨_, rfl, rfl, _,
      -- `Error` is not what was raised
      .run (Starts.program rfl (by simp : Outcome.interrupted ≠ .passed))
        (.probe _ (.child (Guards.unhandled rfl (.next _ .finish))
          (.child (Evaluates.ends .finish (.tail _ (.head _))) (.nil _)
            (.child Handles.passes
              (.child (Evaluates.ends (.next _ .finish) (.head _))
                (.child (Evaluates.ends .finish (.head _)) (.probe _ (.nil _)) (.nil _)) (.nil _))
              (.nil _)))
          (.nil _)))
        -- `Error` is what was raised, and `fix` completes
        (.run (Starts.program rfl (by simp : Outcome.done ≠ .passed))
          (.probe _ (.child
            (Guards.handled rfl (.stop _ _ (by simp : Outcome.done ≠ .passed)) (by simp))
            (.child (Evaluates.ends .finish (.tail _ (.head _))) (.nil _)
              (.child (Handles.runs rfl (.next _ (.next _ .finish)) (by simp))
                (.child (Evaluates.ends (.next _ .finish) (.head _))
                  (.child (Evaluates.ends .finish (.head _)) (.probe _ (.nil _)) (.nil _))
                  (.probe _ (.child (Evaluates.ends .finish (.head _)) (.nil _)
                    (.child (Evaluates.ends .finish (.head _)) (.probe _ (.nil _)) (.nil _)))))
                (.nil _)))
            (.nil _)))
          .nil), ?_, rfl, rfl⟩
    intro slot
    match slot with
    | 0 | 1 | 2 | 3 | 4 => rfl
    | later + 5 => rfl
  obtain ⟨tree, covered, checked, events, history, recorded, tried, interrupted⟩ := runs
  have small : ∀ count ∈ rescuedHits.counts.toList, Arithmetic.word.Holds count := by decide
  have held : View.Held ⟨tree, rescuedHits, none, .word⟩ := View.held_of_counts small (by simp)
  exact ⟨tree, covered, checked, events, history, recorded, tried, interrupted,
    reconstruction_sound covered checked history recorded held.hits⟩

end Flow

end ProbeCoverage
