import ProbeCoverage.Proofs.Cover.Refusal
import ProbeCoverage.Proofs.Flow.Faults
import ProbeCoverage.Proofs.Instrument.Faults
import ProbeCoverage.Proofs.Instrument.Sites

/-!
The tables agree. Covering checks patterns, instrumenting fills them in, and deriving counts asks for
counters and children, each by tables of its own. No part finds a table of another one wanting: no
pattern is refused, every node has a plan, and every counter that a rule asks for is there.
-/

namespace ProbeCoverage

open Cover

namespace Instrument

def Error.OfSource : Error → Prop
  | .template _ | .missingTracker _ | .unknownNode _ => False
  | _ => True

section Faults

variable {tree : CoverTree} {stem : String} {source : List Char} {error : Error}

theorem rangeFault?_ofSource {node : Nat} {range : ByteRange}
    (fault : rangeFault? source node range = some error) : error.OfSource := by
  unfold rangeFault? at fault
  split at fault
  · obtain rfl := Option.some.inj fault
    trivial
  · split at fault
    · obtain rfl := Option.some.inj fault
      trivial
    · cases fault

theorem splice_ofSource {node stop cursor : Nat} {edits : List Edit}
    (failed : splice source node stop cursor edits = .error error) : error.OfSource := by
  rcases splice_error failed with ⟨_, _, rfl⟩ | ⟨_, _, fault⟩ | ⟨_, _, _, rfl⟩
  · trivial
  · exact rangeFault?_ofSource fault
  · trivial

theorem instrument_ofSource (grown : Grown tree) {text : String}
    (failed : instrument tree stem text = .error error) : error.OfSource := by
  cases instrument_origin failed with
  | plan occurs unplanned =>
      rw [plan_eq grown (grown.numbered.cell?_of_occurs occurs)] at unplanned
      cases unplanned
  | range fault => exact rangeFault?_ofSource fault
  | anchor id => trivial
  | splice _ spliced => exact splice_ofSource spliced

end Faults

end Instrument

namespace Cover

theorem refusal?_ne_template {α : Type} {result : Except BuildError α} {program : Ast.Node}
    (judged : refusal? result = (positions program).findSome? Position.fault?)
    (error : Template.Error) : result ≠ .error (.template error) := by
  rintro rfl
  rcases List.exists_of_findSome?_eq_some judged.symm with ⟨position, _, fault⟩
  exact fault?_ne_template position error fault

theorem build_ne_template (global : String) (fileIndex : Nat) (program : Option Ast.Node)
    (error : Template.Error) :
    CoverTree.build global fileIndex program ≠ .error (.template error) := by
  cases program with
  | none => exact fun refused => nomatch refused
  | some program => exact refusal?_ne_template (refusal_ofProgram global fileIndex program) error

end Cover

open ProbeCoverage.Flow (Recall View Reportable)

structure Agreed (tree : CoverTree) : Prop where
  planned : ∀ stem, ∀ id ∈ tree.ids, ∃ plan, Instrument.plan tree stem id = .ok plan
  instrumented : ∀ stem source error,
    Instrument.instrument tree stem source = .error error → error.OfSource
  -- with anything in memory, so also behind any questions asked before
  answered : ∀ hits told arithmetic memo question error,
    let view : View := ⟨tree, hits, told, arithmetic⟩
    (Recall.ask ⟨view, memo⟩ question).1 = .error error → Reportable view error
  surveyed : ∀ hits told arithmetic,
    let view : View := ⟨tree, hits, told, arithmetic⟩
    ∀ answers ∈ view.survey, ∀ error,
      .error error ∈ [answers.entry, answers.completion, answers.interruption, answers.execution] →
        Reportable view error

def conditionless : Ast.Node :=
  .mk "if" [.atom (.text "c"), .node (.mk "lvar" [.atom (.text "a")] none), .atom .nil] none

/-- `case x when 1 then 2 else 3 end`. -/
def oneTest : Ast.Node :=
  let number (digit : Int) : Ast.Child := .node (.mk "int" [.atom (.int digit)] none)
  .mk "case"
    [.node (.mk "lvar" [.atom (.text "x")] none),
     .node (.mk "when" [number 1, number 2] none),
     number 3] none

end ProbeCoverage
