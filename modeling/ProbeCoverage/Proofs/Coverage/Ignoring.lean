import ProbeCoverage.Proofs.Coverage.Bytes
import ProbeCoverage.Proofs.Coverage.Merge
import ProbeCoverage.Proofs.Flow.Saturation

/-!
Calls that are to be ignored. A report is silent on such a call and on everything below it, and on
nothing else: all other nodes are judged by the flow of the run, and the counts and bytes of a node
do not depend on what is ignored. So ignoring more calls never makes more nodes missed.
-/

namespace ProbeCoverage.Coverage

open Cover (Cell CoverTree Grown)
open Instrument (Below)
open ProbeCoverage.Flow (Answers Recall View)
open Probe (Hits)

section Flags

variable {config : Config}

def flagNext (config : Config) (flags : Array Bool) (cell : Cell) : Array Bool :=
  flags.push ((cell.parent.any fun parent => (flags[parent]?).getD false) ||
    isIgnoredCall config cell)

theorem foldl_flagNext_size (cells : List Cell) (flags : Array Bool) :
    (cells.foldl (flagNext config) flags).size = flags.size + cells.length := by
  induction cells generalizing flags with
  | nil => rfl
  | cons cell rest ih =>
      rw [List.foldl_cons, ih, flagNext, Array.size_push, List.length_cons]
      omega

theorem foldl_flagNext_get (cells : List Cell) (flags : Array Bool) {id : Nat}
    (known : id < flags.size) : (cells.foldl (flagNext config) flags)[id]? = flags[id]? := by
  induction cells generalizing flags with
  | nil => rfl
  | cons cell rest ih =>
      have later : id < (flagNext config flags cell).size := by
        rw [flagNext, Array.size_push]
        omega
      rw [List.foldl_cons, ih _ later, flagNext, Array.getElem?_push_lt known,
        Array.getElem?_eq_getElem known]

def flagAt (config : Config) (cells : List Cell) (id : Nat) : Bool :=
  ((ignoredFlags config cells)[id]?).getD false

/-- A node is flagged if its parent is, or if it is itself a call to be ignored. -/
theorem flagAt_eq {cells : List Cell} {id : Nat} {cell : Cell} (found : cells[id]? = some cell)
    (earlier : ∀ parent, cell.parent = some parent → parent < id) :
    flagAt config cells id =
      ((cell.parent.any fun parent => flagAt config cells parent) || isIgnoredCall config cell) := by
  obtain ⟨bound, here⟩ := List.getElem?_eq_some_iff.mp found
  have size := @foldl_flagNext_size config (cells.take id) #[]
  rw [List.length_take, Nat.min_eq_left (Nat.le_of_lt bound)] at size
  have split : ignoredFlags config cells = (cells.drop (id + 1)).foldl (flagNext config)
      (flagNext config ((cells.take id).foldl (flagNext config) #[]) cell) := by
    rw [← List.foldl_cons, ← here, ← List.drop_eq_getElem_cons bound, ← List.foldl_append,
      List.take_append_drop]
    rfl
  generalize (cells.take id).foldl (flagNext config) #[] = front at size split
  simp only [List.size_toArray, List.length_nil, Nat.zero_add] at size
  -- the flags of the nodes in front are those that were there when this one was set
  have before (parent : Nat) (less : parent < id) :
      flagAt config cells parent = (front[parent]?).getD false := by
    have inside : parent < (flagNext config front cell).size := by
      rw [flagNext, Array.size_push]
      omega
    rw [flagAt, split, foldl_flagNext_get _ _ inside, flagNext,
      Array.getElem?_push_lt (by omega), Array.getElem?_eq_getElem (by omega)]
  have own : id < (flagNext config front cell).size := by
    rw [flagNext, Array.size_push]
    omega
  rw [flagAt, split, foldl_flagNext_get _ _ own, flagNext, ← size, Array.getElem?_push_size,
    Option.getD_some]
  congr 1
  cases above : cell.parent with
  | none => rfl
  | some parent =>
      rw [Option.any_some, Option.any_some, before parent (earlier parent above)]

end Flags

section Silence

def Calls (tree : CoverTree) (methods : List String) (id : Nat) : Prop :=
  ∃ cell method, tree.cell? id = some cell ∧ (cell.kind = .call ∨ cell.kind = .blockCall) ∧
    cell.children[1]? = some (.atom (.text method)) ∧ method ∈ methods

/-- The node calls one of some methods, or stands below a node that does. -/
def Silenced (tree : CoverTree) (methods : List String) (id : Nat) : Prop :=
  ∃ call, (call = id ∨ Below tree id call) ∧ Calls tree methods call

variable {tree : CoverTree} {methods more : List String} {id : Nat} {cell : Cell}

theorem Silenced.mono (subset : methods ⊆ more) (silenced : Silenced tree methods id) :
    Silenced tree more id := by
  obtain ⟨call, around, cell, method, found, kind, text, listed⟩ := silenced
  exact ⟨call, around, cell, method, found, kind, text, subset listed⟩

theorem silenced_iff : Silenced tree methods id ↔
    Calls tree methods id ∨ ∃ parent, tree.parent? id = some parent ∧ Silenced tree methods parent := by
  constructor
  · rintro ⟨call, rfl | below, calls⟩
    · exact .inl calls
    · obtain ⟨parent, stands, above⟩ := Relation.TransGen.head'_iff.mp below
      rcases Relation.reflTransGen_iff_eq_or_transGen.mp above with same | further
      · exact .inr ⟨parent, stands, call, .inl same, calls⟩
      · exact .inr ⟨parent, stands, call, .inr further, calls⟩
  · rintro (calls | ⟨parent, stands, call, rfl | above, calls⟩)
    · exact ⟨id, .inl rfl, calls⟩
    · exact ⟨call, .inr (.single stands), calls⟩
    · exact ⟨call, .inr (.head stands above), calls⟩

theorem isIgnoredCall_iff {config : Config} (found : tree.cell? id = some cell) :
    isIgnoredCall config cell = true ↔ Calls tree config.ignoreUncovered id := by
  have text (method : String) : cell.text? 1 = some method ↔
      cell.children[1]? = some (.atom (.text method)) := by
    rw [Cell.text?]
    cases cell.children[1]? with
    | none => simp
    | some slot =>
        cases slot with
        | node child => simp [Cover.Slot.text?]
        | atom value => cases value <;> simp [Cover.Slot.text?, Ast.Atom.text?]
  simp only [isIgnoredCall, Bool.and_eq_true, Bool.or_eq_true, beq_iff_eq, Option.any_eq_true,
    Config.ignoresMethod, List.contains_iff_mem, text]
  constructor
  · rintro ⟨kind, method, called, listed⟩
    exact ⟨cell, method, found, kind, called, listed⟩
  · rintro ⟨other, method, same, kind, called, listed⟩
    obtain rfl := Option.some.inj (found.symm.trans same)
    exact ⟨kind, method, called, listed⟩

/-- Parents are flagged before their children, so a flag tells what stands above. -/
theorem flagAt_iff (grown : Grown tree) {config : Config} (found : tree.cell? id = some cell) :
    flagAt config tree.cells.toList id = true ↔ Silenced tree config.ignoreUncovered id := by
  induction id using Nat.strongRecOn generalizing cell with
  | ind id ih =>
      have earlier (parent : Nat) (stands : cell.parent = some parent) :
          parent < id ∧ ∃ above, tree.cell? parent = some above := by
        obtain ⟨less, above, holds, _⟩ := Cover.held_by_parent grown.numbered found stands
        exact ⟨less, above, holds⟩
      have listed : tree.cells.toList[id]? = some cell := by
        rw [Array.getElem?_toList]
        exact found
      rw [flagAt_eq listed fun parent stands => (earlier parent stands).1, Bool.or_eq_true,
        Option.any_eq_true, isIgnoredCall_iff found, silenced_iff, or_comm]
      have up (parent : Nat) : tree.parent? id = some parent ↔ cell.parent = some parent := by
        rw [CoverTree.parent?, found, Option.bind_some]
      constructor
      · rintro (calls | ⟨parent, stands, flagged⟩)
        · exact .inl calls
        · obtain ⟨less, above, holds⟩ := earlier parent stands
          exact .inr ⟨parent, (up parent).mpr stands, (ih parent less holds).mp flagged⟩
      · rintro (calls | ⟨parent, stands, silenced⟩)
        · exact .inl calls
        · obtain ⟨less, above, holds⟩ := earlier parent ((up parent).mp stands)
          exact .inr ⟨parent, (up parent).mp stands, (ih parent less holds).mpr silenced⟩

end Silence

section Nodes

variable {tree : CoverTree} {ignored : Bool} {cell : Cell} {given derived : Answers}
variable {node other : NodeCoverage}

theorem Reports.of_within (within : given.Within derived)
    (reports : Reports tree ignored cell given node) : Reports tree ignored cell derived node := by
  refine { reports with counts := within.counts reports.counts, verdict := ?_ }
  have verdict := reports.verdict
  cases ignored with
  | true => exact verdict
  | false => exact within.wasExecuted verdict

theorem Reports.silent_iff (reports : Reports tree ignored cell given node) :
    node.wasExecuted = none ↔ cell.kind.isExecutable = false ∨ ignored = true := by
  have verdict := reports.verdict
  cases ignored with
  | true => simp [← Except.ok.inj verdict]
  | false =>
      simp only [Bool.false_eq_true, if_false, Answers.wasExecuted, or_false] at verdict ⊢
      by_cases executable : cell.kind.isExecutable = true
      · rw [if_pos executable] at verdict
        cases ran : given.execution with
        | error fault => simp [ran] at verdict
        | ok count =>
            rw [ran] at verdict
            simp [← Except.ok.inj verdict, executable]
      · rw [if_neg executable] at verdict
        simp [← Except.ok.inj verdict, executable]

def NodeCoverage.unjudged (node : NodeCoverage) : NodeCoverage :=
  { node with wasExecuted := none }

theorem Reports.unjudged_eq {also : Bool} (first : Reports tree ignored cell given node)
    (second : Reports tree also cell given other) : node.unjudged = other.unjudged := by
  have counts : node.counts = other.counts := Except.ok.inj (first.counts.symm.trans second.counts)
  obtain ⟨number, tag, span, executable, wasExecuted, own, range⟩ := node
  obtain ⟨otherNumber, otherTag, otherSpan, otherExecutable, otherRan, otherOwn, otherRange⟩ := other
  simp only [NodeCoverage.unjudged, NodeCoverage.mk.injEq, true_and]
  exact ⟨first.number.trans second.number.symm, first.tag.trans second.tag.symm,
    first.span.trans second.span.symm, first.executable.trans second.executable.symm, counts,
    first.range.trans second.range.symm⟩

theorem Reports.eq_of_flags (first : Reports tree ignored cell given node)
    (second : Reports tree ignored cell given other) : node = other := by
  have ran : node.wasExecuted = other.wasExecuted :=
    Except.ok.inj (first.verdict.symm.trans second.verdict)
  have rest := first.unjudged_eq second
  cases node
  cases other
  simp only [NodeCoverage.unjudged, NodeCoverage.mk.injEq, true_and] at rest ran ⊢
  exact ⟨rest.1, rest.2.1, rest.2.2.1, rest.2.2.2.1, ran, rest.2.2.2.2⟩

end Nodes

section Runs

variable {view : View} {flag : Nat → Bool} {cells : List Cell} {nodes others : List NodeCoverage}

theorem reports_derived {answers : List Answers}
    (surveyed : List.Forall₂ (fun id given => Answers.Within given (view.answers id))
      (cells.map Cell.number) answers)
    (reported : List.Forall₂ (fun pair node =>
      Reports view.tree (flag pair.1.number) pair.1 pair.2 node) (cells.zip answers) nodes) :
    List.Forall₂ (fun cell node =>
      Reports view.tree (flag cell.number) cell (view.answers cell.number) node) cells nodes := by
  induction cells generalizing answers nodes with
  | nil =>
      cases reported
      exact .nil
  | cons cell rest ih =>
      cases surveyed with
      | cons within later =>
          cases reported with
          | cons own following => exact .cons (own.of_within within) (ih later following)

theorem analyze_reports {file : CoveredFile} {hits : Hits} {config : Config}
    {coverage : FileCoverage} (grown : Grown file.tree)
    (done : file.analyze hits config = .ok coverage) :
    coverage.summary = .ofNodes coverage.nodes config.threshold ∧
      List.Forall₂ (fun cell node =>
        Reports file.tree (flagAt config file.tree.cells.toList cell.number) cell
          (View.answers ⟨file.tree, hits, none, .word⟩ cell.number) node)
        file.tree.cells.toList coverage.nodes := by
  unfold CoveredFile.analyze at done
  dsimp only at done
  split at done
  · cases done
  · rename_i found listed
    obtain rfl := Except.ok.inj done
    refine ⟨rfl, ?_⟩
    have ids : file.tree.cells.toList.map Cell.number = file.tree.ids := by
      rw [file.tree.cells_eq, grown.numbered, CoverTree.ids, CoverTree.size_eq]
    have surveyed := View.survey_within ⟨file.tree, hits, none, .word⟩
    rw [← ids] at surveyed
    exact @reports_derived ⟨file.tree, hits, none, .word⟩ (flagAt config file.tree.cells.toList) _ _ _
      surveyed (findings_report listed)

theorem compare_reports {first second : Cell → NodeCoverage → Prop}
    {same : NodeCoverage → NodeCoverage → Prop}
    (left : List.Forall₂ first cells nodes) (right : List.Forall₂ second cells others)
    (each : ∀ cell ∈ cells, ∀ node other, first cell node → second cell other → same node other) :
    List.Forall₂ same nodes others := by
  induction left generalizing others with
  | nil =>
      cases right
      exact .nil
  | cons own _ ih =>
      cases right with
      | cons also following =>
          refine .cons (each _ List.mem_cons_self _ _ own also) (ih following ?_)
          intro cell inside
          exact each cell (List.mem_cons_of_mem _ inside)

theorem cell_of_reported {relation : Cell → NodeCoverage → Prop} {node : NodeCoverage}
    (reported : List.Forall₂ relation cells nodes) (member : node ∈ nodes) :
    ∃ cell ∈ cells, relation cell node := by
  induction reported with
  | nil => cases member
  | cons own _ ih =>
      rcases List.mem_cons.mp member with rfl | inside
      · exact ⟨_, List.mem_cons_self, own⟩
      · obtain ⟨cell, later, reports⟩ := ih inside
        exact ⟨cell, List.mem_cons_of_mem _ later, reports⟩

theorem missed_sublist
    (kept : List.Forall₂ (fun node other => other.isMissed = true → node = other) nodes others) :
    (others.filter NodeCoverage.isMissed).Sublist (nodes.filter NodeCoverage.isMissed) := by
  induction kept with
  | nil => exact .slnil
  | @cons node other _ _ own _ ih =>
      by_cases missed : other.isMissed = true
      · obtain rfl := own missed
        rw [List.filter_cons_of_pos missed, List.filter_cons_of_pos missed]
        exact ih.cons_cons node
      · rw [List.filter_cons_of_neg missed]
        by_cases missedFirst : node.isMissed = true
        · rw [List.filter_cons_of_pos missedFirst]
          exact ih.cons node
        · rw [List.filter_cons_of_neg missedFirst]
          exact ih

theorem missed_ofNodes (nodes : List NodeCoverage) (threshold : Option Float) :
    (Summary.ofNodes nodes threshold).missed = (nodes.filter NodeCoverage.isMissed).length := by
  have parts := executable_parts nodes
  change (Breakdown.ofNodes nodes).executable - (Breakdown.ofNodes nodes).executed = _
  rw [Breakdown.executable_ofNodes, Breakdown.executed_ofNodes, ← List.countP_eq_length_filter]
  omega

end Runs

/-- A report judges a node unless the node cannot be executed, calls a method that is to be ignored,
or stands below such a call, and it judges it by the flow. All else that it says of the nodes does
not depend on the settings. Ignoring more methods only takes nodes away from those missed. -/
theorem ignored_calls_silence_below {path source global : String} {fileIndex : Nat}
    {program : Option Ast.Node} {file : CoveredFile}
    (covered : CoveredFile.cover path source program global fileIndex = .ok file) (hits : Hits) :
    let tree := file.tree
    (∀ config coverage, file.analyze hits config = .ok coverage →
      coverage.nodes.map NodeCoverage.number = List.range tree.size ∧
      ∀ node ∈ coverage.nodes, ∃ cell, tree.cell? node.number = some cell ∧
        (node.wasExecuted = none ↔
          cell.kind.isExecutable = false ∨ Silenced tree config.ignoreUncovered node.number) ∧
        (¬ Silenced tree config.ignoreUncovered node.number →
          ((Recall.fresh ⟨tree, hits, none, .word⟩).executed node.number).1 = .ok node.wasExecuted)) ∧
    ∀ first second few many, file.analyze hits first = .ok few → file.analyze hits second = .ok many →
      few.nodes.map NodeCoverage.unjudged = many.nodes.map NodeCoverage.unjudged ∧
      (first.ignoreUncovered ⊆ second.ignoreUncovered →
        many.missedNodes.Sublist few.missedNodes ∧ many.summary.missed ≤ few.summary.missed) := by
  intro tree
  obtain ⟨built, _⟩ := built_of_cover covered
  have grown := (Cover.built_of_build built).1.grown
  have stands (cell : Cell) (inside : cell ∈ tree.cells.toList) :
      tree.cell? cell.number = some cell := by
    rw [tree.cells_eq] at inside
    exact grown.numbered.cell?_of_mem inside
  constructor
  · intro config coverage done
    refine ⟨(analyze_ok grown done).1, ?_⟩
    intro node member
    obtain ⟨cell, inside, reports⟩ := cell_of_reported (analyze_reports grown done).2 member
    have found := stands cell inside
    have flagged := @flagAt_iff _ _ _ grown config found
    rw [reports.number]
    refine ⟨cell, found, ?_, ?_⟩
    · rw [reports.silent_iff, flagged]
    · intro loud
      have verdict := reports.verdict
      rw [← flagged] at loud
      rw [if_neg loud] at verdict
      apply Recall.executed_fresh _ verdict
      rw [CoverTree.kind?, found, Option.map_some]
  · intro first second few many fewDone manyDone
    obtain ⟨fewSummary, fewReports⟩ := analyze_reports grown fewDone
    obtain ⟨manySummary, manyReports⟩ := analyze_reports grown manyDone
    constructor
    · have same : List.Forall₂ (fun node other => node.unjudged = other.unjudged)
          few.nodes many.nodes :=
        compare_reports fewReports manyReports fun _ _ _ _ own also => own.unjudged_eq also
      rw [← List.forall₂_eq_eq_eq, List.forall₂_map_left_iff, List.forall₂_map_right_iff]
      exact same
    · intro subset
      have fewer : many.missedNodes.Sublist few.missedNodes := by
        apply missed_sublist
        apply compare_reports fewReports manyReports
        intro cell inside node other own also missed
        have found := stands cell inside
        -- a node that is missed is not flagged, and then it was not flagged with fewer methods
        have loud : ¬ flagAt second tree.cells.toList cell.number = true := by
          intro flagged
          have silent := also.silent_iff.mpr (.inr flagged)
          simp [NodeCoverage.isMissed, silent] at missed
        have louder : ¬ flagAt first tree.cells.toList cell.number = true := by
          rw [flagAt_iff grown found] at loud ⊢
          exact fun silenced => loud (silenced.mono subset)
        rw [Bool.not_eq_true] at loud louder
        rw [louder] at own
        rw [loud] at also
        exact own.eq_of_flags also
      refine ⟨fewer, ?_⟩
      rw [fewSummary, manySummary, missed_ofNodes, missed_ofNodes]
      exact fewer.length_le

def loggedProgram : Ast.Node :=
  let call (name : String) (arguments : List Ast.Child) (span : Ast.Span) : Ast.Child :=
    .node (.mk "send" (.atom .nil :: .atom (.text name) :: arguments) (some span))
  .mk "begin" [call "log" [call "a" [] ⟨4, 5, 1, 1⟩] ⟨0, 5, 1, 1⟩, call "b" [] ⟨6, 7, 2, 2⟩]
    (some ⟨0, 7, 1, 2⟩)

def raisedHits : Hits := ⟨#[1, 0, 0]⟩

/-- Without the first call and its argument, only the second call is missed. -/
theorem ignored_calls_silence_below_logged :
    ∃ file few many,
      CoveredFile.cover "a.rb" "log a\nb" (some loggedProgram) Probe.defaultGlobal 0 = .ok file ∧
      file.analyze raisedHits {} = .ok few ∧
      file.analyze raisedHits { ignoreUncovered := ["log"] } = .ok many ∧
      few.nodes.map NodeCoverage.wasExecuted = [none, none, some false, some true, some false] ∧
      many.nodes.map NodeCoverage.wasExecuted = [none, none, none, none, some false] ∧
      Silenced file.tree ["log"] 3 ∧ ¬ Silenced file.tree ["log"] 4 ∧
      few.nodes.map NodeCoverage.unjudged = many.nodes.map NodeCoverage.unjudged ∧
      many.missedNodes.Sublist few.missedNodes ∧ many.summary.missed ≤ few.summary.missed := by
  have known {file : CoveredFile} {few many : FileCoverage} {argument second : NodeCoverage}
      {argumentCell : Cell}
      (covered : CoveredFile.cover "a.rb" "log a\nb" (some loggedProgram) Probe.defaultGlobal 0 =
        .ok file)
      (fewDone : file.analyze raisedHits {} = .ok few)
      (manyDone : file.analyze raisedHits { ignoreUncovered := ["log"] } = .ok many)
      (argumentAt : many.nodes[3]? = some argument) (secondAt : many.nodes[4]? = some second)
      (numbers : argument.number = 3 ∧ second.number = 4)
      (verdicts : argument.wasExecuted = none ∧ second.wasExecuted = some false)
      (argumentCellAt : file.tree.cell? 3 = some argumentCell)
      (executable : argumentCell.kind.isExecutable = true) :
      Silenced file.tree ["log"] 3 ∧ ¬ Silenced file.tree ["log"] 4 ∧
      few.nodes.map NodeCoverage.unjudged = many.nodes.map NodeCoverage.unjudged ∧
      many.missedNodes.Sublist few.missedNodes ∧ many.summary.missed ≤ few.summary.missed := by
    obtain ⟨judged, compared⟩ := ignored_calls_silence_below covered raisedHits
    obtain ⟨_, each⟩ := judged _ _ manyDone
    obtain ⟨same, fewer⟩ := compared _ _ _ _ fewDone manyDone
    obtain ⟨cell, found, silent, _⟩ := each argument (List.mem_of_getElem? argumentAt)
    obtain ⟨_, _, loud, _⟩ := each second (List.mem_of_getElem? secondAt)
    rw [numbers.1, argumentCellAt] at found
    obtain rfl := Option.some.inj found
    rw [numbers.1, verdicts.1, executable] at silent
    rw [numbers.2, verdicts.2] at loud
    refine ⟨?_, ?_, same, fewer (List.nil_subset _)⟩
    · simpa using silent
    · intro silenced
      simpa using loud.mpr (.inr silenced)
  exact ⟨_, _, _, rfl, rfl, rfl, by decide +kernel, by decide +kernel,
    known rfl rfl rfl rfl rfl ⟨rfl, rfl⟩ (by decide +kernel) rfl rfl⟩

end ProbeCoverage.Coverage
