import ProbeCoverage.Coverage.File
import ProbeCoverage.Proofs.Cover.Innermost

/-!
Coverage by byte. A byte takes its state from the last node that marks it. Where the spans of a
syntax tree nest, only the innermost node at the byte can mark it, so the order in which the nodes
come does not matter.
-/

namespace ProbeCoverage.Coverage

open Ast (Node)
open Cover (CoverTree Innermost)
open ProbeCoverage.Flow (Answers Recall View)
open Probe (Hits)

def NodeCoverage.owns (node : NodeCoverage) (offset : Nat) : Bool :=
  node.properRange.any fun range => range.holds offset

section States

variable {nodes : List NodeCoverage} {node : NodeCoverage} {offset : Nat} {byte : UInt8}

theorem byteState_blank (blank : isBlankByte byte = true) :
    byteState nodes offset byte = .ignored := by
  simp [byteState, blank]

theorem byteState_unowned (free : ∀ node ∈ nodes, node.owns offset = false) :
    byteState nodes offset byte = .ignored := by
  have unmarked : nodes.find? (fun node => node.marks offset) = none := by
    rw [List.find?_eq_none]
    intro node member
    have free := free node member
    unfold NodeCoverage.owns at free
    simp [NodeCoverage.marks, free]
  simp [byteState, unmarked]

/-- The only owner of a byte decides on its state, even if it does not mark it. -/
theorem byteState_owned (ink : isBlankByte byte = false) (member : node ∈ nodes)
    (owns : node.owns offset = true)
    (only : ∀ other ∈ nodes, other.owns offset = true → other = node) :
    byteState nodes offset byte = node.byteState := by
  simp only [byteState, ink, Bool.false_eq_true, if_false]
  cases found : nodes.find? (fun node => node.marks offset) with
  | some other =>
      have marks : other.marks offset = true := by simpa using List.find?_some found
      have otherOwns := (Bool.and_eq_true_iff.mp marks).2
      rw [only other (List.mem_of_find?_eq_some found) otherOwns]
  | none =>
      -- a node that owns the byte and does not mark it is one of which nothing is known
      have unmarked := List.find?_eq_none.mp found node member
      cases ran : node.wasExecuted with
      | none => simp [NodeCoverage.byteState, ran]
      | some executed =>
          unfold NodeCoverage.owns at owns
          simp [NodeCoverage.marks, ran, owns] at unmarked

/-- Where no two nodes own a byte, it does not matter in which order they come. -/
theorem byteState_perm {order : List NodeCoverage} (perm : order.Perm nodes)
    (unique : ∀ first ∈ nodes, ∀ second ∈ nodes, first.owns offset = true →
      second.owns offset = true → first = second) :
    byteState order offset byte = byteState nodes offset byte := by
  cases blank : isBlankByte byte with
  | true => rw [byteState_blank blank, byteState_blank blank]
  | false =>
      by_cases owned : ∃ node ∈ nodes, node.owns offset = true
      · obtain ⟨node, member, owns⟩ := owned
        rw [byteState_owned blank member owns fun other inside otherOwns =>
            unique other inside node member otherOwns owns,
          byteState_owned blank (perm.mem_iff.mpr member) owns fun other inside otherOwns =>
            unique other (perm.mem_iff.mp inside) node member otherOwns owns]
      · have free : ∀ node ∈ nodes, node.owns offset = false := by
          intro node member
          by_contra owns
          exact owned ⟨node, member, by simpa using owns⟩
        rw [byteState_unowned free,
          byteState_unowned fun node member => free node (perm.mem_iff.mp member)]

theorem byteStates_getElem? (source : List Char) (nodes : List NodeCoverage) (offset : Nat) :
    (byteStates source nodes)[offset]? =
      (Text.bytes source)[offset]?.map fun byte => byteState nodes.reverse offset byte := by
  simp only [byteStates, List.getElem?_map, List.getElem?_zipIdx, Nat.zero_add, Option.map_map]
  rfl

theorem byteStates_perm (source : List Char) {order : List NodeCoverage} (perm : order.Perm nodes)
    (unique : ∀ offset, ∀ first ∈ nodes, ∀ second ∈ nodes, first.owns offset = true →
      second.owns offset = true → first = second) :
    byteStates source order = byteStates source nodes := by
  have backwards : order.reverse.Perm nodes.reverse :=
    (List.reverse_perm order).trans (perm.trans (List.reverse_perm nodes).symm)
  apply List.ext_getElem?
  intro offset
  rw [byteStates_getElem?, byteStates_getElem?]
  congr 1
  funext byte
  apply byteState_perm backwards
  simpa using unique offset

theorem byteStates_length (source : List Char) (nodes : List NodeCoverage) :
    (byteStates source nodes).length = (Text.bytes source).length := by
  simp [byteStates]

end States

section Analysis

/-- What a report says of a node, given the answers about it. An ignored node is not judged. -/
structure Reports (tree : CoverTree) (ignored : Bool) (cell : Cover.Cell) (answers : Answers)
    (node : NodeCoverage) : Prop where
  number : node.number = cell.number
  tag : node.tag = cell.tag
  span : node.span = cell.span
  executable : node.executable = cell.kind.isExecutable
  counts : answers.counts = .ok node.counts
  verdict : (if ignored then .ok none else answers.wasExecuted cell.kind) = .ok node.wasExecuted
  range : node.properRange = tree.properRange cell.number

theorem finding_reports {tree : CoverTree} {cell : Cover.Cell} {ignored : Bool} {answers : Answers}
    {found : Finding} (done : finding tree cell ignored answers = .ok found) :
    Reports tree ignored cell answers found.node := by
  unfold finding at done
  split at done
  · cases done
  · rename_i counts known
    split at done
    · cases done
    · rename_i verdict judged
      dsimp only at done
      split at done
      · split at done
        · cases done
        · obtain rfl := Except.ok.inj done
          exact ⟨rfl, rfl, rfl, rfl, known, judged, rfl⟩
      · obtain rfl := Except.ok.inj done
        exact ⟨rfl, rfl, rfl, rfl, known, judged, rfl⟩

theorem findings_cons_ok {tree : CoverTree} {flags : Array Bool} {cell : Cover.Cell}
    {answers : Answers} {rest : List (Cover.Cell × Answers)} {found : List Finding}
    (done : findings tree flags ((cell, answers) :: rest) = .ok found) :
    ∃ first others, finding tree cell ((flags[cell.number]?).getD false) answers = .ok first ∧
      findings tree flags rest = .ok others ∧ found = first :: others := by
  rw [findings] at done
  split at done
  · cases done
  · rename_i first own
    split at done
    · rename_i others later
      exact ⟨first, others, own, later, (Except.ok.inj done).symm⟩
    · cases done

theorem findings_report {tree : CoverTree} {flags : Array Bool}
    {pairs : List (Cover.Cell × Answers)} {found : List Finding}
    (done : findings tree flags pairs = .ok found) :
    List.Forall₂ (fun pair node =>
      Reports tree ((flags[pair.1.number]?).getD false) pair.1 pair.2 node) pairs
      (found.map Finding.node) := by
  induction pairs generalizing found with
  | nil =>
      obtain rfl : [] = found := Except.ok.inj done
      exact .nil
  | cons pair rest ih =>
      obtain ⟨cell, answers⟩ := pair
      obtain ⟨first, others, own, later, rfl⟩ := findings_cons_ok done
      exact .cons (finding_reports own) (ih later)

theorem findings_nodes {tree : CoverTree} {flags : Array Bool}
    {pairs : List (Cover.Cell × Answers)} {found : List Finding}
    (done : findings tree flags pairs = .ok found) :
    (found.map Finding.node).map NodeCoverage.number =
        pairs.map (fun pair => pair.1.number) ∧
      ∀ node ∈ found.map Finding.node, node.properRange = tree.properRange node.number := by
  have report := findings_report done
  clear done
  generalize found.map Finding.node = nodes at report
  induction report with
  | nil => simp
  | @cons pair node pairs nodes own _ ih =>
      constructor
      · rw [List.map_cons, List.map_cons, ih.1, own.number]
      · intro other member
        rcases List.mem_cons.mp member with rfl | inside
        · rw [own.range, own.number]
        · exact ih.2 other inside

theorem answersFor_length (memory : Recall) (ids : List Nat) :
    (memory.answersFor ids).length = ids.length := by
  induction ids generalizing memory with
  | nil => rfl
  | cons id rest ih =>
      rw [Recall.answersFor]
      simp [ih]

theorem analyze_ok {file : CoveredFile} {hits : Hits} {config : Config} {coverage : FileCoverage}
    (grown : Cover.Grown file.tree) (done : file.analyze hits config = .ok coverage) :
    coverage.nodes.map NodeCoverage.number = List.range file.tree.size ∧
      (∀ node ∈ coverage.nodes, node.properRange = file.tree.properRange node.number) ∧
      coverage.bytes = byteStates file.source.toList coverage.nodes := by
  unfold CoveredFile.analyze at done
  dsimp only at done
  split at done
  · cases done
  · rename_i found listed
    obtain rfl := Except.ok.inj done
    obtain ⟨numbers, ranges⟩ := findings_nodes listed
    refine ⟨?_, ranges, rfl⟩
    -- there is an answer for every cell, so pairing them up drops none
    have surveyed : file.tree.cells.toList.length ≤
        (View.survey ⟨file.tree, hits, none, .word⟩).length := by
      simp [View.survey, answersFor_length, CoverTree.ids, CoverTree.size]
    have cells : file.tree.cells.toList = file.tree.root.cells := by
      rw [file.tree.cells_eq]
    calc (found.map Finding.node).map NodeCoverage.number
        = ((file.tree.cells.toList.zip (View.survey ⟨file.tree, hits, none, .word⟩)).map Prod.fst).map
            Cover.Cell.number := by rw [numbers, List.map_map]; rfl
      _ = file.tree.root.cells.map Cover.Cell.number := by
          rw [List.map_fst_zip surveyed, cells]
      _ = List.range file.tree.size := by rw [grown.numbered, CoverTree.size_eq]

end Analysis

section Reports

variable {file : CoveredFile} {hits : Hits} {config : Config} {coverage : FileCoverage}
variable (grown : Cover.Grown file.tree) (done : file.analyze hits config = .ok coverage)

include grown done

theorem owns_eq_ownsAt {node : NodeCoverage} (member : node ∈ coverage.nodes) (offset : Nat) :
    node.owns offset = file.tree.ownsAt node.number offset := by
  obtain ⟨_, ranges, _⟩ := analyze_ok grown done
  rw [NodeCoverage.owns, ranges node member, CoverTree.ownsAt]

theorem reported_owner {id offset : Nat} (owns : file.tree.ownsAt id offset = true) :
    ∃ node ∈ coverage.nodes, node.number = id := by
  obtain ⟨numbers, _, _⟩ := analyze_ok grown done
  obtain ⟨_, _, node, occurs, rfl, _⟩ := (Cover.ownsAt_iff grown).mp owns
  have listed : node.number ∈ coverage.nodes.map NodeCoverage.number := by
    rw [numbers, List.mem_range]
    exact Cover.number_lt_size grown occurs
  exact List.mem_map.mp listed

theorem reported_owner_unique (nests : Cover.Everywhere Cover.Nests file.tree.root)
    (offset : Nat) : ∀ first ∈ coverage.nodes, ∀ second ∈ coverage.nodes,
      first.owns offset = true → second.owns offset = true → first = second := by
  intro first firstIn second secondIn firstOwns secondOwns
  obtain ⟨numbers, _, _⟩ := analyze_ok grown done
  rw [owns_eq_ownsAt grown done firstIn] at firstOwns
  rw [owns_eq_ownsAt grown done secondIn] at secondOwns
  have distinct : (coverage.nodes.map NodeCoverage.number).Nodup := by
    rw [numbers]
    exact List.nodup_range
  exact List.inj_on_of_nodup_map distinct firstIn secondIn
    (Cover.ownsAt_unique grown nests firstOwns secondOwns)

end Reports

theorem built_of_cover {path source global : String} {fileIndex : Nat} {program : Option Node}
    {file : CoveredFile}
    (covered : CoveredFile.cover path source program global fileIndex = .ok file) :
    CoverTree.build global fileIndex program = .ok file.tree ∧ file.source = source := by
  unfold CoveredFile.cover at covered
  split at covered
  · rename_i tree built
    obtain rfl := Except.ok.inj covered
    exact ⟨built, rfl⟩
  · cases covered

/-- Where the spans of a program nest, each byte of the program belongs to one node, the innermost
one around it, and no other byte belongs to any. In every report, a byte that is not blank has the
state of its innermost node, and all other bytes are ignored, whatever order the nodes are taken
in. -/
theorem bytes_of_innermost {path source global : String} {fileIndex : Nat} {program : Option Node}
    {file : CoveredFile}
    (covered : CoveredFile.cover path source program global fileIndex = .ok file)
    (nested : program.all Node.isNested = true) :
    let tree := file.tree
    let bytes := Text.bytes source.toList
    (∀ id offset, tree.ownsAt id offset = true ↔ Innermost tree id offset) ∧
    (∀ offset, tree.holdsAt tree.program offset = true → ∃! id, tree.ownsAt id offset = true) ∧
    (∀ offset, tree.holdsAt tree.program offset = false → ∀ id, tree.ownsAt id offset = false) ∧
    ∀ hits config coverage, file.analyze hits config = .ok coverage →
      (∀ order, order.Perm coverage.nodes → byteStates source.toList order = coverage.bytes) ∧
      coverage.bytes.length = bytes.length ∧
      ∀ offset byte, bytes[offset]? = some byte →
        (isBlankByte byte = true ∨ tree.holdsAt tree.program offset = false →
          coverage.bytes[offset]? = some .ignored) ∧
        (isBlankByte byte = false → tree.holdsAt tree.program offset = true →
          ∃ node ∈ coverage.nodes, Innermost tree node.number offset ∧
            coverage.bytes[offset]? = some node.byteState) := by
  intro tree bytes
  obtain ⟨built, rfl⟩ := built_of_cover covered
  have grown := (Cover.built_of_build built).1.grown
  have nests := Cover.nests_of_build built nested
  obtain ⟨inner, held, only, named⟩ := Cover.wrapped_of_build built
  -- the wrapper around the program has no span, so the program is the outermost owner
  have owned (offset : Nat) :
      (∃ id, tree.ownsAt id offset = true) ↔ tree.holdsAt tree.program offset = true := by
    rw [named]
    exact Cover.owned_iff_program grown nests (Instrument.root_unlocated built) held only
  have free (offset : Nat) (outside : tree.holdsAt tree.program offset = false) (id : Nat) :
      tree.ownsAt id offset = false := by
    by_contra owns
    have inside := (owned offset).mp ⟨id, by simpa using owns⟩
    simp [outside] at inside
  refine ⟨fun id offset => Cover.ownsAt_iff_innermost grown nests, ?_, free, ?_⟩
  · intro offset inside
    obtain ⟨id, owns⟩ := (owned offset).mpr inside
    refine ⟨id, owns, ?_⟩
    intro other otherOwns
    exact Cover.ownsAt_unique grown nests otherOwns owns
  · intro hits config coverage done
    obtain ⟨_, _, states⟩ := analyze_ok grown done
    have unique := reported_owner_unique grown done nests
    refine ⟨?_, by rw [states, byteStates_length], ?_⟩
    · intro order perm
      rw [states]
      exact byteStates_perm _ perm unique
    · intro offset byte found
      rw [states, byteStates_getElem?, found, Option.map_some]
      constructor
      · rintro (blank | outside)
        · rw [byteState_blank blank]
        · rw [byteState_unowned]
          intro node member
          rw [owns_eq_ownsAt grown done (List.mem_reverse.mp member)]
          exact free offset outside node.number
      · intro ink inside
        obtain ⟨id, owns⟩ := (owned offset).mpr inside
        obtain ⟨node, member, rfl⟩ := reported_owner grown done owns
        have nodeOwns : node.owns offset = true := by
          rw [owns_eq_ownsAt grown done member]
          exact owns
        refine ⟨node, member, (Cover.ownsAt_iff_innermost grown nests).mp owns, ?_⟩
        rw [byteState_owned ink (List.mem_reverse.mpr member) nodeOwns]
        intro other otherIn otherOwns
        exact unique offset other (List.mem_reverse.mp otherIn) node member otherOwns nodeOwns

def clauseSource : String := "case a\nwhen b then c\nend"

def clauseProgram : Node :=
  let call (name : String) (span : Ast.Span) : Ast.Child :=
    .node (.mk "send" [.atom .nil, .atom (.text name)] (some span))
  .mk "case"
    [call "a" ⟨5, 6, 1, 1⟩,
     .node (.mk "when" [call "b" ⟨12, 13, 2, 2⟩, call "c" ⟨19, 20, 2, 2⟩] (some ⟨7, 20, 2, 2⟩)),
     .atom .nil]
    (some ⟨0, 24, 1, 3⟩)

def unmatchedHits : Hits := ⟨#[1, 1, 0, 1, 1, 0]⟩

/-- The matcher ran and the body of the clause did not. -/
theorem bytes_of_innermost_clause :
    ∃ file coverage,
      CoveredFile.cover "a.rb" clauseSource (some clauseProgram) Probe.defaultGlobal 0 = .ok file ∧
      clauseProgram.isNested = true ∧ file.analyze unmatchedHits {} = .ok coverage ∧
      Innermost file.tree 5 12 ∧ coverage.bytes[6]? = some .ignored ∧
      (∃ node ∈ coverage.nodes, Innermost file.tree node.number 12 ∧
        coverage.bytes[12]? = some node.byteState) ∧
      coverage.bytes[12]? = some .executed ∧ coverage.bytes[19]? = some .missed := by
  have known {file : CoveredFile} {coverage : FileCoverage}
      (covered : CoveredFile.cover "a.rb" clauseSource (some clauseProgram) Probe.defaultGlobal 0 =
        .ok file)
      (done : file.analyze unmatchedHits {} = .ok coverage)
      (owns : file.tree.ownsAt 5 12 = true)
      (inside : file.tree.holdsAt file.tree.program 12 = true)
      (states : coverage.bytes[12]? = some .executed ∧ coverage.bytes[19]? = some .missed) :
      Innermost file.tree 5 12 ∧ coverage.bytes[6]? = some .ignored ∧
      (∃ node ∈ coverage.nodes, Innermost file.tree node.number 12 ∧
        coverage.bytes[12]? = some node.byteState) ∧
      coverage.bytes[12]? = some .executed ∧ coverage.bytes[19]? = some .missed := by
    obtain ⟨innermost, _, _, reports⟩ := bytes_of_innermost covered (by decide)
    obtain ⟨_, _, byByte⟩ := reports unmatchedHits {} coverage done
    have feed := (byByte 6 10 (by decide)).1 (.inl (by decide))
    have matcher := (byByte 12 98 (by decide)).2 (by decide) inside
    exact ⟨(innermost 5 12).mp owns, feed, matcher, states⟩
  exact ⟨_, _, rfl, by decide, rfl, known rfl rfl (by decide +kernel) rfl (by decide +kernel)⟩

end ProbeCoverage.Coverage
