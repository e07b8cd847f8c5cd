import ProbeCoverage.Coverage.File
import ProbeCoverage.Proofs.Cover.Placement
import ProbeCoverage.Proofs.Instrument.Fragments
import ProbeCoverage.Proofs.Instrument.Lines

/-!
Instrumenting only inserts. The instrumented text is the source with fragments put in between, no
byte of the source is lost or doubled, and where every node of the syntax tree has a location each
node has its two fragments at the ends of its place. As fragments hold no newline, the lines of the
source stay as they are.
-/

namespace ProbeCoverage.Ast.Node

mutual

def isLocated : Node → Bool
  | .mk _ children location => location.isSome && allLocated children

def allLocated : List Child → Bool
  | [] => true
  | .node node :: rest => isLocated node && allLocated rest
  | .atom _ :: rest => allLocated rest

end

end ProbeCoverage.Ast.Node

namespace ProbeCoverage.Instrument

open Cover
open Ast (Child Node)

section Located

def Spanned (node : Covered) : Prop :=
  node.info.span = none → node.kind = .root ∨ node.kind = .emptyBody

theorem spanned_of_isSome {node : Covered} (located : node.info.span.isSome = true) :
    Spanned node := by
  intro missing
  rw [missing] at located
  cases located

theorem spanned_emptyBody (info : Info) (empty : info.kind = .emptyBody) :
    Everywhere Spanned (.mk info []) := by
  apply Everywhere.of_kids
  · exact fun _ => .inr empty
  · intro kid member
    simp [Covered.kids, Covered.branches] at member

theorem kept_spanned :
    Kept (fun _ _ _ node covered _ => node.isLocated = true → Everywhere Spanned covered)
      (fun _ _ _ _ children branches _ => Node.allLocated children = true →
        ∀ kid ∈ branches.filterMap Branch.covered?, Everywhere Spanned kid) where
  node _ _ below located := by
    rw [Node.isLocated, Bool.and_eq_true] at located
    exact Everywhere.of_kids (spanned_of_isSome located.1) (below located.2)
  nil _ _ _ _ _ kid member := by simp at member
  plain _ _ _ inside later located kid member := by
    rw [Node.allLocated, Bool.and_eq_true] at located
    rw [List.filterMap_cons_some (Branch.covered?_node _)] at member
    rcases List.mem_cons.mp member with rfl | rest
    · exact inside located.1
    · exact later located.2 kid rest
  wrapper {_ _ _ _ _ _ _ _ node _ test _} _ _ _ inside later located kid member := by
    rw [Node.allLocated, Bool.and_eq_true] at located
    rw [List.filterMap_cons_some (Branch.covered?_node _)] at member
    rcases List.mem_cons.mp member with rfl | rest
    · -- the wrapper has the location of the test below it
      apply Everywhere.of_kids
      · apply spanned_of_isSome
        obtain ⟨tag, children, location⟩ := node
        rw [Node.isLocated, Bool.and_eq_true] at located
        exact located.1.1
      · intro kid member
        obtain rfl := List.mem_singleton.mp member
        exact inside located.1
    · exact later located.2 kid rest
  empty _ _ later located kid member := by
    rw [List.filterMap_cons_some (Branch.covered?_node _)] at member
    rcases List.mem_cons.mp member with rfl | rest
    · exact spanned_emptyBody _ rfl
    · exact later located kid rest
  atom _ later located kid member := by
    rw [List.filterMap_cons_none (Branch.covered?_atom _)] at member
    exact later located kid member

theorem spanned_of_build {global : String} {fileIndex : Nat} {program : Option Node}
    {tree : CoverTree} (covered : CoverTree.build global fileIndex program = .ok tree)
    (located : program.all Node.isLocated = true) : Everywhere Spanned tree.root := by
  cases program with
  | none =>
      obtain rfl : CoverTree.ofNothing global fileIndex = tree := Except.ok.inj covered
      apply Everywhere.of_kids
      · exact fun _ => .inl rfl
      · intro kid member
        obtain rfl := List.mem_singleton.mp member
        exact spanned_emptyBody _ rfl
  | some program =>
      obtain ⟨shape, inner, after, shaped, covers, rfl⟩ := ofProgram_ok covered
      apply Everywhere.of_kids
      · exact fun _ => .inl rfl
      · intro kid member
        obtain rfl := List.mem_singleton.mp member
        exact kept_spanned.cover _ _ _ _ _ _ shaped covers located

variable {tree : CoverTree} {node : Covered} {above : Option Covered} {slot : Nat}

theorem reached_of_spanned (grown : Grown tree) (spanned : Everywhere Spanned tree.root)
    (occurs : Occurs tree.root above slot node) : Reached tree node.number := by
  induction occurs with
  | top =>
      rw [root_number grown.numbered]
      exact reached_root grown
  | @child above place parent slot kid stands held ih =>
      apply ih.child (grown.numbered.parent?_of_occurs (.child slot stands held))
      intro notRoot
      refine ⟨_, grown.numbered.cell?_of_occurs stands, ?_⟩
      by_contra missing
      have missing : parent.info.span = none := Option.not_isSome_iff_eq_none.mp missing
      rcases spanned above place parent stands missing with top | empty
      · rw [grown.root_of_kind stands top] at notRoot
        exact notRoot (root_number grown.numbered)
      · -- an empty body has no children
        have slots : parent.branches.length = 0 :=
          (grown.regular _ _ _ stands).length_eq (by rw [empty]; rfl)
        have inside := Covered.slot_lt held
        omega

end Located

/-- Every node has its fragments at the ends of its place, but for those that have none to put in
and no span. Only the wrapper of a program and empty bodies have no span. -/
def AllPlaced (tree : CoverTree) (stem : String) (source : List Char) (pieces : List Piece) : Prop :=
  ∀ id cell, tree.cell? id = some cell →
    (cell.span = none → cell.kind = .root ∨ cell.kind = .emptyBody) ∧
    ∃ plan, Instrument.plan tree stem id = .ok plan ∧
      (Placed tree source pieces cell plan ∨
        (plan = .empty ∧ cell.span = none ∧ id ∉ ownersOf pieces))

/-- A text has the bytes of a source in their order, each on its line, and no other lines. -/
def KeepsLines (source text : List Char) : Prop :=
  text.count '\n' = source.count '\n' ∧
    ∃ position : Nat → Nat, (∀ first second, first < second → position first < position second) ∧
      ∀ offset < Text.byteCount source,
        (Text.bytes text)[position offset]? = (Text.bytes source)[offset]? ∧
          Ast.Span.lineAt text (position offset) = Ast.Span.lineAt source offset

section Main

variable {tree : CoverTree} {stem : String} {pieces : List Piece}

theorem allPlaced_of_spanned {source : List Char} (grown : Grown tree)
    (top : tree.root.kind = .root) (unlocated : tree.root.info.span = none)
    (spanned : Everywhere Spanned tree.root)
    (done : Instrument.pieces tree stem source = .ok pieces) :
    AllPlaced tree stem source pieces := by
  intro id cell found
  obtain ⟨above, slot, node, occurs, rfl, rfl⟩ := grown.numbered.occurs_of_cell? found
  constructor
  · exact spanned above slot node occurs
  by_cases silent : Silent tree stem node
  · refine ⟨.empty, silent.2, .inr ⟨rfl, silent.1, ?_⟩⟩
    intro owner
    obtain ⟨_, _, inner, stands, same, _, loud⟩ := owner_of_pieces grown unlocated done owner
    obtain rfl := grown.unique stands occurs same
    exact loud silent
  · have inner : above ≠ none := by
      rintro rfl
      cases occurs with
      | top => exact silent ⟨unlocated, plan_root grown top⟩
    have reached := reached_of_spanned grown spanned occurs
    obtain ⟨plan, planned, placed⟩ :=
      (embedded_of_reached grown unlocated done occurs inner reached silent).placed grown occurs
    exact ⟨plan, planned, .inl placed⟩

theorem keepsLines_textOf (same : AddsNoLine pieces) :
    KeepsLines (keptOf pieces) (Piece.textOf pieces).toList := by
  constructor
  · exact count_newlines same
  · refine ⟨positionIn pieces, fun _ _ less => positionIn_lt pieces less, ?_⟩
    intro offset inside
    constructor
    · exact bytes_at_position inside
    · exact congrArg Nat.succ (newlines_at_position same inside)

theorem keepsLines_header (header : String) (oneLine : OneLine header) (same : AddsNoLine pieces) :
    KeepsLines (keptOf pieces) (header ++ Piece.textOf pieces).toList := by
  have all : AddsNoLine (.inserted 0 header :: pieces) := by
    intro entry member
    rcases List.mem_cons.mp member with rfl | later
    · exact oneLine
    · exact same entry later
  rw [String.toList_append, ← toList_textOf_inserted 0]
  exact keepsLines_textOf all

theorem added_of_pieces {source : List Char} (unlocated : tree.root.info.span = none)
    (done : Instrument.pieces tree stem source = .ok pieces) :
    ∀ entry ∈ addedOf pieces, ∃ plan, Instrument.plan tree stem entry.1 = .ok plan ∧
      (entry.2 = plan.before ∨ entry.2 = plan.after) := by
  intro entry member
  obtain ⟨kid, _, output, rendered, _, found⟩ := (pieces_filled done unlocated).added member
  exact added_planned kid output rendered entry found

theorem addsNoLine_of_pieces {source : List Char} (unlocated : tree.root.info.span = none)
    (done : Instrument.pieces tree stem source = .ok pieces)
    (name : OneLine tree.allocator.global) (start : OneLine stem) : AddsNoLine pieces := by
  intro entry member
  obtain ⟨plan, planned, same⟩ := added_of_pieces unlocated done entry member
  have oneLine := oneLine_plan name start planned
  rcases same with before | after
  · rw [before]
    exact oneLine.1
  · rw [after]
    exact oneLine.2

end Main

/-- Instrumenting a program keeps its text, inserts nothing but the fragments of its nodes, puts
these at the ends of the places of their nodes if every node has a location, and leaves all lines as
they are if the names it uses hold no newline. Names from checked settings hold none. -/
theorem instrumenting_only_inserts {global : String} {fileIndex : Nat} {program : Option Node}
    {tree : CoverTree} {stem source output : String}
    (covered : CoverTree.build global fileIndex program = .ok tree)
    (done : instrument tree stem source = .ok output) :
    ∃ pieces, Instrument.pieces tree stem source.toList = .ok pieces ∧
      output = Piece.textOf pieces ∧
      keptOf pieces = source.toList ∧
      (∀ id text, .inserted id text ∈ pieces → ∃ plan, Instrument.plan tree stem id = .ok plan ∧
        (text = plan.before ∨ text = plan.after)) ∧
      (program.all Node.isLocated = true → AllPlaced tree stem source.toList pieces) ∧
      (OneLine global → OneLine stem → ∀ path,
        ∃ text, Coverage.CoveredFile.instrumented ⟨path, source, tree⟩ stem = .ok text ∧
          KeepsLines source.toList text.toList) ∧
      ∀ config : Config, config.fault? = none →
        OneLine config.trackerGlobal ∧ OneLine config.temporaryStem := by
  obtain ⟨built, top⟩ := built_of_build covered
  have unlocated := root_unlocated covered
  obtain ⟨pieces, rendered, rfl⟩ := instrument_ok done
  have kept : keptOf pieces = source.toList :=
    Text.slice?_whole (pieces_filled rendered unlocated).keeps
  refine ⟨pieces, rendered, rfl, kept, ?_, ?_, ?_, fun _ => oneLine_of_config⟩
  · intro id text member
    exact added_of_pieces unlocated rendered (id, text) (mem_addedOf.mpr member)
  · intro located
    exact allPlaced_of_spanned built.grown top unlocated (spanned_of_build covered located) rendered
  · intro name start path
    have same : OneLine tree.allocator.global := by rwa [(origin_of_build covered).1]
    refine ⟨tree.setup ++ ";" ++ Piece.textOf pieces, ?_, ?_⟩
    · simp only [Coverage.CoveredFile.instrumented, done]
    · rw [← kept]
      apply keepsLines_header
      · exact oneLine_append.mpr ⟨oneLine_setup same, by decide⟩
      · exact addsNoLine_of_pieces unlocated rendered same start

def chainSource : String := "foo\n  .bar"

def chainedCalls : Node :=
  .mk "send"
    [.node (.mk "send" [.atom .nil, .atom (.text "foo")] (some ⟨0, 3, 1, 1⟩)), .atom (.text "bar")]
    (some ⟨0, 10, 1, 2⟩)

theorem instrumenting_only_inserts_chain :
    ∃ tree, CoverTree.build Probe.defaultGlobal 0 (some chainedCalls) = .ok tree ∧
      ∃ pieces text, Instrument.pieces tree defaultStem chainSource.toList = .ok pieces ∧
        keptOf pieces = chainSource.toList ∧
        AllPlaced tree defaultStem chainSource.toList pieces ∧
        Coverage.CoveredFile.instrumented ⟨"f.rb", chainSource, tree⟩ defaultStem = .ok text ∧
        KeepsLines chainSource.toList text.toList := by
  have known {tree : CoverTree}
      (covered : CoverTree.build Probe.defaultGlobal 0 (some chainedCalls) = .ok tree)
      (done : instrument tree defaultStem chainSource = .ok
        ("$_dc_cov[0][0]+=1;(_dc_l1=((_dc_l2=(foo);$_dc_cov[0][2]+=1;_dc_l2=_dc_l2)\n" ++
          "  .bar);$_dc_cov[0][1]+=1;_dc_l1=_dc_l1)")) :
      ∃ pieces text, Instrument.pieces tree defaultStem chainSource.toList = .ok pieces ∧
        keptOf pieces = chainSource.toList ∧
        AllPlaced tree defaultStem chainSource.toList pieces ∧
        Coverage.CoveredFile.instrumented ⟨"f.rb", chainSource, tree⟩ defaultStem = .ok text ∧
        KeepsLines chainSource.toList text.toList := by
    obtain ⟨pieces, rendered, _, kept, _, placed, lines, _⟩ :=
      instrumenting_only_inserts covered done
    obtain ⟨text, instrumented, same⟩ := lines (by decide) (by decide) "f.rb"
    exact ⟨pieces, text, rendered, kept, placed rfl, instrumented, same⟩
  refine ⟨_, rfl, known rfl ?_⟩
  decide +kernel

end ProbeCoverage.Instrument
