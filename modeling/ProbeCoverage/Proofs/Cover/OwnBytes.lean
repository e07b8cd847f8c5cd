import ProbeCoverage.Proofs.Cover.Identity

/-!
The bytes that belong to a node alone. They are found by a sweep over the spans of its children in
the order of their starts. The sweep leaves exactly the bytes that no child holds, whatever the
spans are: they may overlap, hold each other, or end before they start. Where every child lies within
its parent, the pieces that are left come in order, apart from each other, and none is empty.
-/

namespace ProbeCoverage

def Ast.Span.holds (span : Ast.Span) (offset : Nat) : Bool :=
  span.startByte ≤ offset && offset < span.endByte

namespace Cover

open Ast (Span)

theorem span_holds {span : Span} {offset : Nat} :
    span.holds offset = true ↔ span.startByte ≤ offset ∧ offset < span.endByte := by
  simp [Span.holds]

theorem range_holds {range : ByteRange} {offset : Nat} :
    range.holds offset = true ↔ range.start ≤ offset ∧ offset < range.stop := by
  simp [ByteRange.holds]

theorem gaps_cons_hold {span : Span} {rest : List Span} {stop cursor offset : Nat} :
    (∃ range ∈ gaps stop cursor (span :: rest), range.holds offset = true) ↔
      (cursor ≤ offset ∧ offset < span.startByte ∧ offset < stop) ∨
        ∃ range ∈ gaps stop (max cursor span.endByte) rest, range.holds offset = true := by
  rw [gaps]
  by_cases free : cursor < span.startByte
  · simp only [free, if_true, List.exists_mem_cons_iff, range_holds, Nat.lt_min]
  · simp [free]
    omega

theorem gaps_hold {spans : List Span} {stop cursor offset : Nat}
    (sorted : spans.Pairwise fun first second => first.startByte ≤ second.startByte) :
    (∃ range ∈ gaps stop cursor spans, range.holds offset = true) ↔
      (cursor ≤ offset ∧ offset < stop) ∧ ∀ span ∈ spans, ¬span.holds offset = true := by
  induction spans generalizing cursor with
  | nil =>
      by_cases room : cursor < stop
      · simp [gaps, room, range_holds]
      · simp [gaps, room]
        omega
  | cons span rest ih =>
      obtain ⟨smallest, later⟩ := List.pairwise_cons.mp sorted
      rw [gaps_cons_hold, ih later]
      constructor
      · rintro (⟨lower, before, upper⟩ | ⟨⟨lower, upper⟩, free⟩)
        · -- what lies in front of the first span lies in front of all of them
          refine ⟨⟨lower, upper⟩, ?_⟩
          intro other member held
          have start := (span_holds.mp held).1
          rcases List.mem_cons.mp member with rfl | inside
          · omega
          · have least := smallest other inside
            omega
        · refine ⟨⟨by omega, upper⟩, ?_⟩
          intro other member held
          rcases List.mem_cons.mp member with rfl | inside
          · have stop := (span_holds.mp held).2
            omega
          · exact free other inside held
      · rintro ⟨⟨lower, upper⟩, free⟩
        by_cases before : offset < span.startByte
        · exact .inl ⟨lower, before, upper⟩
        · have passed := free span List.mem_cons_self
          rw [span_holds] at passed
          refine .inr ⟨⟨by omega, upper⟩, ?_⟩
          intro other member
          exact free other (List.mem_cons_of_mem _ member)

/-- Where no span is turned round or reaches behind the end, each gap is a piece of text of its own:
none is empty, and each one ends before the next one starts. -/
theorem gaps_apart {spans : List Span} {stop cursor : Nat}
    (tame : ∀ span ∈ spans, span.startByte ≤ span.endByte ∧ span.endByte ≤ stop) :
    (∀ range ∈ gaps stop cursor spans, cursor ≤ range.start ∧ range.start < range.stop) ∧
      (gaps stop cursor spans).Pairwise fun first second => first.stop ≤ second.start := by
  induction spans generalizing cursor with
  | nil =>
      by_cases room : cursor < stop
      · simp [gaps, room]
      · simp [gaps, room]
  | cons span rest ih =>
      obtain ⟨ordered, inside⟩ := tame span List.mem_cons_self
      obtain ⟨bounds, apart⟩ := @ih (max cursor span.endByte) fun other member =>
        tame other (List.mem_cons_of_mem _ member)
      rw [gaps]
      by_cases free : cursor < span.startByte
      · rw [if_pos free]
        constructor
        · intro range member
          rcases List.mem_cons.mp member with rfl | later
          · dsimp only
            omega
          · have bound := bounds range later
            omega
        · refine List.pairwise_cons.mpr ⟨?_, apart⟩
          intro range later
          have bound := (bounds range later).1
          dsimp only
          omega
      · rw [if_neg free]
        refine ⟨?_, apart⟩
        intro range later
        have bound := bounds range later
        omega

namespace Covered

def span? (node : Covered) : Option Span := node.info.span

def holds (node : Covered) (offset : Nat) : Bool :=
  node.span?.any fun span => span.holds offset

def kidSpans (node : Covered) : List Span :=
  node.kids.filterMap span?

theorem holds_iff {node : Covered} {offset : Nat} :
    node.holds offset = true ↔ ∃ span, node.span? = some span ∧ span.holds offset = true := by
  rw [holds, Option.any_eq_true]

theorem kids_hold_iff {node : Covered} {offset : Nat} :
    (∃ kid ∈ node.kids, kid.holds offset = true) ↔
      ∃ span ∈ node.kidSpans, span.holds offset = true := by
  constructor
  · rintro ⟨kid, member, held⟩
    obtain ⟨span, located, inside⟩ := holds_iff.mp held
    exact ⟨span, List.mem_filterMap.mpr ⟨kid, member, located⟩, inside⟩
  · rintro ⟨span, member, held⟩
    obtain ⟨kid, inside, located⟩ := List.mem_filterMap.mp member
    exact ⟨kid, inside, holds_iff.mpr ⟨span, located, held⟩⟩

end Covered

section Sweep

variable {tree : CoverTree} {node : Covered} {above : Option Covered} {slot : Nat}
variable (numbered : tree.Numbered) (occurs : Occurs tree.root above slot node)

include numbered occurs

theorem childSpans_perm (owner : Option Nat) (place : Nat) :
    (tree.childSpans (node.cell owner place)).Perm node.kidSpans := by
  have spans : ((node.cell owner place).nodes.filterMap fun child =>
      (tree.cell? child).bind Cell.span) = node.kidSpans := by
    rw [Covered.cell_nodes, List.filterMap_map, Covered.kidSpans]
    apply List.filterMap_congr
    intro kid member
    obtain ⟨index, held⟩ := Covered.mem_kids.mp member
    simp only [Function.comp_apply, numbered.cell?_of_occurs (.child index occurs held),
      Option.bind_some]
    rfl
  rw [CoverTree.childSpans, spans]
  exact List.mergeSort_perm _ _

omit numbered occurs in
theorem childSpans_sorted (cell : Cell) :
    (tree.childSpans cell).Pairwise fun first second => first.startByte ≤ second.startByte := by
  have sorted := @List.pairwise_mergeSort Span
    (fun first second => first.startByte ≤ second.startByte)
    (fun first second third => by simpa using Nat.le_trans)
    (fun first second => by simpa using Nat.le_total first.startByte second.startByte)
    (cell.nodes.filterMap fun child => (tree.cell? child).bind Cell.span)
  exact sorted.imp of_decide_eq_true

/-- The bytes of a node alone are those of its span that no child holds. -/
theorem properRange_holds {offset : Nat} :
    (∃ range ∈ tree.properRange node.number, range.holds offset = true) ↔
      node.holds offset = true ∧ ¬∃ kid ∈ node.kids, kid.holds offset = true := by
  have located : (node.cell (above.map Covered.number) slot).span = node.span? := rfl
  rw [CoverTree.properRange, numbered.cell?_of_occurs occurs, Covered.kids_hold_iff,
    Covered.holds_iff]
  simp only [located]
  cases node.span? with
  | none => simp
  | some span =>
      simp only [gaps_hold (childSpans_sorted _), (childSpans_perm numbered occurs _ _).mem_iff]
      simp [span_holds]

end Sweep

def CoverTree.SpanBelow (tree : CoverTree) (id : Nat) (span : Span) : Prop :=
  ∃ child cell, tree.cell? child = some cell ∧ cell.parent = some id ∧ cell.span = some span

theorem spanBelow_iff {tree : CoverTree} (grown : Grown tree) {node : Covered}
    {above : Option Covered} {slot : Nat} (occurs : Occurs tree.root above slot node)
    {span : Span} : tree.SpanBelow node.number span ↔ span ∈ node.kidSpans := by
  constructor
  · rintro ⟨child, cell, found, stands, located⟩
    obtain ⟨holder, place, kid, kidOccurs, rfl, rfl⟩ := grown.numbered.occurs_of_cell? found
    rw [Covered.cell_parent, Option.map_eq_some_iff] at stands
    obtain ⟨parent, rfl, same⟩ := stands
    obtain ⟨⟨_, _, parentOccurs⟩, held⟩ := kidOccurs.parent
    obtain rfl := grown.unique parentOccurs occurs same
    exact List.mem_filterMap.mpr ⟨kid, Covered.mem_kids.mpr ⟨place, held⟩, located⟩
  · intro member
    obtain ⟨kid, inside, located⟩ := List.mem_filterMap.mp member
    obtain ⟨place, held⟩ := Covered.mem_kids.mp inside
    exact ⟨_, _, grown.numbered.cell?_of_occurs (.child place occurs held), rfl, located⟩

/-- The bytes of a node alone are those of its span that lie in no span right below it, whatever
these spans are. Where they are spans inside that of the node, the ranges are pieces of text in
order. -/
theorem properRange_exact {tree : CoverTree} (built : Built tree) {id : Nat} {cell : Cell}
    {span : Span} (found : tree.cell? id = some cell) (located : cell.span = some span) :
    (∀ offset, (∃ range ∈ tree.properRange id, range.holds offset = true) ↔
      span.holds offset = true ∧ ∀ child, tree.SpanBelow id child → ¬child.holds offset = true) ∧
    ((∀ child, tree.SpanBelow id child →
        child.startByte ≤ child.endByte ∧ span.contains child = true) →
      (∀ range ∈ tree.properRange id, range.start < range.stop) ∧
      (tree.properRange id).Pairwise fun first second => first.stop ≤ second.start) := by
  have grown := built.grown
  obtain ⟨above, slot, node, occurs, rfl, rfl⟩ := grown.numbered.occurs_of_cell? found
  have perm := childSpans_perm grown.numbered occurs (above.map Covered.number) slot
  have ranges : tree.properRange node.number = gaps span.endByte span.startByte
      (tree.childSpans (node.cell (above.map Covered.number) slot)) := by
    rw [CoverTree.properRange, found]
    dsimp only
    rw [located]
  rw [ranges]
  constructor
  · intro offset
    rw [gaps_hold (childSpans_sorted _), span_holds]
    simp only [perm.mem_iff, spanBelow_iff grown occurs]
  · intro tame
    have inside : ∀ child ∈ tree.childSpans (node.cell (above.map Covered.number) slot),
        child.startByte ≤ child.endByte ∧ child.endByte ≤ span.endByte := by
      intro child member
      obtain ⟨ordered, within⟩ :=
        tame child ((spanBelow_iff grown occurs).mpr (perm.mem_iff.mp member))
      simp only [Span.contains, Bool.and_eq_true, decide_eq_true_eq] at within
      exact ⟨ordered, within.2⟩
    obtain ⟨bounds, apart⟩ := @gaps_apart _ span.endByte span.startByte inside
    exact ⟨fun range member => (bounds range member).2, apart⟩

def spannedGroup (spans : List (Nat × Nat)) : Ast.Node :=
  .mk "begin"
    (spans.map fun (start, stop) =>
      .node (.mk "lvar" [.atom (.text "a")] (some ⟨start, stop, 1, 1⟩)))
    (some ⟨1, 10, 1, 1⟩)

/-- Spans that are turned round, reach out of the group, overlap and are out of order, and others
that are not. -/
theorem properRange_exact_wild_and_tame :
    (∃ tree, CoverTree.ofProgram Probe.defaultGlobal 0
        (spannedGroup [(6, 3), (8, 15), (2, 5), (2, 4)]) = .ok tree ∧
      tree.properRange 1 = [⟨1, 2⟩, ⟨5, 6⟩, ⟨5, 8⟩] ∧
      ∀ child, tree.SpanBelow 1 child → ¬child.holds 6 = true) ∧
    ∃ tree, CoverTree.ofProgram Probe.defaultGlobal 0
        (spannedGroup [(4, 6), (2, 2), (5, 10)]) = .ok tree ∧
      tree.properRange 1 = [⟨1, 2⟩, ⟨2, 4⟩] ∧
      (tree.properRange 1).Pairwise fun first second => first.stop ≤ second.start := by
  have wild {tree : CoverTree}
      (covered : CoverTree.ofProgram Probe.defaultGlobal 0
        (spannedGroup [(6, 3), (8, 15), (2, 5), (2, 4)]) = .ok tree)
      (located : (tree.cell? 1).map Cell.span = some (some ⟨1, 10, 1, 1⟩))
      (ranges : tree.properRange 1 = [⟨1, 2⟩, ⟨5, 6⟩, ⟨5, 8⟩]) :
      ∀ child, tree.SpanBelow 1 child → ¬child.holds 6 = true := by
    obtain ⟨cell, found, spanned⟩ := Option.map_eq_some_iff.mp located
    have held : ∃ range ∈ tree.properRange 1, range.holds 6 = true := by simp [ranges, range_holds]
    exact (((properRange_exact (.program covered) found spanned).1 6).mp held).2
  have tame {tree : CoverTree}
      (covered : CoverTree.ofProgram Probe.defaultGlobal 0
        (spannedGroup [(4, 6), (2, 2), (5, 10)]) = .ok tree)
      (located : (tree.cell? 1).map Cell.span = some (some ⟨1, 10, 1, 1⟩))
      (checked : (tree.cells.toList.all fun cell => cell.parent != some 1 ||
        cell.span.all fun child => child.startByte ≤ child.endByte &&
          Span.contains ⟨1, 10, 1, 1⟩ child) = true) :
      (tree.properRange 1).Pairwise fun first second => first.stop ≤ second.start := by
    obtain ⟨cell, found, spanned⟩ := Option.map_eq_some_iff.mp located
    refine ((properRange_exact (.program covered) found spanned).2 ?_).2
    rintro child ⟨id, below, here, stands, has⟩
    have inside := List.all_eq_true.mp checked below (by simpa using Array.mem_of_getElem? here)
    simpa [stands, has] using inside
  have swept : gaps 10 1 ([⟨6, 3, 1, 1⟩, ⟨8, 15, 1, 1⟩, ⟨2, 5, 1, 1⟩, ⟨2, 4, 1, 1⟩].mergeSort
      fun first second => first.startByte ≤ second.startByte) = [⟨1, 2⟩, ⟨5, 6⟩, ⟨5, 8⟩] := by
    simp [List.mergeSort, List.MergeSort.Internal.splitInTwo, gaps]
  have sweptTame : gaps 10 1 ([⟨4, 6, 1, 1⟩, ⟨2, 2, 1, 1⟩, ⟨5, 10, 1, 1⟩].mergeSort
      fun first second => first.startByte ≤ second.startByte) = [⟨1, 2⟩, ⟨2, 4⟩] := by
    simp [List.mergeSort, List.MergeSort.Internal.splitInTwo, gaps]
  exact ⟨⟨_, rfl, swept, wild rfl rfl swept⟩, _, rfl, sweptTame, tame rfl rfl (by decide)⟩

end Cover

end ProbeCoverage
