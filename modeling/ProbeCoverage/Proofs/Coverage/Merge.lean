import Mathlib.Data.List.Induction
import Mathlib.Data.String.Basic
import ProbeCoverage.Coverage.Summary

/-!
Merging summaries. Additions to a breakdown commute, whatever tags they are for, so a breakdown does
not depend on the order in which the nodes come. Adding up the entries of a breakdown comes to the
same as adding up the nodes behind it, so nothing is lost when files are summed up first and merged
afterwards.
-/

namespace ProbeCoverage.Coverage

namespace TagCount

theorem plus_comm (first second : TagCount) : first.plus second = second.plus first := by
  simp [plus, Nat.add_comm]

theorem plus_assoc (first second third : TagCount) :
    (first.plus second).plus third = first.plus (second.plus third) := by
  simp [plus, Nat.add_assoc]

def ofTag (tag : String) (nodes : List NodeCoverage) : TagCount where
  executed := nodes.countP fun node => node.tag = tag ∧ node.wasExecuted = some true
  executable := nodes.countP fun node => node.tag = tag ∧ node.wasExecuted.isSome = true

theorem ofTag_append (tag : String) (first second : List NodeCoverage) :
    ofTag tag (first ++ second) = (ofTag tag first).plus (ofTag tag second) := by
  simp [ofTag, plus]

theorem ofTag_eq_zero {tag : String} {nodes : List NodeCoverage}
    (none : ∀ node ∈ nodes, node.tag = tag → node.wasExecuted = none) :
    ofTag tag nodes = ⟨0, 0⟩ := by
  have noneRan : nodes.countP (fun node => node.tag = tag ∧ node.wasExecuted = some true) = 0 := by
    apply List.countP_eq_zero.mpr
    intro node member
    simp +contextual [none node member]
  have noneCould : nodes.countP (fun node => node.tag = tag ∧ node.wasExecuted.isSome = true) =
      0 := by
    apply List.countP_eq_zero.mpr
    intro node member
    simp +contextual [none node member]
  rw [ofTag, noneRan, noneCould]

theorem ofTag_own {node : NodeCoverage} {executed : Bool}
    (ran : node.wasExecuted = some executed) :
    ofTag node.tag [node] = ⟨if executed then 1 else 0, 1⟩ := by
  simp [ofTag, ran, List.countP_cons]

theorem plus_zero (count : TagCount) : count.plus ⟨0, 0⟩ = count := rfl

theorem ofTag_le (tag : String) (nodes : List NodeCoverage) :
    (ofTag tag nodes).executed ≤ (ofTag tag nodes).executable := by
  apply List.countP_mono_left
  intro node _ ran
  simp only [decide_eq_true_eq] at ran ⊢
  exact ⟨ran.1, by simp [ran.2]⟩

end TagCount

namespace Breakdown

variable {tag other : String} {count more : TagCount}

theorem add_head (total : TagCount) (rest : Breakdown) :
    add tag count ((tag, total) :: rest) = (tag, total.plus count) :: rest := by
  simp [add]

theorem add_before {first : String} (before : tag < first) (total : TagCount) (rest : Breakdown) :
    add tag count ((first, total) :: rest) = (tag, count) :: (first, total) :: rest := by
  simp [add, before.ne, before]

theorem add_behind {first : String} (behind : first < tag) (total : TagCount) (rest : Breakdown) :
    add tag count ((first, total) :: rest) = (first, total) :: add tag count rest := by
  simp [add, behind.ne', behind.not_gt]

theorem add_add_same (breakdown : Breakdown) :
    add tag more (add tag count breakdown) = add tag (count.plus more) breakdown := by
  induction breakdown with
  | nil => exact add_head count []
  | cons entry rest ih =>
      obtain ⟨first, total⟩ := entry
      rcases lt_trichotomy tag first with before | rfl | behind
      · rw [add_before before, add_before before, add_head]
      · rw [add_head, add_head, add_head, TagCount.plus_assoc]
      · rw [add_behind behind, add_behind behind, add_behind behind, ih]

theorem add_add_of_lt (order : tag < other) (breakdown : Breakdown) :
    add tag count (add other more breakdown) = add other more (add tag count breakdown) := by
  induction breakdown with
  | nil =>
      change add tag count [(other, more)] = add other more [(tag, count)]
      rw [add_before order, add_behind order]
      rfl
  | cons entry rest ih =>
      obtain ⟨first, total⟩ := entry
      rcases lt_trichotomy other first with before | rfl | behind
      · have far := order.trans before
        rw [add_before before, add_before order, add_before far, add_behind order,
          add_before before]
      · rw [add_head, add_before order, add_before order, add_behind order, add_head]
      · rw [add_behind behind]
        rcases lt_trichotomy tag first with near | rfl | far
        · rw [add_before near, add_before near, add_behind order, add_behind behind]
        · rw [add_head, add_head, add_behind behind]
        · rw [add_behind far, add_behind far, add_behind behind, ih]

theorem add_add_comm (breakdown : Breakdown) :
    add tag count (add other more breakdown) = add other more (add tag count breakdown) := by
  rcases lt_trichotomy tag other with before | rfl | behind
  · exact add_add_of_lt before breakdown
  · rw [add_add_same, add_add_same, TagCount.plus_comm]
  · exact (add_add_of_lt behind breakdown).symm

theorem plus_add_start (first second : Breakdown) :
    plus (add tag count first) second = add tag count (plus first second) := by
  unfold plus
  induction second generalizing first with
  | nil => rfl
  | cons entry rest ih =>
      rw [List.foldl_cons, List.foldl_cons, add_add_comm, ih]

theorem plus_add (first second : Breakdown) :
    plus first (add tag count second) = add tag count (plus first second) := by
  induction second generalizing first with
  | nil => rfl
  | cons entry rest ih =>
      obtain ⟨name, total⟩ := entry
      have step (start : Breakdown) (later : Breakdown) (own : TagCount) :
          plus start ((name, own) :: later) = plus (add name own start) later := rfl
      rcases lt_trichotomy tag name with before | rfl | behind
      · rw [add_before before, ← plus_add_start]
        rfl
      · rw [add_head, step, step, ← add_add_same, plus_add_start]
      · rw [add_behind behind, step, step, ih]

theorem plus_addNode (first second : Breakdown) (node : NodeCoverage) :
    plus first (addNode second node) = addNode (plus first second) node := by
  unfold addNode
  cases node.wasExecuted with
  | none => rfl
  | some executed => exact plus_add first second

theorem plus_ofNodes (first : Breakdown) (nodes : List NodeCoverage) :
    plus first (ofNodes nodes) = nodes.foldl addNode first := by
  suffices folded : ∀ second, plus first (nodes.foldl addNode second) =
      nodes.foldl addNode (plus first second) from folded []
  induction nodes with
  | nil => simp
  | cons node rest ih =>
      intro second
      rw [List.foldl_cons, ih, plus_addNode]
      rfl

theorem plus_plus_comm (first second third : Breakdown) :
    plus (plus first second) third = plus (plus first third) second := by
  unfold plus
  rw [← List.foldl_append, ← List.foldl_append]
  apply List.Perm.foldl_eq' List.perm_append_comm
  intro entry _ later _ breakdown
  exact add_add_comm breakdown

section Tags

def tags (breakdown : Breakdown) : List String :=
  breakdown.map Prod.fst

theorem mem_tags {breakdown : Breakdown} (member : (tag, count) ∈ breakdown) :
    tag ∈ breakdown.tags :=
  List.mem_map.mpr ⟨_, member, rfl⟩

theorem mem_tags_add (breakdown : Breakdown) :
    other ∈ (add tag count breakdown).tags ↔ other = tag ∨ other ∈ breakdown.tags := by
  induction breakdown with
  | nil => simp [add, tags]
  | cons entry rest ih =>
      obtain ⟨first, total⟩ := entry
      rcases lt_trichotomy tag first with before | rfl | behind
      · simp [add_before before, tags]
      · simp [add_head, tags]
      · have later := ih
        simp only [add_behind behind, tags, List.map_cons, List.mem_cons] at later ⊢
        rw [later]
        exact or_left_comm

theorem ascending_add {breakdown : Breakdown} (ascending : breakdown.tags.Pairwise (· < ·)) :
    (add tag count breakdown).tags.Pairwise (· < ·) := by
  induction breakdown with
  | nil => simp [add, tags]
  | cons entry rest ih =>
      obtain ⟨first, total⟩ := entry
      obtain ⟨smallest, later⟩ := List.pairwise_cons.mp ascending
      rcases lt_trichotomy tag first with before | rfl | behind
      · rw [add_before before]
        refine List.pairwise_cons.mpr ⟨?_, ascending⟩
        intro name member
        rcases List.mem_cons.mp member with rfl | inside
        · exact before
        · exact before.trans (smallest name inside)
      · rw [add_head]
        exact ascending
      · rw [add_behind behind]
        refine List.pairwise_cons.mpr ⟨?_, ih later⟩
        intro name member
        rcases (mem_tags_add rest).mp member with rfl | inside
        · exact behind
        · exact smallest name inside

/-- What an entry is after an addition: an entry for another tag, which was there before, or the
entry for the tag, with what was there before. -/
theorem mem_add {breakdown : Breakdown} (ascending : breakdown.tags.Pairwise (· < ·))
    (member : (other, more) ∈ add tag count breakdown) :
    (other ≠ tag ∧ (other, more) ∈ breakdown) ∨
      (other = tag ∧ tag ∉ breakdown.tags ∧ more = count) ∨
      ∃ total, other = tag ∧ (tag, total) ∈ breakdown ∧ more = total.plus count := by
  induction breakdown with
  | nil =>
      obtain ⟨rfl, rfl⟩ : other = tag ∧ more = count := by simpa [add] using member
      exact .inr (.inl ⟨rfl, by simp [tags], rfl⟩)
  | cons entry rest ih =>
      obtain ⟨first, total⟩ := entry
      obtain ⟨smallest, later⟩ := List.pairwise_cons.mp ascending
      rcases lt_trichotomy tag first with before | rfl | behind
      · have absent : tag ∉ tags ((first, total) :: rest) := by
          intro inside
          rcases List.mem_cons.mp inside with rfl | deeper
          · exact lt_irrefl _ before
          · exact lt_asymm before (smallest tag deeper)
        rw [add_before before] at member
        rcases List.mem_cons.mp member with same | inside
        · obtain ⟨rfl, rfl⟩ := Prod.mk.inj same
          exact .inr (.inl ⟨rfl, absent, rfl⟩)
        · refine .inl ⟨?_, inside⟩
          rintro rfl
          exact absent (mem_tags inside)
      · rw [add_head] at member
        rcases List.mem_cons.mp member with same | inside
        · obtain ⟨rfl, rfl⟩ := Prod.mk.inj same
          exact .inr (.inr ⟨total, rfl, List.mem_cons_self, rfl⟩)
        · exact .inl ⟨(smallest other (mem_tags inside)).ne', List.mem_cons_of_mem _ inside⟩
      · rw [add_behind behind] at member
        rcases List.mem_cons.mp member with same | inside
        · obtain ⟨rfl, rfl⟩ := Prod.mk.inj same
          exact .inl ⟨behind.ne, List.mem_cons_self⟩
        · rcases ih later inside with ⟨apart, old⟩ | ⟨same, absent, fresh⟩ | ⟨old, same, had, sum⟩
          · exact .inl ⟨apart, List.mem_cons_of_mem _ old⟩
          · refine .inr (.inl ⟨same, ?_, fresh⟩)
            intro inTags
            rcases List.mem_cons.mp inTags with rfl | deeper
            · exact lt_irrefl _ behind
            · exact absent deeper
          · exact .inr (.inr ⟨old, same, List.mem_cons_of_mem _ had, sum⟩)

end Tags

/-- The counts of a breakdown are those of the nodes: its tags are the tags of executable nodes in
increasing order, each once, and each has the number of its nodes. -/
structure Tallies (breakdown : Breakdown) (nodes : List NodeCoverage) : Prop where
  ascending : breakdown.tags.Pairwise (· < ·)
  listed : ∀ tag, tag ∈ breakdown.tags ↔
    ∃ node ∈ nodes, node.tag = tag ∧ node.wasExecuted.isSome = true
  exact : ∀ tag count, (tag, count) ∈ breakdown → count = .ofTag tag nodes

theorem tallies_nil : Tallies [] [] where
  ascending := .nil
  listed := by simp [tags]
  exact := by simp

theorem Tallies.addNode {nodes : List NodeCoverage} {breakdown : Breakdown}
    (tallies : Tallies breakdown nodes) (node : NodeCoverage) :
    Tallies (breakdown.addNode node) (nodes ++ [node]) := by
  cases ran : node.wasExecuted with
  | none =>
      have same : breakdown.addNode node = breakdown := by simp [Breakdown.addNode, ran]
      rw [same]
      refine ⟨tallies.ascending, ?_, ?_⟩
      · intro tag
        simp [tallies.listed, or_and_right, exists_or, ran]
      · intro tag count member
        have nothing : TagCount.ofTag tag [node] = ⟨0, 0⟩ :=
          TagCount.ofTag_eq_zero (by simp [ran])
        rw [tallies.exact tag count member, TagCount.ofTag_append, nothing, TagCount.plus_zero]
  | some executed =>
      have same : breakdown.addNode node =
          add node.tag ⟨if executed then 1 else 0, 1⟩ breakdown := by simp [Breakdown.addNode, ran]
      rw [same]
      refine ⟨ascending_add tallies.ascending, ?_, ?_⟩
      · intro tag
        rw [mem_tags_add, tallies.listed]
        constructor
        · rintro (rfl | ⟨earlier, inside, own, could⟩)
          · exact ⟨node, by simp, rfl, by simp [ran]⟩
          · exact ⟨earlier, by simp [inside], own, could⟩
        · rintro ⟨found, inside, own, could⟩
          rcases List.mem_append.mp inside with earlier | last
          · exact .inr ⟨found, earlier, own, could⟩
          · obtain rfl := List.mem_singleton.mp last
            exact .inl own.symm
      · intro tag count member
        rw [TagCount.ofTag_append]
        rcases mem_add tallies.ascending member with
          ⟨apart, old⟩ | ⟨rfl, absent, rfl⟩ | ⟨total, rfl, old, rfl⟩
        · have nothing : TagCount.ofTag tag [node] = ⟨0, 0⟩ :=
            TagCount.ofTag_eq_zero (by simp [apart.symm])
          rw [tallies.exact tag count old, nothing, TagCount.plus_zero]
        · have nothing : TagCount.ofTag node.tag nodes = ⟨0, 0⟩ := by
            apply TagCount.ofTag_eq_zero
            intro earlier inside own
            by_contra could
            apply absent
            rw [tallies.listed]
            exact ⟨earlier, inside, own, Option.isSome_iff_ne_none.mpr could⟩
          rw [nothing, TagCount.plus_comm, TagCount.plus_zero, TagCount.ofTag_own ran]
        · rw [tallies.exact _ total old, TagCount.ofTag_own ran]

theorem ofNodes_concat (nodes : List NodeCoverage) (node : NodeCoverage) :
    ofNodes (nodes ++ [node]) = (ofNodes nodes).addNode node := by
  rw [ofNodes, List.foldl_append]
  rfl

theorem tallies_ofNodes (nodes : List NodeCoverage) : Tallies (ofNodes nodes) nodes := by
  induction nodes using List.reverseRecOn with
  | nil => exact tallies_nil
  | append_singleton nodes node ih =>
      rw [ofNodes_concat]
      exact ih.addNode node

section Totals

variable {number : TagCount → Nat}
variable (additive : ∀ first second : TagCount,
  number (first.plus second) = number first + number second)

include additive

theorem total_add (breakdown : Breakdown) (start : Nat) :
    (add tag count breakdown).foldl (fun total entry => total + number entry.2) start =
      breakdown.foldl (fun total entry => total + number entry.2) (start + number count) := by
  induction breakdown generalizing start with
  | nil => rfl
  | cons entry rest ih =>
      obtain ⟨first, total⟩ := entry
      rcases lt_trichotomy tag first with before | rfl | behind
      · rw [add_before before, List.foldl_cons]
      · rw [add_head]
        simp only [List.foldl_cons, additive]
        congr 1
        omega
      · rw [add_behind behind, List.foldl_cons, List.foldl_cons, ih]
        congr 1
        omega

theorem total_ofNodes (counted : NodeCoverage → Bool)
    (silent : ∀ node, node.wasExecuted = none → counted node = false)
    (each : ∀ node executed, node.wasExecuted = some executed →
      number ⟨if executed then 1 else 0, 1⟩ = if counted node then 1 else 0)
    (nodes : List NodeCoverage) :
    (ofNodes nodes).foldl (fun total entry => total + number entry.2) 0 = nodes.countP counted := by
  suffices folded : ∀ breakdown start,
      (nodes.foldl Breakdown.addNode breakdown).foldl
        (fun total entry => total + number entry.2) start =
      breakdown.foldl (fun total entry => total + number entry.2) (start + nodes.countP counted) by
    simpa [ofNodes] using folded [] 0
  induction nodes with
  | nil => simp
  | cons node rest ih =>
      intro breakdown start
      rw [List.foldl_cons, ih, List.countP_cons]
      cases ran : node.wasExecuted with
      | none => simp [Breakdown.addNode, ran, silent node ran]
      | some executed =>
          simp only [Breakdown.addNode, ran]
          rw [total_add additive, each node executed ran]
          congr 1
          omega

end Totals

theorem executable_ofNodes (nodes : List NodeCoverage) :
    (ofNodes nodes).executable = nodes.countP fun node => node.wasExecuted.isSome := by
  apply total_ofNodes (fun _ _ => rfl)
  · intro node silent
    simp [silent]
  · intro node executed ran
    simp [ran]

theorem executed_ofNodes (nodes : List NodeCoverage) :
    (ofNodes nodes).executed = nodes.countP fun node => node.wasExecuted = some true := by
  apply total_ofNodes (fun _ _ => rfl)
  · intro node silent
    simp [silent]
  · intro node executed ran
    simp [ran]

end Breakdown

theorem executable_parts (nodes : List NodeCoverage) :
    (nodes.countP fun node => node.wasExecuted.isSome) =
      (nodes.countP fun node => node.wasExecuted = some true) +
        nodes.countP NodeCoverage.isMissed := by
  induction nodes with
  | nil => rfl
  | cons node rest ih =>
      rw [List.countP_cons, List.countP_cons, List.countP_cons, ih]
      cases ran : node.wasExecuted with
      | none => simp [NodeCoverage.isMissed, ran]
      | some executed =>
          cases executed <;> simp [NodeCoverage.isMissed, ran] <;> omega

/-- Merging summaries of nodes is summing up all the nodes at once, in whatever order the summaries
come. The sum is right: its breakdown has the counts of the nodes by tag, no tag and no total has
more executed than executable nodes, and what is missed are the nodes that did not run. -/
theorem merge_summaries (files : List (List NodeCoverage × Option Float))
    (threshold : Option Float) :
    let summaries := files.map fun file => Summary.ofNodes file.1 file.2
    let nodes := (files.map Prod.fst).flatten
    let whole := Summary.ofNodes nodes threshold
    Summary.merge summaries threshold = whole ∧
    (∀ order, order.Perm summaries → Summary.merge order threshold = whole) ∧
    Breakdown.Tallies whole.breakdown nodes ∧
    whole.executed ≤ whole.executable ∧
    (∀ entry ∈ whole.breakdown, entry.2.executed ≤ entry.2.executable) ∧
    whole.missed + whole.executed = whole.executable ∧
    whole.missed = nodes.countP NodeCoverage.isMissed := by
  intro summaries nodes whole
  have merged : Summary.merge summaries threshold = whole := by
    have folded : summaries.foldl
        (fun (total : Breakdown) summary => total.plus summary.breakdown) [] =
          Breakdown.ofNodes nodes := by
      rw [Breakdown.ofNodes, List.foldl_flatten, List.foldl_map, List.foldl_map]
      congr 1
      funext breakdown file
      exact Breakdown.plus_ofNodes breakdown file.1
    rw [Summary.merge, folded]
    rfl
  have ordered (order : List Summary) (perm : order.Perm summaries) :
      Summary.merge order threshold = whole := by
    rw [← merged, Summary.merge, Summary.merge]
    congr 1
    apply perm.foldl_eq'
    intro first _ second _ total
    exact Breakdown.plus_plus_comm total first.breakdown second.breakdown
  have tallies : Breakdown.Tallies whole.breakdown nodes := Breakdown.tallies_ofNodes nodes
  have parts : whole.executable = whole.executed + nodes.countP NodeCoverage.isMissed := by
    change (Breakdown.ofNodes nodes).executable = (Breakdown.ofNodes nodes).executed + _
    rw [Breakdown.executable_ofNodes, Breakdown.executed_ofNodes, executable_parts]
  have byTag : ∀ entry ∈ whole.breakdown, entry.2.executed ≤ entry.2.executable := by
    intro entry member
    rw [tallies.exact entry.1 entry.2 member]
    exact TagCount.ofTag_le entry.1 nodes
  have missed : whole.missed = whole.executable - whole.executed := rfl
  exact ⟨merged, ordered, tallies, by omega, byTag, by omega, by omega⟩

def reportedAs (tag : String) (wasExecuted : Option Bool) : NodeCoverage :=
  ⟨0, tag, none, wasExecuted.isSome, wasExecuted, ⟨0, 0, 0⟩, []⟩

/-- Calls of two files, one of which ran, together with a conditional that did not. -/
theorem merge_summaries_calls :
    let first := [reportedAs "send" (some true), reportedAs "if" (some false)]
    let second := [reportedAs "begin" none, reportedAs "send" (some false)]
    let summaries := [Summary.ofNodes first none, Summary.ofNodes second (some 50)]
    let whole := Summary.ofNodes (first ++ second) (some 80)
    summaries.reverse.Perm summaries ∧
    Summary.merge summaries.reverse (some 80) = whole ∧
    whole.breakdown = [("if", ⟨0, 1⟩), ("send", ⟨1, 2⟩)] ∧ whole.missed = 2 := by
  intro first second summaries whole
  have perm : summaries.reverse.Perm summaries := List.reverse_perm summaries
  obtain ⟨_, ordered, _⟩ := merge_summaries [(first, none), (second, some 50)] (some 80)
  exact ⟨perm, ordered summaries.reverse perm, by decide, by decide⟩

end ProbeCoverage.Coverage
