import ProbeCoverage.Proofs.Cover.Arena
import ProbeCoverage.Proofs.Instrument.Lines
import ProbeCoverage.Proofs.Probe.Naming

/-!
Where probes are put. A plan is a text; its sketch still tells literal text, temporaries and probes
apart. The sketches of the nodes of a covered tree hold the probe of a counter once at the counter's
site, and no other probes. A probe starts with the sigil of a global variable, which nothing else in
a plan holds, so the same can be read off the texts.
-/

namespace ProbeCoverage.Instrument

open Cover
open Probe (Allocator)

inductive Mark where
  | literal (value : String)
  | temporary (node : Nat)
  | probe (slot : Nat)
  deriving DecidableEq, Repr

namespace Mark

def text (stem : String) (allocator : Allocator) : Mark → String
  | .literal value => value
  | .temporary node => temporaryName stem node
  | .probe slot => allocator.probe slot

def slot? : Mark → Option Nat
  | .probe slot => some slot
  | _ => none

/-- What a segment becomes around `target`, given the slots of the counters. The node itself leaves
no mark. -/
def ofSegment? (slots : Tracker → Option Nat) (target : Nat) : Segment → Option Mark
  | .text value => some (.literal value)
  | .node => none
  | .temporary => some (.temporary target)
  | .tracker counter => (slots counter).map .probe

def textOf (stem : String) (allocator : Allocator) (marks : List Mark) : String :=
  String.join (marks.map (text stem allocator))

end Mark

structure Sketch where
  before : List Mark
  after : List Mark
  deriving DecidableEq, Repr

namespace Sketch

def empty : Sketch := ⟨[], []⟩

def around (outer inner : Sketch) : Sketch :=
  ⟨outer.before ++ inner.before, inner.after ++ outer.after⟩

def marks (sketch : Sketch) : List Mark :=
  sketch.before ++ sketch.after

def probes (sketch : Sketch) : List Nat :=
  sketch.marks.filterMap Mark.slot?

def plan (sketch : Sketch) (stem : String) (allocator : Allocator) : Plan :=
  ⟨Mark.textOf stem allocator sketch.before, Mark.textOf stem allocator sketch.after⟩

def ofPattern (slots : Tracker → Option Nat) (target : Nat) (pattern : Pattern) : Sketch :=
  ⟨(frontOf pattern).filterMap (Mark.ofSegment? slots target),
    (backOf pattern).filterMap (Mark.ofSegment? slots target)⟩

def ofPattern? (slots : Tracker → Option Nat) (target : Nat) (pattern : Option Pattern) : Sketch :=
  pattern.elim .empty (ofPattern slots target)

end Sketch

def ownSketch (tree : CoverTree) (cell : Cell) : Sketch :=
  .ofPattern? (tree.trackerSlot? cell.number) cell.number
    (cell.kind.ownPattern (cell.kind.isMatcher && tree.caseHasSubject cell.number))

def parentSketch (tree : CoverTree) (cell : Cell) : Sketch :=
  match cell.parent.bind tree.cell? with
  | some owner =>
      .ofPattern? (tree.trackerSlot? owner.number) cell.number
        (owner.kind.childPattern cell.index owner.children.length owner.tracked
          (cell.kind = .emptyBody))
  | none => .empty

def sketch (tree : CoverTree) (id : Nat) : Sketch :=
  match tree.cell? id with
  | some cell => (parentSketch tree cell).around (ownSketch tree cell)
  | none => .empty

section Writing

variable {stem : String} {allocator : Allocator} {slots : Tracker → Option Nat} {target : Nat}

theorem plan_around (outer inner : Sketch) :
    (outer.around inner).plan stem allocator =
      (outer.plan stem allocator).around (inner.plan stem allocator) := by
  simp [Sketch.plan, Sketch.around, Plan.around, Mark.textOf, String.join_append]

theorem fill_eq {segments : List Segment}
    (slotted : ∀ counter ∈ trackersOf segments, (slots counter).isSome = true) :
    Template.fill ⟨temporaryName stem target, fun counter => (slots counter).map allocator.probe⟩
        segments =
      some (Mark.textOf stem allocator (segments.filterMap (Mark.ofSegment? slots target))) := by
  induction segments with
  | nil => rfl
  | cons segment rest ih =>
      cases segment with
      | node => exact ih slotted
      | text | temporary =>
          rw [Template.fill, ih slotted]
          exact congrArg some String.join_cons.symm
      | tracker counter =>
          have mine := slotted counter List.mem_cons_self
          have later := ih fun other member => slotted other (List.mem_cons_of_mem counter member)
          cases here : slots counter with
          | none => simp [here] at mine
          | some slot =>
              have mark : Mark.ofSegment? slots target (.tracker counter) = some (.probe slot) := by
                simp [Mark.ofSegment?, here]
              rw [List.filterMap_cons_some mark]
              simp only [Template.fill, here, Option.map_some, later]
              exact congrArg some String.join_cons.symm

variable {tree : CoverTree} {owner : Cell} {pattern : Pattern}

theorem fillPattern_eq (once : pattern.count .node = 1)
    (declared : ∀ counter ∈ trackersOf pattern, counter ∈ owner.kind.trackers)
    (slotted : ∀ counter ∈ owner.kind.trackers,
      (tree.trackerSlot? owner.number counter).isSome = true) :
    fillPattern tree stem owner target pattern =
      .ok ((Sketch.ofPattern (tree.trackerSlot? owner.number) target pattern).plan stem
        tree.allocator) := by
  have holds : .node ∈ pattern := List.count_pos_iff.mp (by rw [once]; decide)
  have named : ∀ counter ∈ trackersOf (frontOf pattern) ++ trackersOf (backOf pattern),
      (tree.trackerSlot? owner.number counter).isSome = true := by
    rw [trackersOf_sides holds]
    exact fun counter member => slotted counter (declared counter member)
  simp only [fillPattern, ofPattern_ok declared once, Template.render]
  rw [fill_eq fun counter member => named counter (List.mem_append_left _ member),
    fill_eq fun counter member => named counter (List.mem_append_right _ member)]
  rfl

end Writing

section Plans

variable {tree : CoverTree} {stem : String} {id : Nat} {cell : Cell}

theorem slotted_of_found (grown : Grown tree) (found : tree.cell? id = some cell) :
    ∀ counter ∈ cell.kind.trackers, (tree.trackerSlot? cell.number counter).isSome = true := by
  intro counter owned
  rw [grown.numbered.number_of_cell? found]
  obtain ⟨slot, _, slotted⟩ := declared_slot grown found owned
  rw [slotted]
  rfl

theorem ownPlan_eq (grown : Grown tree) (found : tree.cell? id = some cell) :
    ownPlan tree stem cell = .ok ((ownSketch tree cell).plan stem tree.allocator) := by
  unfold ownPlan ownSketch
  simp only
  cases own : cell.kind.ownPattern (cell.kind.isMatcher && tree.caseHasSubject cell.number) with
  | none => rfl
  | some pattern =>
      exact fillPattern_eq (ownPattern_tidy own).1 (ownPattern_declared own)
        (slotted_of_found grown found)

theorem parentPlan_eq (grown : Grown tree) (found : tree.cell? id = some cell) :
    parentPlan tree stem cell = .ok ((parentSketch tree cell).plan stem tree.allocator) := by
  unfold parentPlan parentSketch
  cases stands : cell.parent with
  | none => rfl
  | some parent =>
      obtain ⟨_, owner, ownerFound, _⟩ := held_by_parent grown.numbered found stands
      simp only [ownerFound, Option.bind_some]
      cases asked : owner.kind.childPattern cell.index owner.children.length owner.tracked
          (cell.kind = .emptyBody) with
      | none => rfl
      | some pattern =>
          exact fillPattern_eq (childPattern_tidy asked).1 (childPattern_declared asked)
            (slotted_of_found grown ownerFound)

/-- Every node has a plan, and it is the text of its sketch. -/
theorem plan_eq (grown : Grown tree) (found : tree.cell? id = some cell) :
    Instrument.plan tree stem id = .ok ((sketch tree id).plan stem tree.allocator) := by
  simp only [Instrument.plan, sketch, found, ownPlan_eq grown found, parentPlan_eq grown found,
    plan_around]

end Plans

section Slots

variable {slots : Tracker → Option Nat} {target : Nat}

theorem probes_around (outer inner : Sketch) :
    (outer.around inner).probes.Perm (outer.probes ++ inner.probes) := by
  simp only [Sketch.probes, Sketch.marks, Sketch.around, List.filterMap_append, List.append_assoc]
  apply List.Perm.append_left
  rw [← List.append_assoc]
  exact List.perm_append_comm

theorem slots_of_segments (segments : List Segment) :
    (segments.filterMap (Mark.ofSegment? slots target)).filterMap Mark.slot? =
      (trackersOf segments).filterMap slots := by
  rw [trackersOf, List.filterMap_filterMap, List.filterMap_filterMap]
  apply List.filterMap_congr
  intro segment _
  cases segment with
  | tracker counter =>
      cases slot : slots counter <;> simp [Mark.ofSegment?, Segment.tracker?, slot, Mark.slot?]
  | text | node | temporary => rfl

theorem probes_ofPattern? {pattern : Option Pattern} (tidy : ∀ given ∈ pattern, Tidy given) :
    (Sketch.ofPattern? slots target pattern).probes =
      (pattern.toList.flatMap trackersOf).filterMap slots := by
  cases pattern with
  | none => rfl
  | some pattern =>
      have holds := (tidy pattern rfl).node_mem
      rw [Option.toList_some, List.flatMap_singleton, ← trackersOf_sides holds,
        List.filterMap_append, ← slots_of_segments, ← slots_of_segments, ← List.filterMap_append]
      rfl

variable {tree : CoverTree} {cell owner : Cell}

theorem probes_ownSketch (tree : CoverTree) (cell : Cell) :
    (ownSketch tree cell).probes =
      (cell.kind.trackers.filter fun counter =>
        counter.site cell.children.length cell.tracked = .owner).filterMap
          (tree.trackerSlot? cell.number) := by
  rw [ownSketch, probes_ofPattern? fun _ own => ownPattern_tidy own,
    ownPattern_trackers _ _ cell.children.length cell.tracked]

theorem probes_parentSketch (stands : cell.parent.bind tree.cell? = some owner)
    (filled : 0 < owner.children.length) :
    (parentSketch tree cell).probes =
      (owner.kind.trackers.filter fun counter =>
        counter.site owner.children.length owner.tracked = .child cell.index).filterMap
          (tree.trackerSlot? owner.number) := by
  rw [parentSketch, stands]
  simp only
  rw [probes_ofPattern? fun _ asked => childPattern_tidy asked, childPattern_trackers filled]

end Slots

def siteOf? (cell : Cell) (counter : Tracker) : Option Nat :=
  match counter.site cell.children.length cell.tracked with
  | .owner => some cell.number
  | .child slot => cell.child? slot
  | .nowhere => none

section Counting

variable {tree : CoverTree} {id other slot : Nat} {cell inner : Cell} {tracker : Tracker}

theorem trackers_nodup (kind : Kind) : kind.trackers.Nodup := by
  cases kind <;> decide

/-- A slot is counted by one counter of one node, so a list of counters of a node holds it once or
not at all. -/
theorem count_slots (grown : Grown tree) (found : tree.cell? other = some inner)
    (slotted : tree.trackerSlot? id tracker = some slot) (test : Tracker → Bool) :
    ((inner.kind.trackers.filter test).filterMap (tree.trackerSlot? other)).count slot =
      if other = id ∧ test tracker = true then 1 else 0 := by
  rw [List.count_filterMap]
  by_cases same : other = id
  · subst same
    have only (counter : Tracker) :
        (tree.trackerSlot? other counter == some slot) = (counter == tracker) := by
      rw [Bool.eq_iff_iff, beq_iff_eq, beq_iff_eq]
      constructor
      · exact fun here => (slots_distinct grown here slotted).2
      · rintro rfl
        exact slotted
    have owned : tracker ∈ inner.kind.trackers := by
      obtain ⟨_, _, node, occurs, rfl, owned, _⟩ := owner_of_trackerSlot? grown slotted
      rw [grown.numbered.cell?_of_occurs occurs] at found
      rwa [← Option.some.inj found]
    simp only [only]
    rw [← List.count_eq_countP, ((trackers_nodup inner.kind).filter test).count]
    simp [owned]
  · rw [if_neg fun both => same both.1, List.countP_eq_zero]
    intro counter _ here
    exact same (slots_distinct grown (beq_iff_eq.mp here) slotted).1

theorem count_own (grown : Grown tree) (found : tree.cell? id = some cell)
    (slotted : tree.trackerSlot? id tracker = some slot) (otherFound : tree.cell? other = some inner) :
    (ownSketch tree inner).probes.count slot =
      if other = id ∧ tracker.site cell.children.length cell.tracked = .owner then 1 else 0 := by
  rw [probes_ownSketch, grown.numbered.number_of_cell? otherFound,
    count_slots grown otherFound slotted]
  by_cases same : other = id
  · subst same
    obtain rfl : cell = inner := Option.some.inj (found.symm.trans otherFound)
    simp
  · simp [same]

theorem count_parent (grown : Grown tree) (found : tree.cell? id = some cell)
    (slotted : tree.trackerSlot? id tracker = some slot) (otherFound : tree.cell? other = some inner) :
    (parentSketch tree inner).probes.count slot =
      if inner.parent = some id ∧ tracker.site cell.children.length cell.tracked = .child inner.index
      then 1 else 0 := by
  cases stands : inner.parent with
  | none => simp [parentSketch, stands, Sketch.empty, Sketch.probes, Sketch.marks]
  | some parent =>
      obtain ⟨_, owner, ownerFound, held⟩ := held_by_parent grown.numbered otherFound stands
      have filled : 0 < owner.children.length := by
        have bound := (List.getElem?_eq_some_iff.mp held).1
        omega
      rw [probes_parentSketch (by rw [stands]; exact ownerFound) filled,
        grown.numbered.number_of_cell? ownerFound, count_slots grown ownerFound slotted]
      by_cases same : parent = id
      · subst same
        obtain rfl : cell = owner := Option.some.inj (found.symm.trans ownerFound)
        simp
      · simp [same]

theorem child?_eq_some {place child : Nat} :
    cell.child? place = some child ↔ cell.children[place]? = some (.node child) := by
  rw [Cell.child?, Option.bind_eq_some_iff]
  constructor
  · rintro ⟨branch, here, names⟩
    cases branch with
    | node inner =>
        cases names
        exact here
    | atom value => cases names
  · exact fun here => ⟨_, here, rfl⟩

theorem child?_eq_iff (grown : Grown tree) (found : tree.cell? id = some cell)
    (otherFound : tree.cell? other = some inner) (place : Nat) :
    cell.child? place = some other ↔ inner.parent = some id ∧ place = inner.index := by
  rw [child?_eq_some]
  constructor
  · intro held
    obtain ⟨kid, kidFound, stands, index⟩ := names_its_holder grown.numbered found held
    obtain rfl : inner = kid := Option.some.inj (otherFound.symm.trans kidFound)
    exact ⟨stands, index.symm⟩
  · rintro ⟨stands, rfl⟩
    obtain ⟨_, owner, ownerFound, held⟩ := held_by_parent grown.numbered otherFound stands
    obtain rfl : cell = owner := Option.some.inj (found.symm.trans ownerFound)
    exact held

theorem count_probes (grown : Grown tree) (found : tree.cell? id = some cell)
    (slotted : tree.trackerSlot? id tracker = some slot) (otherFound : tree.cell? other = some inner) :
    (sketch tree other).probes.count slot = if siteOf? cell tracker = some other then 1 else 0 := by
  have parts : (sketch tree other).probes.count slot =
      (parentSketch tree inner).probes.count slot + (ownSketch tree inner).probes.count slot := by
    rw [sketch, otherFound]
    simp only
    rw [(probes_around _ _).count_eq, List.count_append]
  rw [parts, count_parent grown found slotted otherFound, count_own grown found slotted otherFound,
    siteOf?]
  cases tracker.site cell.children.length cell.tracked with
  | owner => simp [grown.numbered.number_of_cell? found, eq_comm]
  | child place => simp [child?_eq_iff grown found otherFound place]
  | nowhere => simp

theorem count_all {probes : Nat → List Nat} {site : Option Nat} {nodes : List Nat}
    (apart : nodes.Nodup)
    (each : ∀ node ∈ nodes, (probes node).count slot = if site = some node then 1 else 0) :
    (nodes.flatMap probes).count slot = if ∃ node ∈ nodes, site = some node then 1 else 0 := by
  induction nodes with
  | nil => simp
  | cons node rest ih =>
      rw [List.nodup_cons] at apart
      have later := ih apart.2 fun other member => each other (List.mem_cons_of_mem node member)
      rw [List.flatMap_cons, List.count_append, each node List.mem_cons_self, later]
      by_cases here : site = some node
      · subst here
        simp [apart.1]
      · simp [here]

theorem slot_of_probe {pattern : Option Pattern} {target : Nat}
    (tidy : ∀ given ∈ pattern, Tidy given)
    (member : slot ∈ (Sketch.ofPattern? (tree.trackerSlot? id) target pattern).probes) :
    ∃ counter, tree.trackerSlot? id counter = some slot := by
  rw [probes_ofPattern? tidy] at member
  rcases List.mem_filterMap.mp member with ⟨counter, _, slotted⟩
  exact ⟨counter, slotted⟩

theorem owner_of_probe (member : slot ∈ (sketch tree other).probes) :
    ∃ id counter, tree.trackerSlot? id counter = some slot := by
  unfold sketch at member
  split at member
  · rename_i inner _
    rcases List.mem_append.mp ((probes_around _ _).mem_iff.mp member) with outside | inside
    · unfold parentSketch at outside
      split at outside
      · rename_i owner _
        exact ⟨owner.number, slot_of_probe (fun _ asked => childPattern_tidy asked) outside⟩
      · cases outside
    · exact ⟨inner.number, slot_of_probe (fun _ own => ownPattern_tidy own) inside⟩
  · cases member

end Counting

section Marks

variable {tree : CoverTree} {id : Nat} {mark : Mark}

/-- Marks that the plan of a node may hold: no literal text starts a probe, and a temporary is the
node's own. -/
def Mark.FitsNode (id : Nat) : Mark → Prop
  | .literal value => '$' ∉ value.toList
  | .temporary node => node = id
  | .probe _ => True

theorem fits_ofSegment? {slots : Tracker → Option Nat} {segment : Segment}
    (plain : segment.lacks '$' = true) (made : Mark.ofSegment? slots id segment = some mark) :
    mark.FitsNode id := by
  cases segment with
  | text value =>
      cases made
      exact of_decide_eq_true (p := '$' ∉ value.toList) plain
  | node => cases made
  | temporary =>
      cases made
      rfl
  | tracker counter =>
      rcases Option.map_eq_some_iff.mp made with ⟨slot, _, rfl⟩
      trivial

theorem fits_ofPattern? {slots : Tracker → Option Nat} {pattern : Option Pattern}
    (tidy : ∀ given ∈ pattern, Tidy given) :
    ∀ mark ∈ (Sketch.ofPattern? slots id pattern).marks, mark.FitsNode id := by
  cases pattern with
  | none => exact fun _ member => nomatch member
  | some pattern =>
      have plain := List.all_eq_true.mp ((tidy pattern rfl).2 '$' (by decide))
      intro mark member
      rcases List.mem_append.mp member with front | back
      · rcases List.mem_filterMap.mp front with ⟨segment, inside, made⟩
        exact fits_ofSegment? (plain segment ((List.takeWhile_prefix _).subset inside)) made
      · rcases List.mem_filterMap.mp back with ⟨segment, inside, made⟩
        have behind := List.mem_of_mem_drop inside
        exact fits_ofSegment? (plain segment ((List.dropWhile_suffix _).subset behind)) made

theorem marks_around {outer inner : Sketch} (member : mark ∈ (outer.around inner).marks) :
    mark ∈ outer.marks ∨ mark ∈ inner.marks := by
  simp only [Sketch.marks, Sketch.around, List.mem_append] at *
  tauto

theorem fits_sketch (numbered : tree.Numbered) :
    ∀ mark ∈ (sketch tree id).marks, mark.FitsNode id := by
  intro mark member
  unfold sketch at member
  split at member
  · rename_i cell found
    rw [← numbered.number_of_cell? found]
    rcases marks_around member with outside | inside
    · unfold parentSketch at outside
      split at outside
      · exact fits_ofPattern? (fun _ asked => childPattern_tidy asked) mark outside
      · cases outside
    · exact fits_ofPattern? (fun _ own => ownPattern_tidy own) mark inside
  · cases member

end Marks

def occurrences (needle : List Char) : List Char → Nat
  | [] => 0
  | c :: rest => (if needle.isPrefixOf (c :: rest) then 1 else 0) + occurrences needle rest

section Reading

variable {sigil : Char} {needle first rest : List Char}

theorem occurrences_skip (free : sigil ∉ first) :
    occurrences (sigil :: needle) (first ++ rest) = occurrences (sigil :: needle) rest := by
  induction first with
  | nil => rfl
  | cons c first ih =>
      rw [List.mem_cons, not_or] at free
      rw [List.cons_append, occurrences, ih free.2]
      simp [List.isPrefixOf, free.1]

variable {allocator : Allocator} {stem : String} {slot : Nat} {id : Nat}

def Sigiled (global : String) : Prop :=
  ∃ name, global.toList = '$' :: name ∧ '$' ∉ name

theorem sigil_not_digit {number : Nat} : '$' ∉ Nat.toDigits 10 number := by
  intro member
  have digit := Nat.isDigit_of_mem_toDigits (by decide) (by decide) member
  revert digit
  decide

theorem probe_sigiled (sigiled : Sigiled allocator.global) (slot : Nat) :
    ∃ tail, (allocator.probe slot).toList = '$' :: tail ∧ '$' ∉ tail := by
  rcases sigiled with ⟨name, same, free⟩
  refine ⟨_, by rw [Probe.toList_probe, same]; rfl, ?_⟩
  simp [free, sigil_not_digit]

theorem occurrences_free (sigiled : Sigiled allocator.global) (free : '$' ∉ first) :
    occurrences (allocator.probe slot).toList (first ++ rest) =
      occurrences (allocator.probe slot).toList rest := by
  rcases probe_sigiled sigiled slot with ⟨needle, same, _⟩
  rw [same]
  exact occurrences_skip free

theorem occurrences_probe (sigiled : Sigiled allocator.global) (other : Nat) :
    occurrences (allocator.probe slot).toList ((allocator.probe other).toList ++ rest) =
      (if other = slot then 1 else 0) + occurrences (allocator.probe slot).toList rest := by
  rcases probe_sigiled sigiled other with ⟨tail, same, free⟩
  have front : ((allocator.probe slot).toList.isPrefixOf ((allocator.probe other).toList ++ rest)) =
      true ↔ other = slot := by
    rw [List.isPrefixOf_iff_prefix]
    constructor
    · exact fun front => (Probe.probe_front rfl front).2.symm
    · rintro rfl
      exact List.prefix_append _ _
  rw [same, List.cons_append] at front ⊢
  rw [occurrences, occurrences_free sigiled free]
  by_cases mine : other = slot
  · rw [if_pos (front.mpr mine), if_pos mine]
  · rw [if_neg (mt front.mp mine), if_neg mine]

/-- Probes can be read where they are put, and nowhere else. -/
theorem occurrences_textOf (sigiled : Sigiled allocator.global) (start : '$' ∉ stem.toList)
    {marks : List Mark} (fits : ∀ mark ∈ marks, mark.FitsNode id) :
    occurrences (allocator.probe slot).toList (Mark.textOf stem allocator marks).toList =
      (marks.filterMap Mark.slot?).count slot := by
  induction marks with
  | nil => rfl
  | cons mark marks ih =>
      have later := ih fun other member => fits other (List.mem_cons_of_mem mark member)
      have split : (Mark.textOf stem allocator (mark :: marks)).toList =
          (mark.text stem allocator).toList ++ (Mark.textOf stem allocator marks).toList := by
        rw [Mark.textOf, List.map_cons, String.join_cons, String.toList_append]
        rfl
      have fitting := fits mark List.mem_cons_self
      rw [split]
      cases mark with
      | probe other =>
          rw [Mark.text, occurrences_probe sigiled, later]
          simp [Mark.slot?, List.count_cons, Nat.add_comm]
      | literal value =>
          rw [Mark.text, occurrences_free sigiled fitting, later]
          rfl
      | temporary node =>
          have free : '$' ∉ (temporaryName stem node).toList := by
            simp [temporaryName, Decimal.natText, String.toList_append, start, sigil_not_digit]
          rw [Mark.text, occurrences_free sigiled free, later]
          rfl

theorem sigiled_of_isGlobalName {global : String}
    (named : Config.isGlobalName global.toList = true) : Sigiled global := by
  unfold Config.isGlobalName at named
  split at named
  · rename_i name same
    exact ⟨name, same, not_mem_identifier named (by decide)⟩
  · cases named

end Reading

structure Sited (tree : CoverTree) (stem : String) : Prop where
  planned : ∀ id ∈ tree.ids,
    Instrument.plan tree stem id = .ok ((sketch tree id).plan stem tree.allocator)
  -- in the plan of each node, and in all plans together
  placed : ∀ id cell tracker, tree.cell? id = some cell → tracker ∈ cell.kind.trackers →
    ∃ slot, tree.trackerSlot? id tracker = some slot ∧
      (∀ other ∈ tree.ids, (sketch tree other).probes.count slot =
        if siteOf? cell tracker = some other then 1 else 0) ∧
      (tree.ids.flatMap fun other => (sketch tree other).probes).count slot =
        if (siteOf? cell tracker).isSome then 1 else 0
  declared : ∀ id, ∀ slot ∈ (sketch tree id).probes, ∃ owner cell tracker,
    tree.cell? owner = some cell ∧ tracker ∈ cell.kind.trackers ∧
      tree.trackerSlot? owner tracker = some slot
  allocated : ∃ size, tree.setup =
      "(" ++ tree.allocator.global ++ "||=[])[" ++ Decimal.natText tree.allocator.fileIndex ++
        "]||=Array.new(" ++ Decimal.natText size ++ ",0)" ∧
    ∀ id, ∀ slot ∈ (sketch tree id).probes, slot < size
  distinct : ∀ slot other, tree.allocator.probe slot = tree.allocator.probe other → slot = other
  temporaries : ∀ id node, .temporary node ∈ (sketch tree id).marks → node = id
  names : ∀ node other, temporaryName stem node = temporaryName stem other → node = other
  -- under names that pass their check, the texts of the plans show no other probes either
  readable : Config.isGlobalName tree.allocator.global.toList = true →
    Config.isLocalStem stem.toList = true → ∀ id plan, Instrument.plan tree stem id = .ok plan →
      ∀ slot, occurrences (tree.allocator.probe slot).toList plan.before.toList +
          occurrences (tree.allocator.probe slot).toList plan.after.toList =
        (sketch tree id).probes.count slot

section Main

variable {tree : CoverTree} {stem : String}

theorem cell_of_mem_ids {id : Nat} (member : id ∈ tree.ids) : ∃ cell, tree.cell? id = some cell :=
  ⟨_, Array.getElem?_eq_getElem (List.mem_range.mp member)⟩

theorem mem_ids_of_cell? {id : Nat} {cell : Cell} (found : tree.cell? id = some cell) :
    id ∈ tree.ids :=
  List.mem_range.mpr (Array.getElem?_eq_some_iff.mp found).1

theorem site_mem_ids (grown : Grown tree) {id other : Nat} {cell : Cell} {tracker : Tracker}
    (found : tree.cell? id = some cell) (site : siteOf? cell tracker = some other) :
    other ∈ tree.ids := by
  unfold siteOf? at site
  split at site
  · rw [grown.numbered.number_of_cell? found] at site
    rw [← Option.some.inj site]
    exact mem_ids_of_cell? found
  · obtain ⟨inner, innerFound, _⟩ :=
      names_its_holder grown.numbered found (child?_eq_some.mp site)
    exact mem_ids_of_cell? innerFound
  · cases site

theorem placed_probes (grown : Grown tree) {id : Nat} {cell : Cell} {tracker : Tracker}
    (found : tree.cell? id = some cell) (owned : tracker ∈ cell.kind.trackers) :
    ∃ slot, tree.trackerSlot? id tracker = some slot ∧
      (∀ other ∈ tree.ids, (sketch tree other).probes.count slot =
        if siteOf? cell tracker = some other then 1 else 0) ∧
      (tree.ids.flatMap fun other => (sketch tree other).probes).count slot =
        if (siteOf? cell tracker).isSome then 1 else 0 := by
  obtain ⟨slot, _, slotted⟩ := declared_slot grown found owned
  have each : ∀ other ∈ tree.ids, (sketch tree other).probes.count slot =
      if siteOf? cell tracker = some other then 1 else 0 := by
    intro other member
    obtain ⟨inner, otherFound⟩ := cell_of_mem_ids member
    exact count_probes grown found slotted otherFound
  refine ⟨slot, slotted, each, ?_⟩
  have apart : tree.ids.Nodup := List.nodup_range
  rw [count_all apart each]
  cases site : siteOf? cell tracker with
  | none => simp
  | some other => simp [site_mem_ids grown found site]

end Main

/-- Every counter of a covered tree has its probe at one place, and every probe its counter. -/
theorem probes_sited {tree : CoverTree} (built : Built tree) (stem : String) : Sited tree stem := by
  have grown := built.grown
  have owners {id slot : Nat} (member : slot ∈ (sketch tree id).probes) :
      ∃ owner cell tracker, tree.cell? owner = some cell ∧ tracker ∈ cell.kind.trackers ∧
        tree.trackerSlot? owner tracker = some slot := by
    obtain ⟨owner, tracker, slotted⟩ := owner_of_probe member
    obtain ⟨_, _, node, occurs, rfl, owned, _⟩ := owner_of_trackerSlot? grown slotted
    exact ⟨_, _, tracker, grown.numbered.cell?_of_occurs occurs, owned, slotted⟩
  constructor
  case planned =>
    intro id member
    obtain ⟨cell, found⟩ := cell_of_mem_ids member
    exact plan_eq grown found
  case placed => exact fun id cell tracker found owned => placed_probes grown found owned
  case declared => exact fun id slot member => owners member
  case allocated =>
    refine ⟨tree.allocator.nextSlot, rfl, ?_⟩
    intro id slot member
    obtain ⟨owner, _, tracker, _, _, slotted⟩ := owners member
    exact grown.trackerSlot?_lt slotted
  case distinct => exact fun slot other same => (Probe.probe_inj rfl same).2
  case temporaries => exact fun id node member => fits_sketch grown.numbered _ member
  case names => exact fun node other same => Probe.temporaryName_inj same
  case readable =>
    intro global start id plan planned slot
    have sigiled := sigiled_of_isGlobalName global
    rw [Config.isLocalStem, Bool.and_eq_true] at start
    have free := not_mem_identifier start.1 (c := '$') (by decide)
    have fits : ∀ mark ∈ (sketch tree id).marks, mark.FitsNode id := fits_sketch grown.numbered
    cases found : tree.cell? id with
    | none => simp [Instrument.plan, found] at planned
    | some cell =>
        rw [plan_eq grown found] at planned
        rw [← Except.ok.inj planned, Sketch.plan,
          occurrences_textOf sigiled free fun mark member => fits mark (List.mem_append_left _ member),
          occurrences_textOf sigiled free fun mark member => fits mark (List.mem_append_right _ member),
          ← List.count_append, ← List.filterMap_append]
        rfl

/-- `x ||= (if a then end)`: a conditional without a branch to count, below an assignment that counts
two things. -/
def assignedConditional : Ast.Node :=
  .mk "or_asgn"
    [.node (.mk "lvasgn" [.atom (.text "x")] none),
     .node (.mk "if" [.node (.mk "lvar" [.atom (.text "a")] none), .atom .nil, .atom .nil] none)]
    none

theorem probes_sited_assigned :
    ∃ tree, CoverTree.ofProgram Probe.defaultGlobal 0 assignedConditional = .ok tree ∧
      (tree.ids.map fun id => (sketch tree id).probes) = [[], [0, 1], [], [2], [], [], []] ∧
      tree.trackerSlot? 3 .branch = some 3 ∧ Sited tree defaultStem := by
  have sited {tree : CoverTree}
      (covered : CoverTree.ofProgram Probe.defaultGlobal 0 assignedConditional = .ok tree) :
      Sited tree defaultStem := probes_sited (.program covered) defaultStem
  exact ⟨_, rfl, rfl, rfl, sited rfl⟩

end ProbeCoverage.Instrument
