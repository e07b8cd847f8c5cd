import Mathlib.Data.List.Flatten
import Mathlib.Data.List.Perm.Basic
import ProbeCoverage.Instrument.Splice
import ProbeCoverage.Proofs.Cover.Identity
import ProbeCoverage.Proofs.Text.Cutting

/-!
What rendering makes of a node. The pieces of a node are its fragments around the text of its span,
into which the pieces of its children are put by where they start. The kept text of these pieces is
the text of the span, byte for byte, whatever the spans of the children are: a child that would lose
or repeat a byte is refused.
-/

namespace ProbeCoverage.Instrument

open Cover

def keptOf (pieces : List Piece) : List Char :=
  pieces.flatMap Piece.keptText

def Piece.added? : Piece → Option (Nat × String)
  | .kept _ => none
  | .inserted node text => some (node, text)

def addedOf (pieces : List Piece) : List (Nat × String) :=
  pieces.filterMap Piece.added?

def ownersOf (pieces : List Piece) : List Nat :=
  (addedOf pieces).map Prod.fst

section Views

variable (first second : List Piece) (text : List Char) (id : Nat) (added : String)

@[simp] theorem keptOf_nil : keptOf [] = [] := rfl

@[simp] theorem keptOf_append : keptOf (first ++ second) = keptOf first ++ keptOf second := by
  simp [keptOf]

@[simp] theorem keptOf_kept : keptOf (.kept text :: first) = text ++ keptOf first := rfl

@[simp] theorem keptOf_inserted : keptOf (.inserted id added :: first) = keptOf first := rfl

@[simp] theorem addedOf_nil : addedOf [] = [] := rfl

@[simp] theorem addedOf_append : addedOf (first ++ second) = addedOf first ++ addedOf second := by
  simp [addedOf]

@[simp] theorem addedOf_kept : addedOf (.kept text :: first) = addedOf first := rfl

@[simp] theorem addedOf_inserted :
    addedOf (.inserted id added :: first) = (id, added) :: addedOf first := rfl

theorem mem_addedOf {pieces : List Piece} {id : Nat} {added : String} :
    (id, added) ∈ addedOf pieces ↔ Piece.inserted id added ∈ pieces := by
  rw [addedOf, List.mem_filterMap]
  constructor
  · rintro ⟨piece, member, same⟩
    cases piece with
    | kept text => cases same
    | inserted node text =>
        obtain ⟨rfl, rfl⟩ := Prod.mk.inj (Option.some.inj same)
        exact member
  · intro member
    exact ⟨_, member, rfl⟩

@[simp] theorem ownersOf_nil : ownersOf [] = [] := rfl

@[simp] theorem ownersOf_append : ownersOf (first ++ second) = ownersOf first ++ ownersOf second := by
  simp [ownersOf]

@[simp] theorem ownersOf_inserted :
    ownersOf (.inserted id added :: first) = id :: ownersOf first := rfl

end Views

section Splicing

variable {source : List Char} {node stop cursor : Nat} {edit : Edit} {edits : List Edit}
variable {pieces : List Piece}

theorem splice_nil_ok (done : splice source node stop cursor [] = .ok pieces) :
    ∃ text, Text.slice? cursor stop source = some text ∧ pieces = [.kept text] := by
  unfold splice keep at done
  split at done
  · rename_i piece kept
    split at kept
    · rename_i text found
      obtain rfl := Except.ok.inj kept
      exact ⟨text, found, (Except.ok.inj done).symm⟩
    · cases kept
  · cases done

theorem splice_cons_ok (done : splice source node stop cursor (edit :: edits) = .ok pieces) :
    ∃ text later, rangeFault? source edit.child edit.range = none ∧
      Text.slice? cursor edit.range.start source = some text ∧
      splice source node stop edit.range.stop edits = .ok later ∧
      pieces = .kept text :: (edit.output ++ later) := by
  rw [splice] at done
  split at done
  · cases done
  split at done
  · cases done
  rename_i fits
  unfold keep at done
  split at done
  · cases done
  rename_i piece kept
  split at kept
  · rename_i text found
    obtain rfl := Except.ok.inj kept
    split at done
    · rename_i later follows
      exact ⟨text, later, fits, found, follows, (Except.ok.inj done).symm⟩
    · cases done
  · cases kept

theorem rangeFault?_eq_none_iff {range : ByteRange} :
    rangeFault? source node range = none ↔ Text.Sliceable source range.start range.stop := by
  unfold rangeFault?
  constructor
  · intro fits
    split at fits
    · cases fits
    rename_i within
    split at fits
    · cases fits
    rename_i cuts
    simp only [Bool.or_eq_true, decide_eq_true_eq, not_or, Nat.not_lt] at within
    simp only [Bool.or_eq_true, Bool.not_eq_true', not_or, Bool.not_eq_false] at cuts
    exact ⟨within.1, within.2, cuts.1, cuts.2⟩
  · rintro ⟨ordered, inside, opens, closes⟩
    simp [opens, closes, Nat.not_lt.mpr ordered, Nat.not_lt.mpr inside]

def Edit.Faithful (source : List Char) (edit : Edit) : Prop :=
  Text.isBoundary edit.range.start source = true →
    Text.slice? edit.range.start edit.range.stop source = some (keptOf edit.output)

theorem splice_keeps (faithful : ∀ edit ∈ edits, edit.Faithful source)
    (done : splice source node stop cursor edits = .ok pieces) :
    Text.slice? cursor stop source = some (keptOf pieces) := by
  induction edits generalizing cursor pieces with
  | nil =>
      obtain ⟨text, found, rfl⟩ := splice_nil_ok done
      simpa using found
  | cons edit edits ih =>
      obtain ⟨text, later, fits, found, follows, rfl⟩ := splice_cons_ok done
      have own := faithful edit List.mem_cons_self (rangeFault?_eq_none_iff.mp fits).opens
      have rest := ih (fun other member => faithful other (List.mem_cons_of_mem edit member)) follows
      rw [keptOf_kept, keptOf_append]
      exact Text.slice?_join found (Text.slice?_join own rest)

theorem addedOf_splice (done : splice source node stop cursor edits = .ok pieces) :
    addedOf pieces = edits.flatMap fun edit => addedOf edit.output := by
  induction edits generalizing cursor pieces with
  | nil =>
      obtain ⟨text, _, rfl⟩ := splice_nil_ok done
      rfl
  | cons edit edits ih =>
      obtain ⟨text, later, _, _, follows, rfl⟩ := splice_cons_ok done
      rw [addedOf_kept, addedOf_append, ih follows, List.flatMap_cons]

/-- The pieces of an edit stand at the start of its range, between those of the edits in front of it
and those of the edits behind it. -/
theorem splice_places {before after : List Edit}
    (faithful : ∀ edit ∈ before, edit.Faithful source)
    (done : splice source node stop cursor (before ++ edit :: after) = .ok pieces) :
    ∃ front back, pieces = front ++ (edit.output ++ back) ∧
      cursor + Text.byteCount (keptOf front) = edit.range.start ∧
      addedOf front = (before.flatMap fun other => addedOf other.output) ∧
      addedOf back = after.flatMap fun other => addedOf other.output := by
  induction before generalizing cursor pieces with
  | nil =>
      obtain ⟨text, later, _, found, follows, rfl⟩ := splice_cons_ok done
      obtain ⟨_, _, _, _, size⟩ := Text.slice?_eq_some_iff.mp found
      exact ⟨[.kept text], later, rfl, by simpa using size, rfl, addedOf_splice follows⟩
  | cons first before ih =>
      obtain ⟨text, later, fits, found, follows, rfl⟩ := splice_cons_ok done
      obtain ⟨front, back, rfl, size, frontAdded, backAdded⟩ :=
        ih (fun other member => faithful other (List.mem_cons_of_mem first member)) follows
      have own := faithful first List.mem_cons_self (rangeFault?_eq_none_iff.mp fits).opens
      obtain ⟨_, _, _, _, gap⟩ := Text.slice?_eq_some_iff.mp found
      obtain ⟨_, _, _, _, width⟩ := Text.slice?_eq_some_iff.mp own
      refine ⟨.kept text :: (first.output ++ front), back, by simp, ?_, ?_, backAdded⟩
      · simp only [keptOf_kept, keptOf_append, Text.byteCount_append]
        omega
      · rw [addedOf_kept, addedOf_append, frontAdded, List.flatMap_cons]

end Splicing

/-- The part of the source that a node stands for: its span, or the point of its anchor. -/
def place? (source : List Char) (span : Option Ast.Span) (anchor : Option Anchor) :
    Option ByteRange :=
  match span with
  | some span => some (rangeOf span)
  | none => anchor.map fun anchor => ⟨resolve source anchor, resolve source anchor⟩

def around (id : Nat) (plan : Plan) (inner : List Piece) : List Piece :=
  .inserted id plan.before :: (inner ++ [.inserted id plan.after])

theorem textOf_around_isEmpty (id : Nat) (plan : Plan) :
    (Piece.textOf (around id plan [])).isEmpty = true ↔ plan = .empty := by
  obtain ⟨before, after⟩ := plan
  simp [Piece.textOf, around, Piece.text, Plan.empty, String.join]

section Rendering

variable (tree : CoverTree) (stem : String) (source : List Char)

/-- A node that has no span and no fragments leaves no trace, nor does anything below it. -/
def Silent (node : Covered) : Prop :=
  node.info.span = none ∧ plan tree stem node.number = .ok .empty

structure EditOf (node : Covered) (edit : Edit) : Prop where
  rendered : renderNode tree stem source node = .ok edit.output
  placed : place? source node.info.span node.info.anchor = some edit.range
  loud : ¬Silent tree stem node

/-- The source in a range with the pieces of a node's children put in. Every child is put in once,
in some order, but for the silent ones. -/
def Filled (node : Covered) (range : ByteRange) (inner : List Piece) : Prop :=
  ∃ shown edits, List.Subperm shown node.kids ∧
    (∀ kid ∈ node.kids, kid ∈ shown ∨ Silent tree stem kid) ∧
    List.Forall₂ (EditOf tree stem source) shown edits ∧
    splice source node.number range.stop range.start edits = .ok inner

variable {tree stem source} {node : Covered} {range : ByteRange} {output inner : List Piece}

theorem renderNode_unlocated (done : renderNode tree stem source node = .ok output)
    (unlocated : node.info.span = none) :
    ∃ plan, Instrument.plan tree stem node.number = .ok plan ∧
      output = around node.number plan [] := by
  obtain ⟨info, branches⟩ := node
  rw [renderNode] at done
  split at done
  · cases done
  rename_i plan planned
  simp only [show info.span = none from unlocated] at done
  exact ⟨plan, planned, (Except.ok.inj done).symm⟩

theorem silent_iff (done : renderNode tree stem source node = .ok output)
    (unlocated : node.info.span = none) :
    Silent tree stem node ↔ (Piece.textOf output).isEmpty = true := by
  obtain ⟨plan, planned, rfl⟩ := renderNode_unlocated done unlocated
  rw [textOf_around_isEmpty, Silent, planned]
  simp [unlocated]

theorem renderChildren_ok {branches : List Branch} {edits : List Edit}
    (done : renderChildren tree stem source branches = .ok edits) :
    ∃ shown, List.Sublist shown (branches.filterMap Branch.covered?) ∧
      (∀ kid ∈ branches.filterMap Branch.covered?, kid ∈ shown ∨ Silent tree stem kid) ∧
      List.Forall₂ (EditOf tree stem source) shown edits := by
  induction branches generalizing edits with
  | nil =>
      obtain rfl := Except.ok.inj done
      exact ⟨[], .slnil, by simp, .nil⟩
  | cons branch rest ih =>
      cases branch with
      | atom value =>
          rw [renderChildren] at done
          rw [List.filterMap_cons_none (Branch.covered?_atom value)]
          exact ih done
      | node kid =>
          rw [List.filterMap_cons_some (Branch.covered?_node kid)]
          -- What follows once the first child is known to have an edit, with or without a span.
          have join {edit : Edit} {later : List Edit} (own : EditOf tree stem source kid edit)
              (follows : renderChildren tree stem source rest = .ok later) :
              ∃ shown, List.Sublist shown (kid :: rest.filterMap Branch.covered?) ∧
                (∀ other ∈ kid :: rest.filterMap Branch.covered?,
                  other ∈ shown ∨ Silent tree stem other) ∧
                List.Forall₂ (EditOf tree stem source) shown (edit :: later) := by
            obtain ⟨shown, part, all, edited⟩ := ih follows
            refine ⟨kid :: shown, part.cons_cons kid, ?_, .cons own edited⟩
            intro other member
            rcases List.mem_cons.mp member with rfl | inside
            · exact .inl List.mem_cons_self
            · exact (all other inside).imp_left (List.mem_cons_of_mem kid)
          rw [renderChildren] at done
          split at done
          · cases done
          rename_i output rendered
          split at done
          · rename_i span located
            split at done
            · rename_i later follows
              obtain rfl := Except.ok.inj done
              refine join ⟨rendered, by simp [place?, located], ?_⟩ follows
              rintro ⟨unlocated, _⟩
              rw [located] at unlocated
              cases unlocated
            · cases done
          · rename_i unlocated
            split at done
            · rename_i nothing
              obtain ⟨shown, part, all, edited⟩ := ih done
              refine ⟨shown, part.cons kid, ?_, edited⟩
              intro other member
              rcases List.mem_cons.mp member with rfl | inside
              · exact .inr ((silent_iff rendered unlocated).mpr nothing)
              · exact all other inside
            · rename_i something
              split at done
              · cases done
              · rename_i anchor anchored
                split at done
                · rename_i later follows
                  obtain rfl := Except.ok.inj done
                  refine join ⟨rendered, by simp [place?, unlocated, anchored], ?_⟩ follows
                  exact fun silent => something ((silent_iff rendered unlocated).mp silent)
                · cases done

/-- Sorting the edits of the children only changes the order in which the children are put in. -/
theorem filled_of_spliceSorted {edits : List Edit}
    (rendered : renderChildren tree stem source node.branches = .ok edits)
    (spliced : spliceSorted source node.number range edits = .ok inner) :
    Filled tree stem source node range inner := by
  obtain ⟨shown, part, all, edited⟩ := renderChildren_ok rendered
  have sorted : Relation.Comp (List.Forall₂ (EditOf tree stem source)) List.Perm shown
      (edits.mergeSort Edit.before) := ⟨edits, edited, (List.mergeSort_perm edits _).symm⟩
  rw [List.forall₂_comp_perm_eq_perm_comp_forall₂] at sorted
  obtain ⟨order, same, edited⟩ := sorted
  refine ⟨order, _, same.symm.subperm.trans part.subperm, ?_, edited, spliced⟩
  exact fun kid member => (all kid member).imp_left same.mem_iff.mp

theorem renderNode_located (done : renderNode tree stem source node = .ok output) {span : Ast.Span}
    (located : node.info.span = some span) :
    ∃ plan inner, Instrument.plan tree stem node.number = .ok plan ∧
      Filled tree stem source node (rangeOf span) inner ∧
      output = around node.number plan inner := by
  obtain ⟨info, branches⟩ := node
  rw [renderNode] at done
  split at done
  · cases done
  rename_i plan planned
  simp only [show info.span = some span from located] at done
  split at done
  · cases done
  split at done
  · cases done
  rename_i edits rendered
  split at done
  · rename_i inner spliced
    obtain rfl := Except.ok.inj done
    exact ⟨plan, inner, planned, filled_of_spliceSorted rendered spliced, rfl⟩
  · cases done

theorem pieces_filled (done : pieces tree stem source = .ok output)
    (unlocated : tree.root.info.span = none) :
    Filled tree stem source tree.root ⟨0, Text.byteCount source⟩ output := by
  unfold pieces at done
  simp only [unlocated] at done
  split at done
  · cases done
  split at done
  · cases done
  rename_i edits rendered
  exact filled_of_spliceSorted rendered done

end Rendering

section Kept

variable {tree : CoverTree} {stem : String} {source : List Char}
variable {node kid : Covered} {range : ByteRange} {output inner : List Piece}

/-- The pieces of a node keep what its span holds, and nothing if it has none. -/
def Keeps (source : List Char) (node : Covered) (output : List Piece) : Prop :=
  match node.info.span with
  | some span => Text.slice? span.startByte span.endByte source = some (keptOf output)
  | none => keptOf output = []

theorem EditOf.faithful {edit : Edit} (own : EditOf tree stem source node edit)
    (keeps : Keeps source node edit.output) : edit.Faithful source := by
  have placed := own.placed
  unfold Keeps at keeps
  intro boundary
  cases located : node.info.span with
  | some span =>
      simp only [located, place?, Option.some.injEq] at keeps placed
      rwa [← placed]
  | none =>
      simp only [located, place?, Option.map_eq_some_iff] at keeps placed
      obtain ⟨anchor, _, same⟩ := placed
      rw [← same] at boundary ⊢
      rw [keeps]
      exact Text.slice?_nothing boundary

theorem edits_faithful {shown : List Covered} {edits : List Edit}
    (edited : List.Forall₂ (EditOf tree stem source) shown edits)
    (keeps : ∀ kid ∈ shown, ∀ output, renderNode tree stem source kid = .ok output →
      Keeps source kid output) :
    ∀ edit ∈ edits, edit.Faithful source := by
  induction edited with
  | nil => simp
  | @cons kid edit shown edits own _ ih =>
      intro other member
      rcases List.mem_cons.mp member with rfl | inside
      · exact own.faithful (keeps kid List.mem_cons_self _ own.rendered)
      · exact ih (fun later inside => keeps later (List.mem_cons_of_mem kid inside)) other inside

theorem renderNode_keeps (node : Covered) : ∀ output,
    renderNode tree stem source node = .ok output → Keeps source node output := by
  induction node using Covered.induction with
  | step node ih =>
      intro output done
      unfold Keeps
      cases located : node.info.span with
      | none =>
          obtain ⟨plan, _, rfl⟩ := renderNode_unlocated done located
          rfl
      | some span =>
          obtain ⟨plan, inner, _, ⟨shown, edits, part, _, edited, spliced⟩, rfl⟩ :=
            renderNode_located done located
          have faithful := edits_faithful edited fun kid member => ih kid (part.subset member)
          simpa [around, rangeOf] using splice_keeps faithful spliced

theorem Filled.keeps (filled : Filled tree stem source node range inner) :
    Text.slice? range.start range.stop source = some (keptOf inner) := by
  obtain ⟨shown, edits, _, _, edited, spliced⟩ := filled
  exact splice_keeps (edits_faithful edited fun kid _ => renderNode_keeps kid) spliced

end Kept

section Added

variable {tree : CoverTree} {stem : String} {source : List Char}
variable {node kid : Covered} {range : ByteRange} {output inner : List Piece}

theorem added_of_edits {shown : List Covered} {edits : List Edit} {entry : Nat × String}
    (edited : List.Forall₂ (EditOf tree stem source) shown edits)
    (member : entry ∈ edits.flatMap fun edit => addedOf edit.output) :
    ∃ kid ∈ shown, ∃ output, renderNode tree stem source kid = .ok output ∧
      ¬Silent tree stem kid ∧ entry ∈ addedOf output := by
  induction edited with
  | nil => simp at member
  | @cons kid edit shown edits own _ ih =>
      rw [List.flatMap_cons, List.mem_append] at member
      rcases member with here | later
      · exact ⟨kid, List.mem_cons_self, edit.output, own.rendered, own.loud, here⟩
      · obtain ⟨other, inside, found⟩ := ih later
        exact ⟨other, List.mem_cons_of_mem kid inside, found⟩

theorem Filled.added (filled : Filled tree stem source node range inner) {entry : Nat × String}
    (member : entry ∈ addedOf inner) :
    ∃ kid ∈ node.kids, ∃ output, renderNode tree stem source kid = .ok output ∧
      ¬Silent tree stem kid ∧ entry ∈ addedOf output := by
  obtain ⟨shown, edits, part, _, edited, spliced⟩ := filled
  rw [addedOf_splice spliced] at member
  obtain ⟨kid, inside, found⟩ := added_of_edits edited member
  exact ⟨kid, part.subset inside, found⟩

/-- What a rendered node adds: its two fragments, and what its children add to the text of its
span. -/
theorem added_cases (done : renderNode tree stem source node = .ok output)
    {entry : Nat × String} (member : entry ∈ addedOf output) :
    (∃ plan, Instrument.plan tree stem node.number = .ok plan ∧
      (entry = (node.number, plan.before) ∨ entry = (node.number, plan.after))) ∨
    (node.info.span.isSome = true ∧ ∃ kid ∈ node.kids, ∃ output,
      renderNode tree stem source kid = .ok output ∧ ¬Silent tree stem kid ∧
        entry ∈ addedOf output) := by
  cases located : node.info.span with
  | none =>
      obtain ⟨plan, planned, rfl⟩ := renderNode_unlocated done located
      exact .inl ⟨plan, planned, by simpa [around] using member⟩
  | some span =>
      obtain ⟨plan, inner, planned, filled, rfl⟩ := renderNode_located done located
      simp only [around, addedOf_inserted, addedOf_append, addedOf_nil, List.mem_cons,
        List.mem_append, List.not_mem_nil, or_false] at member
      rcases member with before | inside | after
      · exact .inl ⟨plan, planned, .inl before⟩
      · exact .inr ⟨rfl, filled.added inside⟩
      · exact .inl ⟨plan, planned, .inr after⟩

theorem added_planned (node : Covered) : ∀ output,
    renderNode tree stem source node = .ok output → ∀ entry ∈ addedOf output,
      ∃ plan, Instrument.plan tree stem entry.1 = .ok plan ∧
        (entry.2 = plan.before ∨ entry.2 = plan.after) := by
  induction node using Covered.induction with
  | step node ih =>
      intro output done entry member
      rcases added_cases done member with ⟨plan, planned, own⟩ | ⟨_, kid, below, later⟩
      · rcases own with rfl | rfl
        · exact ⟨plan, planned, .inl rfl⟩
        · exact ⟨plan, planned, .inr rfl⟩
      · obtain ⟨output, rendered, _, found⟩ := later
        exact ih kid below output rendered entry found

theorem added_within (node : Covered) : ∀ output,
    renderNode tree stem source node = .ok output → ∀ entry ∈ addedOf output,
      entry.1 ∈ node.within.map Covered.number := by
  induction node using Covered.induction with
  | step node ih =>
      intro output done entry member
      rw [node.within_eq, List.map_cons, List.mem_cons]
      rcases added_cases done member with ⟨plan, _, own⟩ | ⟨_, kid, below, later⟩
      · left
        rcases own with rfl | rfl
        · rfl
        · rfl
      · right
        obtain ⟨output, rendered, _, found⟩ := later
        obtain ⟨inner, inside, same⟩ := List.mem_map.mp (ih kid below output rendered entry found)
        rw [← same]
        exact number_mem_within below inside

theorem edits_split {before after : List Covered} {edits : List Edit}
    (edited : List.Forall₂ (EditOf tree stem source) (before ++ kid :: after) edits) :
    ∃ first edit last, edits = first ++ edit :: last ∧ EditOf tree stem source kid edit ∧
      List.Forall₂ (EditOf tree stem source) before first ∧
      List.Forall₂ (EditOf tree stem source) after last := by
  induction before generalizing edits with
  | nil =>
      cases edited with
      | cons own rest => exact ⟨[], _, _, rfl, own, .nil, rest⟩
  | cons sibling before ih =>
      cases edited with
      | cons own rest =>
          obtain ⟨first, edit, last, rfl, found, ahead, behind⟩ := ih rest
          exact ⟨_ :: first, edit, last, rfl, found, .cons own ahead, behind⟩

/-- The pieces of a child stand at its place in the text of its parent, and nothing else there was
put in for the child or a node below it. -/
theorem Filled.places_kid (filled : Filled tree stem source node range inner)
    (distinct : ((node.kids.flatMap Covered.within).map Covered.number).Nodup)
    (member : kid ∈ node.kids) (loud : ¬Silent tree stem kid) :
    ∃ front output back place, renderNode tree stem source kid = .ok output ∧
      place? source kid.info.span kid.info.anchor = some place ∧
      inner = front ++ (output ++ back) ∧
      range.start + Text.byteCount (keptOf front) = place.start ∧
      ∀ id ∈ ownersOf (front ++ back), id ∉ kid.within.map Covered.number := by
  obtain ⟨shown, edits, part, all, edited, spliced⟩ := filled
  obtain ⟨before, after, rfl⟩ := List.append_of_mem ((all kid member).resolve_right loud)
  obtain ⟨first, edit, last, rfl, own, ahead, behind⟩ := edits_split edited
  have faithful := edits_faithful ahead fun other _ => renderNode_keeps other
  obtain ⟨front, back, rfl, size, frontAdded, backAdded⟩ := splice_places faithful spliced
  refine ⟨front, edit.output, back, edit.range, own.rendered, own.placed, rfl, size, ?_⟩
  -- The siblings in front and behind hold other numbers, as all numbers below the parent differ.
  have apart : (kid.within.map Covered.number).Disjoint
      (((before ++ after).flatMap Covered.within).map Covered.number) := by
    obtain ⟨order, same, sublist⟩ := part
    have numbers := distinct.sublist ((sublist.flatMap Covered.within).map Covered.number)
    rw [(((same.trans List.perm_middle).flatMap_right Covered.within).map Covered.number).nodup_iff,
      List.flatMap_cons, List.map_append] at numbers
    exact List.disjoint_of_nodup_append numbers
  intro id inserted inside
  obtain ⟨entry, here, rfl⟩ := List.mem_map.mp inserted
  rw [addedOf_append, frontAdded, backAdded, ← List.flatMap_append] at here
  obtain ⟨other, stands, output, rendered, _, found⟩ :=
    added_of_edits (List.rel_append ahead behind) here
  obtain ⟨holder, holds, same⟩ := List.mem_map.mp (added_within other output rendered entry found)
  rw [← same] at inside
  exact apart inside (number_mem_within stands holds)

end Added

end ProbeCoverage.Instrument
