import ProbeCoverage.Proofs.Instrument.Rendering

/-!
Where the faults of instrumenting come from. Putting in edits fails at an edit that does not fit or
at a slice of the source that cannot be taken. A whole text fails at one of its nodes: at its plan,
at its range, at a missing anchor, or while the edits of its children are put in.
-/

namespace ProbeCoverage.Instrument

open Cover

section Splicing

/-- The slices that are taken while edits are put into the source: the text in front of each edit,
as long as the edits fit, and the text behind the last one. -/
inductive Takes (source : List Char) (stop : Nat) : Nat → List Edit → ByteRange → Prop where
  | rest (cursor : Nat) : Takes source stop cursor [] ⟨cursor, stop⟩
  | gap {cursor : Nat} {edit : Edit} {edits : List Edit} (apart : cursor ≤ edit.range.start)
      (inside : edit.range.stop ≤ stop) (fits : rangeFault? source edit.child edit.range = none) :
      Takes source stop cursor (edit :: edits) ⟨cursor, edit.range.start⟩
  | later {cursor : Nat} {edit : Edit} {edits : List Edit} {text : List Char} {cut : ByteRange}
      (apart : cursor ≤ edit.range.start) (inside : edit.range.stop ≤ stop)
      (fits : rangeFault? source edit.child edit.range = none)
      (kept : Text.slice? cursor edit.range.start source = some text)
      (taken : Takes source stop edit.range.stop edits cut) :
      Takes source stop cursor (edit :: edits) cut

variable {source : List Char} {node stop cursor : Nat} {edits : List Edit} {cut : ByteRange}
variable {error : Error}

theorem keep_error {start last : Nat} (failed : keep source start last = .error error) :
    Text.slice? start last source = none ∧ error = .badSlice start last := by
  unfold keep at failed
  split at failed
  · cases failed
  · rename_i nothing
    exact ⟨nothing, (Except.error.inj failed).symm⟩

theorem splice_error (failed : splice source node stop cursor edits = .error error) :
    (∃ edit ∈ edits, error = .overlap node edit.child) ∨
      (∃ edit ∈ edits, rangeFault? source edit.child edit.range = some error) ∨
      ∃ cut, Takes source stop cursor edits cut ∧ Text.slice? cut.start cut.stop source = none ∧
        error = .badSlice cut.start cut.stop := by
  induction edits generalizing cursor with
  | nil =>
      unfold splice at failed
      split at failed
      · cases failed
      · rename_i kept
        obtain rfl := Except.error.inj failed
        exact .inr (.inr ⟨_, .rest cursor, keep_error kept⟩)
  | cons edit rest ih =>
      unfold splice at failed
      split at failed
      · exact .inl ⟨edit, List.mem_cons_self, (Except.error.inj failed).symm⟩
      rename_i clear
      simp only [Bool.or_eq_true, decide_eq_true_eq, not_or, Nat.not_lt] at clear
      split at failed
      · rename_i fault
        obtain rfl := Except.error.inj failed
        exact .inr (.inl ⟨edit, List.mem_cons_self, fault⟩)
      rename_i fits
      split at failed
      · rename_i kept
        obtain rfl := Except.error.inj failed
        exact .inr (.inr ⟨_, .gap clear.1 clear.2 fits, keep_error kept⟩)
      rename_i piece kept
      split at failed
      · cases failed
      rename_i below
      obtain rfl := Except.error.inj failed
      rcases ih below with ⟨other, inside, overlap⟩ | ⟨other, inside, fault⟩ | ⟨cut, taken, bad⟩
      · exact .inl ⟨other, List.mem_cons_of_mem edit inside, overlap⟩
      · exact .inr (.inl ⟨other, List.mem_cons_of_mem edit inside, fault⟩)
      · unfold keep at kept
        split at kept
        · rename_i text found
          exact .inr (.inr ⟨cut, .later clear.1 clear.2 fits found taken, bad⟩)
        · cases kept

theorem splice_of_takes (taken : Takes source stop cursor edits cut)
    (bad : Text.slice? cut.start cut.stop source = none) :
    splice source node stop cursor edits = .error (.badSlice cut.start cut.stop) := by
  induction taken with
  | rest cursor => simp [splice, keep, bad]
  | gap apart inside fits =>
      simp [splice, keep, bad, fits, Nat.not_lt.mpr apart, Nat.not_lt.mpr inside]
  | later apart inside fits kept _ ih =>
      simp [splice, keep, kept, fits, ih bad, Nat.not_lt.mpr apart, Nat.not_lt.mpr inside]

end Splicing

section Rendering

variable (tree : CoverTree) (stem : String) (source : List Char)

/-- A node of the tree puts the edits of its children into a part of the source: into its span, or
into the whole source if it is the root and has no span. -/
structure Splices (node : Covered) (range : ByteRange) (edits : List Edit) : Prop where
  occurs : ∃ above slot, Occurs tree.root above slot node
  place : node.info.span.map rangeOf = some range ∨
    node = tree.root ∧ node.info.span = none ∧ range = ⟨0, Text.byteCount source⟩
  fits : rangeFault? source node.number range = none
  rendered : renderChildren tree stem source node.branches = .ok edits

inductive Origin : Error → Prop where
  | plan {above : Option Covered} {slot : Nat} {node : Covered} {error : Error}
      (occurs : Occurs tree.root above slot node)
      (failed : Instrument.plan tree stem node.number = .error error) : Origin error
  | range {id : Nat} {range : ByteRange} {error : Error}
      (fault : rangeFault? source id range = some error) : Origin error
  | anchor (id : Nat) : Origin (.missingAnchor id)
  | splice {node : Covered} {range : ByteRange} {edits : List Edit} {error : Error}
      (splices : Splices tree stem source node range edits)
      (failed : spliceSorted source node.number range edits = .error error) : Origin error

variable {tree stem source} {error : Error}

theorem renderChildren_origin {branches : List Branch}
    (each : ∀ kid, .node kid ∈ branches → ∀ error,
      renderNode tree stem source kid = .error error → Origin tree stem source error)
    (failed : renderChildren tree stem source branches = .error error) :
    Origin tree stem source error := by
  induction branches with
  | nil => cases failed
  | cons branch rest ih =>
      have later := ih fun kid member => each kid (List.mem_cons_of_mem branch member)
      cases branch with
      | atom value =>
          rw [renderChildren] at failed
          exact later failed
      | node kid =>
          rw [renderChildren] at failed
          split at failed
          · rename_i below
            obtain rfl := Except.error.inj failed
            exact each kid List.mem_cons_self _ below
          dsimp only at failed
          split at failed
          · split at failed
            · cases failed
            · rename_i follows
              obtain rfl := Except.error.inj failed
              exact later follows
          · split at failed
            · exact later failed
            · split at failed
              · obtain rfl := Except.error.inj failed
                exact .anchor _
              · split at failed
                · cases failed
                · rename_i follows
                  obtain rfl := Except.error.inj failed
                  exact later follows

theorem renderNode_origin (node : Covered) : ∀ above slot, Occurs tree.root above slot node →
    ∀ error, renderNode tree stem source node = .error error → Origin tree stem source error := by
  induction node using Covered.induction with
  | step node ih =>
      intro above slot occurs error failed
      have below {error : Error}
          (fails : renderChildren tree stem source node.branches = .error error) :
          Origin tree stem source error := by
        apply renderChildren_origin _ fails
        intro kid member
        obtain ⟨place, held⟩ := List.mem_iff_getElem?.mp member
        have here := Covered.kid?_eq_some.mpr held
        exact ih kid (Covered.mem_kids.mpr ⟨place, here⟩) _ _ (.child place occurs here)
      rcases node with ⟨info, branches⟩
      rw [renderNode] at failed
      split at failed
      · rename_i unplanned
        obtain rfl := Except.error.inj failed
        exact .plan occurs unplanned
      dsimp only at failed
      split at failed
      · cases failed
      rename_i span located
      split at failed
      · rename_i fault
        obtain rfl := Except.error.inj failed
        exact .range fault
      rename_i fits
      split at failed
      · rename_i fails
        obtain rfl := Except.error.inj failed
        exact below fails
      rename_i edits rendered
      split at failed
      · cases failed
      · rename_i spliced
        obtain rfl := Except.error.inj failed
        refine .splice ⟨⟨above, slot, occurs⟩, .inl ?_, fits, rendered⟩ spliced
        exact congrArg (Option.map rangeOf) located

theorem pieces_origin (failed : pieces tree stem source = .error error) :
    Origin tree stem source error := by
  unfold pieces at failed
  split at failed
  · exact renderNode_origin tree.root none 0 .top error failed
  · rename_i unlocated
    dsimp only at failed
    split at failed
    · rename_i fault
      obtain rfl := Except.error.inj failed
      exact .range fault
    rename_i fits
    split at failed
    · rename_i fails
      obtain rfl := Except.error.inj failed
      apply renderChildren_origin _ fails
      intro kid member
      obtain ⟨place, held⟩ := List.mem_iff_getElem?.mp member
      exact renderNode_origin kid _ _ (.child place .top (Covered.kid?_eq_some.mpr held))
    · rename_i edits rendered
      exact .splice ⟨⟨none, 0, .top⟩, .inr ⟨rfl, unlocated, rfl⟩, fits, rendered⟩ failed

theorem instrument_origin {text : String} (failed : instrument tree stem text = .error error) :
    Origin tree stem text.toList error := by
  unfold instrument at failed
  split at failed
  · cases failed
  · rename_i fails
    obtain rfl := Except.error.inj failed
    exact pieces_origin fails

end Rendering

end ProbeCoverage.Instrument
