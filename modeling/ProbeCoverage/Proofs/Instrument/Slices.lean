import ProbeCoverage.Proofs.Agreement
import ProbeCoverage.Proofs.Instrument.Anchors

/-!
Slices of the source. While edits are put into a part of the source that can be cut out, the cursor
stands at the start of that part or behind an edit that fits, so every slice from the cursor on can
be taken, whatever the edits are. No slice fails in a whole text, with spans and anchors of any kind,
and none on the way to the place of an anchor.
-/

namespace ProbeCoverage.Instrument

open Cover

section Splicing

variable {source : List Char} {node stop cursor : Nat} {edits : List Edit} {cut : ByteRange}

theorem Takes.sliceable (taken : Takes source stop cursor edits cut)
    (whole : Text.Sliceable source cursor stop) : Text.Sliceable source cut.start cut.stop := by
  induction taken with
  | rest cursor => exact whole
  | gap apart inside fits =>
      have own := rangeFault?_eq_none_iff.mp fits
      exact ⟨apart, Nat.le_trans own.ordered own.inside, whole.opens, own.opens⟩
  | later apart inside fits _ _ ih =>
      -- the cursor moves behind an edit that ends within the range, between two characters
      have own := rangeFault?_eq_none_iff.mp fits
      exact ih ⟨inside, whole.inside, own.closes, whole.closes⟩

theorem rangeFault?_ne_badSlice {range : ByteRange} (start last : Nat) :
    rangeFault? source node range ≠ some (.badSlice start last) := by
  intro fault
  unfold rangeFault? at fault
  split at fault
  · cases fault
  · split at fault <;> cases fault

/-- Putting in edits fails for a bad slice exactly when a slice is taken that cannot be taken. -/
theorem splice_badSlice_iff :
    (∃ start last, splice source node stop cursor edits = .error (.badSlice start last)) ↔
      ∃ cut, Takes source stop cursor edits cut ∧
        ¬ Text.Sliceable source cut.start cut.stop := by
  constructor
  · rintro ⟨start, last, failed⟩
    rcases splice_error failed with ⟨_, _, overlap⟩ | ⟨_, _, fault⟩ | ⟨cut, taken, bad, _⟩
    · cases overlap
    · exact absurd fault (rangeFault?_ne_badSlice start last)
    · exact ⟨cut, taken, Text.slice?_eq_none_iff.mp bad⟩
  · rintro ⟨cut, taken, bad⟩
    exact ⟨cut.start, cut.stop, splice_of_takes taken (Text.slice?_eq_none_iff.mpr bad)⟩

end Splicing

section Instrumenting

def Cuts (tree : CoverTree) (stem : String) (source : List Char) (cut : ByteRange) : Prop :=
  ∃ node range edits, Splices tree stem source node range edits ∧
    Takes source range.stop range.start (edits.mergeSort Edit.before) cut

def Error.OfSpans : Error → Prop
  | .outOfBounds _ _ _ _ | .charBoundary _ _ _ | .overlap _ _ | .missingAnchor _ => True
  | _ => False

variable {tree : CoverTree} {stem : String} {source : List Char} {node : Covered}
variable {range cut : ByteRange} {edits : List Edit} {error : Error}

theorem Splices.sliceable (splices : Splices tree stem source node range edits) :
    Text.Sliceable source range.start range.stop :=
  rangeFault?_eq_none_iff.mp splices.fits

theorem Cuts.sliceable (taken : Cuts tree stem source cut) :
    Text.Sliceable source cut.start cut.stop := by
  obtain ⟨node, range, edits, splices, takes⟩ := taken
  exact takes.sliceable splices.sliceable

theorem fillPattern_error {owner : Cell} {target : Nat} {pattern : Pattern}
    (failed : fillPattern tree stem owner target pattern = .error error) : ¬ error.OfSource := by
  unfold fillPattern at failed
  split at failed
  · obtain rfl := Except.error.inj failed
    exact False.elim
  · dsimp only at failed
    split at failed
    · cases failed
    · obtain rfl := Except.error.inj failed
      exact False.elim

theorem plan_error {id : Nat} (failed : plan tree stem id = .error error) : ¬ error.OfSource := by
  unfold plan at failed
  split at failed
  · obtain rfl := Except.error.inj failed
    exact False.elim
  rename_i cell found
  split at failed
  · rename_i own
    obtain rfl := Except.error.inj failed
    unfold ownPlan at own
    dsimp only at own
    split at own
    · exact fillPattern_error own
    · cases own
  split at failed
  · rename_i outer
    obtain rfl := Except.error.inj failed
    unfold parentPlan at outer
    split at outer
    · cases outer
    split at outer
    · obtain rfl := Except.error.inj outer
      exact False.elim
    split at outer
    · exact fillPattern_error outer
    · cases outer
  · cases failed

/-- Of any tree, with spans and anchors of any kind, no slice fails. -/
theorem instrument_ne_badSlice (tree : CoverTree) (stem text : String) (start stop : Nat) :
    instrument tree stem text ≠ .error (.badSlice start stop) := by
  intro failed
  cases instrument_origin failed with
  | plan _ unplanned => exact plan_error unplanned trivial
  | range fault => exact rangeFault?_ne_badSlice start stop fault
  | splice splices spliced =>
      obtain ⟨cut, taken, bad⟩ := splice_badSlice_iff.mp ⟨start, stop, spliced⟩
      exact bad (taken.sliceable splices.sliceable)

theorem instrument_ofSpans (grown : Grown tree) {text : String}
    (failed : instrument tree stem text = .error error) : error.OfSpans := by
  have ofSource := instrument_ofSource grown failed
  cases error with
  | outOfBounds | overlap | missingAnchor | charBoundary => trivial
  | missingTracker | template | unknownNode => exact ofSource
  | badSlice start stop => exact absurd failed (instrument_ne_badSlice tree stem text start stop)

end Instrumenting

/-- Instrumenting takes no slice of the source that cannot be taken, whatever the spans and anchors
of the tree are, so that a covered tree fails for its spans only, if at all. Nor does the search for
the place of an anchor, which lies at the offset of the anchor or behind it, or at the end of the
source. -/
theorem slices_within_bounds :
    (∀ source node stop cursor edits,
      (∃ start last, splice source node stop cursor edits = .error (.badSlice start last)) ↔
        ∃ cut, Takes source stop cursor edits cut ∧
          ¬ Text.Sliceable source cut.start cut.stop) ∧
    (∀ tree stem (source : String),
      (∀ cut, Cuts tree stem source.toList cut →
        Text.Sliceable source.toList cut.start cut.stop) ∧
      (∀ start stop, instrument tree stem source ≠ .error (.badSlice start stop)) ∧
      (Built tree → (∃ text, instrument tree stem source = .ok text) ∨
        ∃ error, instrument tree stem source = .error error ∧ error.OfSpans)) ∧
    ∀ source anchor, resolveBySlices source anchor = some (resolve source anchor) ∧
      (offsetOf anchor ≤ resolve source anchor ∨
        anchor = .exactly (offsetOf anchor) ∧ Text.byteCount source < offsetOf anchor ∧
          resolve source anchor = Text.byteCount source) := by
  refine ⟨fun _ _ _ _ _ => splice_badSlice_iff, ?_, ?_⟩
  · intro tree stem source
    refine ⟨fun cut taken => taken.sliceable, instrument_ne_badSlice tree stem source, ?_⟩
    intro built
    cases done : instrument tree stem source with
    | ok text => exact .inl ⟨text, rfl⟩
    | error error => exact .inr ⟨error, rfl, instrument_ofSpans built.grown done⟩
  · intro source anchor
    exact ⟨resolveBySlices_eq source anchor, offsetOf_le_resolve source anchor⟩

/-- Two calls, the second of which starts and ends inside a character. -/
def splitCharacter : Ast.Node :=
  let call (name : String) (span : Ast.Span) : Ast.Child :=
    .node (.mk "send" [.atom .nil, .atom (.text name)] (some span))
  .mk "begin" [call "a" ⟨0, 1, 1, 1⟩, call "b" ⟨2, 3, 1, 1⟩] (some ⟨0, 5, 1, 1⟩)

/-- The first call takes its slice, and the second one is refused before it takes any. -/
theorem slices_within_bounds_split :
    resolveBySlices "é doo do é".toList (.afterBlockOpener 3) = some 9 ∧
    ∃ tree, CoverTree.ofProgram Probe.defaultGlobal 0 splitCharacter = .ok tree ∧
      Cuts tree defaultStem "aéé".toList ⟨0, 1⟩ ∧ Text.Sliceable "aéé".toList 0 1 ∧
      instrument tree defaultStem "aéé" = .error (.charBoundary 3 2 3) ∧
      Error.OfSpans (.charBoundary 3 2 3) := by
  obtain ⟨_, runs, anchors⟩ := slices_within_bounds
  have known {tree : CoverTree} {error : Error}
      (covered : CoverTree.ofProgram Probe.defaultGlobal 0 splitCharacter = .ok tree)
      (splices : ∃ node, Splices tree defaultStem "aéé".toList node ⟨0, 1⟩ [])
      (failed : instrument tree defaultStem "aéé" = .error error) :
      Cuts tree defaultStem "aéé".toList ⟨0, 1⟩ ∧ Text.Sliceable "aéé".toList 0 1 ∧
        instrument tree defaultStem "aéé" = .error error ∧ error.OfSpans := by
    obtain ⟨cuts, _, outcome⟩ := runs tree defaultStem "aéé"
    have taken : Cuts tree defaultStem "aéé".toList ⟨0, 1⟩ := by
      obtain ⟨node, puts⟩ := splices
      exact ⟨node, ⟨0, 1⟩, [], puts, by simpa using Takes.rest 0⟩
    refine ⟨taken, cuts _ taken, failed, ?_⟩
    rcases outcome (.program covered) with ⟨text, done⟩ | ⟨other, fails, ofSpans⟩
    · rw [failed] at done
      cases done
    · rw [failed] at fails
      obtain rfl := Except.error.inj fails
      exact ofSpans
  have place := (anchors "é doo do é".toList (.afterBlockOpener 3)).1
  refine ⟨place.trans (by decide +kernel), _, rfl, known rfl ?_ (by decide +kernel)⟩
  exact ⟨_, ⟨_, _, .child 0 (.child 0 .top rfl) rfl⟩, .inl rfl, by decide +kernel, rfl⟩

end ProbeCoverage.Instrument
