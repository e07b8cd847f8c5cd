import ProbeCoverage.Config.Check
import ProbeCoverage.Proofs.Cover.Growth
import ProbeCoverage.Proofs.Cover.Patterns
import ProbeCoverage.Proofs.Instrument.Rendering

/-!
Lines of an instrumented text. No template holds a newline, so a fragment holds one only if the name
of the global array or of the temporaries does, and settings that pass their check rule this out.
Fragments without newlines leave every byte of the source on its line.
-/

namespace ProbeCoverage.Instrument

open Cover
open Probe (Allocator)

def OneLine (text : String) : Prop :=
  '\n' ∉ text.toList

instance (text : String) : Decidable (OneLine text) :=
  inferInstanceAs (Decidable ('\n' ∉ text.toList))

def Plan.OneLine (plan : Plan) : Prop :=
  Instrument.OneLine plan.before ∧ Instrument.OneLine plan.after

section Texts

@[simp] theorem oneLine_append {first second : String} :
    OneLine (first ++ second) ↔ OneLine first ∧ OneLine second := by
  simp [OneLine, String.toList_append]

theorem oneLine_natText (number : Nat) : OneLine (Decimal.natText number) := by
  intro newline
  rw [Decimal.natText, String.toList_ofList] at newline
  have digit := Nat.isDigit_of_mem_toDigits (by decide) (by decide) newline
  revert digit
  decide

theorem oneLine_probe {allocator : Allocator} (name : OneLine allocator.global) (slot : Nat) :
    OneLine (allocator.probe slot) := by
  simp only [Allocator.probe, Allocator.counter, oneLine_append, oneLine_natText, name, true_and]
  decide

theorem oneLine_setup {allocator : Allocator} (name : OneLine allocator.global) :
    OneLine allocator.setup := by
  simp only [Allocator.setup, oneLine_append, oneLine_natText, name, and_true]
  decide

end Texts

section Patterns

def oneLineSegment : Segment → Bool
  | .text value => decide (OneLine value)
  | _ => true

theorem oneLine_of_tidy {pattern : Pattern} (tidy : Tidy pattern) :
    pattern.all oneLineSegment = true := by
  have same : oneLineSegment = Segment.lacks '\n' := by
    funext segment
    cases segment <;> rfl
  rw [same]
  exact tidy.2 '\n' (by decide)

theorem oneLine_fill {filling : Filling} {segments : List Segment} {text : String}
    (temporary : OneLine filling.temporary)
    (probes : ∀ tracker probe, filling.probe? tracker = some probe → OneLine probe)
    (literal : segments.all oneLineSegment = true)
    (filled : Template.fill filling segments = some text) : OneLine text := by
  induction segments generalizing text with
  | nil =>
      obtain rfl : "" = text := Option.some.inj filled
      decide
  | cons segment rest ih =>
      rw [List.all_cons, Bool.and_eq_true] at literal
      cases segment with
      | node => exact ih literal.2 filled
      | text value =>
          obtain ⟨later, follows, rfl⟩ := Option.map_eq_some_iff.mp filled
          exact oneLine_append.mpr ⟨of_decide_eq_true literal.1, ih literal.2 follows⟩
      | temporary =>
          obtain ⟨later, follows, rfl⟩ := Option.map_eq_some_iff.mp filled
          exact oneLine_append.mpr ⟨temporary, ih literal.2 follows⟩
      | tracker counter =>
          rw [Template.fill] at filled
          split at filled
          · rename_i probe found
            obtain ⟨later, follows, rfl⟩ := Option.map_eq_some_iff.mp filled
            exact oneLine_append.mpr ⟨probes counter probe found, ih literal.2 follows⟩
          · cases filled

theorem all_of_ofPattern {pattern : Pattern} {trackers : List Tracker} {template : Template}
    {test : Segment → Bool} (read : Template.ofPattern pattern trackers = .ok template)
    (literal : pattern.all test = true) :
    template.before.all test = true ∧ template.after.all test = true := by
  unfold Template.ofPattern Template.split at read
  split at read
  · cases read
  split at read
  · obtain rfl := Except.ok.inj read
    rw [List.all_eq_true] at literal
    constructor
    · rw [List.all_eq_true]
      exact fun segment member => literal segment ((List.takeWhile_prefix _).subset member)
    · rw [List.all_eq_true]
      intro segment member
      exact literal segment ((List.dropWhile_suffix _).subset (List.mem_of_mem_drop member))
  · cases read

end Patterns

section Plans

variable {tree : CoverTree} {stem : String} {plan : Plan}

theorem oneLine_fillPattern {owner : Cell} {target : Nat} {pattern : Pattern}
    (name : OneLine tree.allocator.global) (start : OneLine stem)
    (literal : pattern.all oneLineSegment = true)
    (filled : fillPattern tree stem owner target pattern = .ok plan) : plan.OneLine := by
  unfold fillPattern at filled
  split at filled
  · cases filled
  rename_i template read
  obtain ⟨before, after⟩ := all_of_ofPattern read literal
  simp only at filled
  split at filled
  · rename_i front back rendered
    obtain rfl := Except.ok.inj filled
    unfold Template.render at rendered
    split at rendered
    · rename_i left right filledBefore filledAfter
      obtain ⟨rfl, rfl⟩ := Prod.mk.inj (Option.some.inj rendered)
      have temporary : OneLine (temporaryName stem target) :=
        oneLine_append.mpr ⟨start, oneLine_natText target⟩
      have probes (tracker : Tracker) (probe : String)
          (found : (tree.trackerSlot? owner.number tracker).map tree.allocator.probe =
            some probe) : OneLine probe := by
        obtain ⟨slot, _, rfl⟩ := Option.map_eq_some_iff.mp found
        exact oneLine_probe name slot
      exact ⟨oneLine_fill temporary probes before filledBefore,
        oneLine_fill temporary probes after filledAfter⟩
    · cases rendered
  · cases filled

theorem oneLine_empty : Plan.empty.OneLine := by
  constructor <;> decide

theorem oneLine_plan (name : OneLine tree.allocator.global) (start : OneLine stem) {id : Nat}
    (planned : Instrument.plan tree stem id = .ok plan) : plan.OneLine := by
  unfold Instrument.plan at planned
  split at planned
  · cases planned
  rename_i cell _
  split at planned
  · cases planned
  rename_i own ownPlanned
  split at planned
  · cases planned
  rename_i outer outerPlanned
  obtain rfl := Except.ok.inj planned
  have inside : own.OneLine := by
    unfold ownPlan at ownPlanned
    simp only at ownPlanned
    split at ownPlanned
    · rename_i pattern asked
      exact oneLine_fillPattern name start (oneLine_of_tidy (ownPattern_tidy asked)) ownPlanned
    · obtain rfl := Except.ok.inj ownPlanned
      exact oneLine_empty
  have outside : outer.OneLine := by
    unfold parentPlan at outerPlanned
    split at outerPlanned
    · obtain rfl := Except.ok.inj outerPlanned
      exact oneLine_empty
    split at outerPlanned
    · cases outerPlanned
    split at outerPlanned
    · rename_i pattern asked
      exact oneLine_fillPattern name start (oneLine_of_tidy (childPattern_tidy asked)) outerPlanned
    · obtain rfl := Except.ok.inj outerPlanned
      exact oneLine_empty
  exact ⟨oneLine_append.mpr ⟨outside.1, inside.1⟩, oneLine_append.mpr ⟨inside.2, outside.2⟩⟩

end Plans

section Settings

theorem not_mem_identifier {text : List Char} {c : Char} (name : Config.isIdentifier text = true)
    (foreign : (c.isAlphanum || c == '_') = false) : c ∉ text := by
  cases text with
  | nil => simp
  | cons first rest =>
      simp only [Config.isIdentifier, Bool.and_eq_true, List.all_eq_true] at name
      intro member
      rcases List.mem_cons.mp member with rfl | later
      · have letter := name.1
        rw [Char.isAlphanum] at foreign
        simp_all
      · rw [name.2 c later] at foreign
        cases foreign

theorem oneLine_of_config {config : Config} (sound : config.fault? = none) :
    OneLine config.trackerGlobal ∧ OneLine config.temporaryStem := by
  unfold Config.fault? at sound
  split at sound
  · cases sound
  rename_i global
  split at sound
  · cases sound
  rename_i stem
  simp only [Bool.not_eq_true', Bool.not_eq_false] at global stem
  constructor
  · unfold Config.isGlobalName at global
    split at global
    · rename_i name same
      rw [OneLine, same]
      intro member
      rcases List.mem_cons.mp member with sigil | later
      · cases sigil
      · exact not_mem_identifier global (by decide) later
    · cases global
  · rw [Config.isLocalStem, Bool.and_eq_true] at stem
    exact not_mem_identifier stem.1 (by decide)

end Settings

section Positions

def positionIn : List Piece → Nat → Nat
  | [], offset => offset
  | .kept text :: rest, offset =>
      if offset < Text.byteCount text then offset
      else Text.byteCount text + positionIn rest (offset - Text.byteCount text)
  | .inserted _ added :: rest, offset => Text.byteCount added.toList + positionIn rest offset

def AddsNoLine (pieces : List Piece) : Prop :=
  ∀ entry ∈ addedOf pieces, OneLine entry.2

theorem toList_textOf (pieces : List Piece) :
    (Piece.textOf pieces).toList = pieces.flatMap fun piece => piece.text.toList := by
  rw [Piece.textOf, String.toList_join, List.flatMap_map]

theorem toList_textOf_kept (text : List Char) (pieces : List Piece) :
    (Piece.textOf (.kept text :: pieces)).toList = text ++ (Piece.textOf pieces).toList := by
  simp [toList_textOf, Piece.text]

theorem toList_textOf_inserted (id : Nat) (added : String) (pieces : List Piece) :
    (Piece.textOf (.inserted id added :: pieces)).toList =
      added.toList ++ (Piece.textOf pieces).toList := by
  simp [toList_textOf, Piece.text]

theorem positionIn_lt (pieces : List Piece) {first second : Nat} (less : first < second) :
    positionIn pieces first < positionIn pieces second := by
  induction pieces generalizing first second with
  | nil => exact less
  | cons piece pieces ih =>
      cases piece with
      | inserted id added => exact Nat.add_lt_add_left (ih less) _
      | kept text =>
          unfold positionIn
          by_cases inside : second < Text.byteCount text
          · rw [if_pos inside, if_pos (Nat.lt_trans less inside)]
            exact less
          · by_cases before : first < Text.byteCount text
            · rw [if_pos before, if_neg inside]
              omega
            · rw [if_neg before, if_neg inside]
              apply Nat.add_lt_add_left
              exact ih (by omega)

theorem bytes_at_position {pieces : List Piece} {offset : Nat}
    (inside : offset < Text.byteCount (keptOf pieces)) :
    (Text.bytes (Piece.textOf pieces).toList)[positionIn pieces offset]? =
      (Text.bytes (keptOf pieces))[offset]? := by
  induction pieces generalizing offset with
  | nil => simp at inside
  | cons piece pieces ih =>
      cases piece with
      | inserted id added =>
          rw [toList_textOf_inserted, keptOf_inserted, Text.bytes_append, positionIn,
            ← Text.length_bytes, List.getElem?_append_right (Nat.le_add_right _ _),
            Nat.add_sub_cancel_left]
          exact ih inside
      | kept text =>
          rw [toList_textOf_kept, keptOf_kept, Text.bytes_append, Text.bytes_append, positionIn]
          rw [keptOf_kept, Text.byteCount_append] at inside
          by_cases here : offset < Text.byteCount text
          · rw [if_pos here]
            rw [← Text.length_bytes] at here
            rw [List.getElem?_append_left here, List.getElem?_append_left here]
          · have rest : offset - Text.byteCount text < Text.byteCount (keptOf pieces) := by omega
            have later := ih rest
            rw [if_neg here, ← Text.length_bytes text]
            rw [← Text.length_bytes text] at here later
            rw [List.getElem?_append_right (Nat.le_add_right _ _), Nat.add_sub_cancel_left,
              List.getElem?_append_right (by omega)]
            exact later

/-- A byte of the source has as many newlines before it in the text as in the source. -/
theorem newlines_at_position {pieces : List Piece} {offset : Nat} (same : AddsNoLine pieces)
    (inside : offset < Text.byteCount (keptOf pieces)) :
    Text.newlinesBefore (positionIn pieces offset) (Piece.textOf pieces).toList =
      Text.newlinesBefore offset (keptOf pieces) := by
  induction pieces generalizing offset with
  | nil => simp at inside
  | cons piece pieces ih =>
      cases piece with
      | inserted id added =>
          have none : added.toList.count '\n' = 0 :=
            List.count_eq_zero.mpr (same (id, added) List.mem_cons_self)
          have rest : AddsNoLine pieces := fun entry member =>
            same entry (List.mem_cons_of_mem _ member)
          rw [toList_textOf_inserted, keptOf_inserted, positionIn, Text.newlinesBefore_append, none,
            Nat.zero_add]
          exact ih rest inside
      | kept text =>
          rw [toList_textOf_kept, keptOf_kept, positionIn]
          rw [keptOf_kept, Text.byteCount_append] at inside
          by_cases here : offset < Text.byteCount text
          · rw [if_pos here, Text.newlinesBefore_within _ _ _ (Nat.le_of_lt here),
              Text.newlinesBefore_within _ _ _ (Nat.le_of_lt here)]
          · obtain ⟨later, rfl⟩ := Nat.exists_eq_add_of_le (Nat.le_of_not_lt here)
            rw [if_neg here, Nat.add_sub_cancel_left, Text.newlinesBefore_append,
              Text.newlinesBefore_append, ih same (by omega)]

theorem count_newlines {pieces : List Piece} (same : AddsNoLine pieces) :
    (Piece.textOf pieces).toList.count '\n' = (keptOf pieces).count '\n' := by
  induction pieces with
  | nil => rfl
  | cons piece pieces ih =>
      cases piece with
      | inserted id added =>
          have none : added.toList.count '\n' = 0 :=
            List.count_eq_zero.mpr (same (id, added) List.mem_cons_self)
          rw [toList_textOf_inserted, List.count_append, none, Nat.zero_add, keptOf_inserted]
          exact ih fun entry member => same entry (List.mem_cons_of_mem _ member)
      | kept text =>
          rw [toList_textOf_kept, List.count_append, keptOf_kept, List.count_append, ih same]

end Positions

end ProbeCoverage.Instrument
