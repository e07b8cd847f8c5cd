import ProbeCoverage.Cover.Build

/-!
Which counters the patterns of a kind name. A counter is declared in one table and named in another:
by the pattern that its owner puts around itself, or by one that the owner puts around a child. `site`
says for each counter which of these it is. Every pattern names exactly the counters of its owner
whose site it stands at, and holds its node once, so every pattern is a template.
-/

namespace ProbeCoverage.Cover

inductive Site where
  | owner
  | child (slot : Nat)
  | nowhere
  deriving DecidableEq, Repr

/-- The site of a counter whose owner has `count` slots. A conditional counts one of its branches, and
none when both are empty. -/
def Tracker.site (count : Nat) (tracked : Option Nat) : Tracker → Site
  | .completion | .matched | .missed => .owner
  | .root | .entry => .child 0
  | .branch => tracked.elim .nowhere .child
  | .rightOperand | .default => .child 1
  | .handlerEntry | .call | .bodyEntry => .child 2
  | .reader | .longBranch => .child (count - 1)

def Segment.tracker? : Segment → Option Tracker
  | .tracker counter => some counter
  | _ => none

def trackersOf (pattern : Pattern) : List Tracker :=
  pattern.filterMap Segment.tracker?

section Tables

variable {kind : Kind} {index count : Nat} {tracked : Option Nat} {empty subject : Bool}
variable {pattern : Pattern}

theorem ownPattern_trackers (kind : Kind) (subject : Bool) (count : Nat) (tracked : Option Nat) :
    (kind.ownPattern subject).toList.flatMap trackersOf =
      kind.trackers.filter fun counter => counter.site count tracked = .owner := by
  cases kind <;> cases subject <;> cases tracked <;> rfl

/-- A row of the table: one pattern that names one counter, under the condition that it stands at the
counter's site. -/
theorem row_trackers {asked : Prop} [Decidable asked] {counter : Tracker}
    (names : trackersOf pattern = [counter])
    (place : asked ↔ counter.site count tracked = .child index) :
    (if asked then some pattern else none).toList.flatMap trackersOf =
      [counter].filter fun other => other.site count tracked = .child index := by
  by_cases here : asked
  · simp [here, place.mp here, names]
  · simp [here, mt place.mpr here]

theorem childPattern_trackers (filled : 0 < count) (kind : Kind) (index : Nat)
    (tracked : Option Nat) (empty : Bool) :
    (kind.childPattern index count tracked empty).toList.flatMap trackersOf =
      kind.trackers.filter fun counter => counter.site count tracked = .child index := by
  have last : index + 1 = count ↔ count - 1 = index := by omega
  unfold Kind.childPattern
  rw [if_neg (Nat.ne_of_gt filled)]
  cases kind
  case conditional => exact row_trackers rfl (by cases tracked <;> simp [Tracker.site])
  case handler => cases empty <;> exact row_trackers rfl (by simp [Tracker.site, eq_comm])
  case operatorAssignment | booleanAssignment =>
    exact row_trackers rfl (by simp [Tracker.site, last])
  case root | shortCircuit | method | block | optionalParameter | setterTarget =>
    exact row_trackers rfl (by simp [Tracker.site, eq_comm])
  all_goals rfl

theorem ownPattern_declared (own : kind.ownPattern subject = some pattern) :
    ∀ counter ∈ trackersOf pattern, counter ∈ kind.trackers := by
  intro counter named
  have listed := ownPattern_trackers kind subject 0 none
  rw [own, Option.toList_some, List.flatMap_singleton] at listed
  exact (List.mem_filter.mp (listed ▸ named)).1

theorem childPattern_declared (asked : kind.childPattern index count tracked empty = some pattern) :
    ∀ counter ∈ trackersOf pattern, counter ∈ kind.trackers := by
  intro counter named
  have filled : 0 < count := by
    rw [Nat.pos_iff_ne_zero]
    rintro rfl
    simp [Kind.childPattern] at asked
  have listed := childPattern_trackers filled kind index tracked empty
  rw [asked, Option.toList_some, List.flatMap_singleton] at listed
  exact (List.mem_filter.mp (listed ▸ named)).1

def Segment.lacks (c : Char) : Segment → Bool
  | .text value => decide (c ∉ value.toList)
  | _ => true

def unwritten : List Char := ['\n', '$', '%']

/-- A pattern whose node stands once and whose literal text writes none of these characters. -/
def Tidy (pattern : Pattern) : Prop :=
  pattern.count .node = 1 ∧ ∀ c ∈ unwritten, pattern.all (Segment.lacks c) = true

instance (pattern : Pattern) : Decidable (Tidy pattern) :=
  @instDecidableAnd _ _ inferInstance (List.decidableBAll _ _)

theorem ownPattern_tidy (own : kind.ownPattern subject = some pattern) : Tidy pattern := by
  cases kind <;> cases subject <;> cases own <;> decide

theorem childPattern_tidy (asked : kind.childPattern index count tracked empty = some pattern) :
    Tidy pattern := by
  unfold Kind.childPattern at asked
  split at asked
  · cases asked
  · cases kind <;> simp only [Option.ite_none_right_eq_some, reduceCtorEq] at asked
    case handler =>
      obtain ⟨_, same⟩ := asked
      cases empty <;> cases same <;> decide
    all_goals
      obtain ⟨_, same⟩ := asked
      cases same
      decide

theorem Tidy.node_mem (tidy : Tidy pattern) : .node ∈ pattern :=
  List.count_pos_iff.mp (by rw [tidy.1]; decide)

end Tables

section Templates

variable {pattern : Pattern} {trackers : List Tracker}

def frontOf (pattern : Pattern) : List Segment :=
  pattern.takeWhile (· != .node)

def backOf (pattern : Pattern) : List Segment :=
  (pattern.dropWhile (· != .node)).drop 1

theorem sides_of_pattern (holds : .node ∈ pattern) :
    frontOf pattern ++ .node :: backOf pattern = pattern := by
  induction pattern with
  | nil => cases holds
  | cons segment rest ih =>
      by_cases here : segment = .node
      · simp [frontOf, backOf, here]
      · have later := ih ((List.mem_cons.mp holds).resolve_left (Ne.symm here))
        simpa [frontOf, backOf, here] using later

theorem ofPattern_ok (declared : ∀ counter ∈ trackersOf pattern, counter ∈ trackers)
    (once : pattern.count .node = 1) :
    Template.ofPattern pattern trackers = .ok ⟨frontOf pattern, backOf pattern⟩ := by
  have known : Template.undeclared? trackers pattern = none := by
    apply List.findSome?_eq_none_iff.mpr
    intro segment member
    cases segment with
    | tracker counter =>
        have named : counter ∈ trackersOf pattern := List.mem_filterMap.mpr ⟨_, member, rfl⟩
        simp [declared counter named]
    | text | node | temporary => rfl
  simp only [Template.ofPattern, known, Template.split, if_pos once]
  rfl

theorem trackersOf_sides (holds : .node ∈ pattern) :
    trackersOf (frontOf pattern) ++ trackersOf (backOf pattern) = trackersOf pattern := by
  conv => rhs; rw [← sides_of_pattern holds]
  simp [trackersOf, List.filterMap_cons, Segment.tracker?]

theorem pattern_of_listed {kind : Kind} {count : Nat} (listed : pattern ∈ patterns kind count) :
    Tidy pattern ∧ ∀ counter ∈ trackersOf pattern, counter ∈ kind.trackers := by
  rw [patterns, List.mem_append] at listed
  rcases listed with own | child
  · obtain ⟨subject, _, own⟩ := List.mem_filterMap.mp own
    exact ⟨ownPattern_tidy own, ownPattern_declared own⟩
  · obtain ⟨index, _, child⟩ := List.mem_flatMap.mp child
    obtain ⟨tracked, _, child⟩ := List.mem_flatMap.mp child
    obtain ⟨empty, _, asked⟩ := List.mem_filterMap.mp child
    exact ⟨childPattern_tidy asked, childPattern_declared asked⟩

/-- All patterns of all kinds are templates. -/
theorem patternFault?_eq_none (kind : Kind) (count : Nat) : patternFault? kind count = none := by
  apply List.findSome?_eq_none_iff.mpr
  intro pattern listed
  obtain ⟨tidy, declared⟩ := pattern_of_listed listed
  rw [ofPattern_ok declared tidy.1]

end Templates

end ProbeCoverage.Cover
