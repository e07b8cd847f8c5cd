import Mathlib.Data.Finset.Lattice.Fold
import Mathlib.Order.Lattice.Nat
import ProbeCoverage.Proofs.Flow.Conservation

/-!
How large counts can get. Where the counts of all nodes are known with exact sums, none of them is
above the largest counter of the tree or the entry count that was told, and neither is any sum on
the way to one of them. A child is entered no more often than its parent, its siblings or a counter
allow, so the bound goes down the tree; a sum is the completion of a node, or what enters a `when`,
and so at most an entry. Hence words give the same counts wherever the counters are words.
-/

namespace ProbeCoverage.Flow

open Cover

def Formula.parts : Formula → List Formula
  | .zero => [.zero]
  | .hits slot => [.hits slot]
  | .count query => [.count query]
  | .fail error => [.fail error]
  | .supplied otherwise => .supplied otherwise :: otherwise.parts
  | .plus first second => .plus first second :: (first.parts ++ second.parts)
  | .minus blame first second => .minus blame first second :: (first.parts ++ second.parts)
  | .after first second => .after first second :: (first.parts ++ second.parts)

theorem Formula.self_mem_parts (formula : Formula) : formula ∈ formula.parts := by
  cases formula <;> simp [parts]

structure Capped (view : View) (limit : Nat) : Prop where
  hits : ∀ slot < view.tree.allocator.nextSlot, view.hits.get slot ≤ limit
  told : ∀ runs, view.told = some runs → runs ≤ limit

section Values

variable {view : View} {limit : Nat} (grown : Grown view.tree) (capped : Capped view limit)

include grown capped

theorem hitsOf_le (ask : Query → Except Error Nat) (node : Nat) (tracker : Tracker) {value : Nat}
    (evaluated : (hitsOf view.tree node tracker).eval view.arithmetic view.hits view.told ask =
      .ok value) : value ≤ limit := by
  unfold hitsOf at evaluated
  split at evaluated
  · rename_i slot found
    cases evaluated
    exact capped.hits slot (grown.trackerSlot?_lt found)
  · cases evaluated

omit grown in
theorem supplied_le {ask : Query → Except Error Nat} {otherwise : Formula} {value : Nat}
    (small : ∀ value, otherwise.eval view.arithmetic view.hits view.told ask = .ok value →
      value ≤ limit)
    (evaluated : (Formula.supplied otherwise).eval view.arithmetic view.hits view.told ask =
      .ok value) : value ≤ limit := by
  cases told : view.told with
  | some runs =>
      rw [told] at evaluated
      cases evaluated
      exact capped.told _ told
  | none =>
      rw [told] at evaluated small
      exact small value evaluated

/-- A formula has no value above the limit once the counts that it asks for have none. -/
def Modest (view : View) (limit : Nat) (ask : Query → Except Error Nat)
    (formula : Formula) : Prop :=
  (∀ asked ∈ formula.asks, ∀ count, ask asked = .ok count → count ≤ limit) →
    ∀ value, formula.eval view.arithmetic view.hits view.told ask = .ok value → value ≤ limit

theorem closed_modest (ask : Query → Except Error Nat) :
    Closed view.tree (Modest view limit ask) where
  zero _ value evaluated := by
    cases evaluated
    exact Nat.zero_le limit
  fail error _ _ value evaluated := by cases evaluated
  hitsOf node tracker _ value evaluated := hitsOf_le grown capped ask node tracker evaluated
  count measure node _ small value evaluated := small _ (by simp [Formula.asks]) value evaluated
  supplied modest small value evaluated := supplied_le capped (modest small) evaluated
  minus := by
    rintro blame first second left right small value evaluated
    obtain ⟨a, b, minuend, _, _, rfl⟩ := Formula.eval_minus_ok evaluated
    have bound := left (fun asked member => small asked (List.mem_append_left _ member)) a minuend
    omega
  after := by
    rintro first second left right small value evaluated
    obtain ⟨_, last⟩ := Formula.eval_after_ok evaluated
    exact right (fun asked member => small asked (List.mem_append_right _ member)) value last

end Values

theorem View.derive_of_deriveWith {view : View} {fuel count : Nat} {query : Query}
    (enough : fuel ≤ view.fuel) (derived : view.deriveWith fuel query = .ok count) :
    view.derive query = .ok count := by
  obtain ⟨more, whole⟩ := Nat.exists_eq_add_of_le enough
  rw [View.derive, whole]
  clear enough whole
  induction more with
  | zero => exact derived
  | succ more ih => exact view.deriveWith_succ_of_ok _ query count ih

theorem View.eval_ledger {view : View} {formula : Formula} (silent : formula.asks = [])
    (ask : Query → Except Error Nat) :
    formula.eval view.arithmetic view.hits view.told ask = view.ledger.eval formula :=
  Formula.eval_congr formula (by simp [silent])

structure AllDerived (view : View) : Prop where
  grown : Grown view.tree
  exact : view.arithmetic = .exact
  derived : ∀ {above place node}, Occurs view.tree.root above place node →
    ∀ measure, measure ≠ .execution →
      view.derive ⟨measure, node.number⟩ = .ok (view.ledger.value ⟨measure, node.number⟩)

namespace AllDerived

variable {view : View} {limit : Nat} {node kid : Covered} {above : Option Covered}
variable {place slot : Nat}

theorem of_counts {counts : Nat → Counts} (grown : Grown view.tree)
    (exact : view.arithmetic = .exact)
    (known : ∀ id < view.tree.size, (view.answers id).counts = .ok (counts id)) :
    AllDerived view where
  grown := grown
  exact := exact
  derived := by
    intro above place node occurs measure other
    have answered := Answers.of_counts (known node.number (number_lt_size grown occurs))
    cases measure with
    | entry => rw [(View.ledger_solves answered.1).1]; exact answered.1
    | completion => rw [(View.ledger_solves answered.2.1).1]; exact answered.2.1
    | interruption => rw [(View.ledger_solves answered.2.2).1]; exact answered.2.2
    | execution => exact absurd rfl other

variable (complete : AllDerived view)

include complete

theorem balanced : Balanced view.ledger view.tree where
  entry occurs := (View.ledger_solves (complete.derived occurs .entry (by simp))).2
  completion occurs := (View.ledger_solves (complete.derived occurs .completion (by simp))).2
  interruption occurs := (View.ledger_solves (complete.derived occurs .interruption (by simp))).2

theorem held : view.ledger.Held := Ledger.held_of_exact complete.exact

theorem keep_eq (n : Nat) : view.ledger.arithmetic.keep n = n := by
  rw [show view.ledger.arithmetic = .exact from complete.exact, Arithmetic.keep_exact]

theorem tallied (occurs : Occurs view.tree.root above place node) :
    view.ledger.Tallied 0 node.tests := by
  intro test member
  obtain ⟨wraps, _, stands⟩ := occurs_of_test occurs member
  rw [(solves_completion_test complete.grown stands wraps).mp (complete.balanced.completion stands),
    Arithmetic.add, complete.keep_eq]

theorem count_le (occurs : Occurs view.tree.root above place node)
    (entered : view.ledger.entries node ≤ limit) {measure : Measure} (other : measure ≠ .execution)
    {fuel count : Nat} (enough : fuel ≤ view.fuel)
    (derived : view.deriveWith fuel ⟨measure, node.number⟩ = .ok count) : count ≤ limit := by
  have same := View.derive_of_deriveWith enough derived
  rw [complete.derived occurs measure other] at same
  cases same
  have ends := complete.balanced.ends complete.grown occurs
  unfold Ledger.entries Ledger.completions Ledger.interruptions at ends
  unfold Ledger.entries at entered
  cases measure with
  | entry => omega
  | completion => omega
  | interruption => omega
  | execution => exact absurd rfl other

section Siblings

variable (occurs : Occurs view.tree.root above place node)

include occurs

theorem inside_le (held : node.kid? slot = some kid) (small : view.ledger.entries kid ≤ limit)
    (below : ∀ inner ∈ kid.kids, view.ledger.entries inner ≤ limit) {asked : Query}
    (inside : Inside kid asked) (other : asked.measure ≠ .execution) {fuel count : Nat}
    (enough : fuel ≤ view.fuel)
    (derived : view.deriveWith fuel asked = .ok count) : count ≤ limit := by
  have stands : Occurs view.tree.root (some node) slot kid := .child slot occurs held
  cases inside with
  | own measure => exact complete.count_le stands small other enough derived
  | deeper measure _ found =>
      exact complete.count_le (.child _ stands found) (below _ (Covered.mem_kids.mpr ⟨_, found⟩))
        other enough derived

/-- A list of targets in front of an ordinary child counts what is entered behind it, so with less
fuel than the child itself its counts stay below the limit. -/
theorem list_le (single : node.kind ≠ .multipleAssignment) (held : node.kid? slot = some kid)
    (lists : ∀ sibling ∈ node.kids, sibling.kind ≠ .setterTarget)
    (earlier : ∀ sibling ∈ node.kidsBefore slot, sibling.kind.propagation = .forward →
      view.ledger.entries sibling ≤ limit)
    {most : Nat} (enough : most ≤ view.fuel)
    (again : ∀ fuel < most, ∀ count,
      view.deriveWith fuel ⟨.entry, kid.number⟩ = .ok count → count ≤ limit) :
    ∀ fuel ≤ most, ∀ sibling ∈ node.kidsBefore slot, sibling.kind.propagation = .alternate →
      ∀ measure, measure ≠ .execution → ∀ count,
        view.deriveWith fuel ⟨measure, sibling.number⟩ = .ok count → count ≤ limit := by
  have grown := complete.grown
  intro fuel
  induction fuel with
  | zero =>
      intro _ sibling _ _ measure _ count derived
      cases derived
  | succ fuel ih =>
      intro lower sibling before alternate measure other count derived
      obtain ⟨index, next, found, behind, which⟩ := Covered.next_of_mem_kidsBefore held before
      have stands : Occurs view.tree.root (some node) index sibling := .child index occurs found
      rw [View.deriveWith] at derived
      cases measure with
      | entry =>
          rw [rule_entry_below grown stands occurs,
            if_neg (lists sibling (Covered.kidsBefore_subset before)),
            if_pos ⟨alternate, single⟩] at derived
          exact ih (by omega) sibling before alternate .completion (by simp) count derived
      | completion =>
          rw [rule_completion_target grown stands alternate, if_neg single, behind] at derived
          rcases which with rfl | between
          · exact again fuel (by omega) count derived
          · cases way : next.kind.propagation with
            | alternate => exact ih (by omega) next between way .entry (by simp) count derived
            | forward =>
                obtain ⟨_, nextHeld⟩ := Covered.mem_kids.mp (Covered.kidsBefore_subset between)
                exact complete.count_le (.child _ occurs nextHeld) (earlier next between way)
                  (by simp) (by omega) derived
      | interruption =>
          rw [rule_interruption grown stands] at derived
          obtain ⟨a, b, whole, _, _, rfl⟩ := Formula.eval_minus_ok derived
          have bound := ih (by omega) sibling before alternate .entry (by simp) a whole
          omega
      | execution => exact absurd rfl other

end Siblings

variable (capped : Capped view limit)

include capped

theorem hitsOn_le (occurs : Occurs view.tree.root above place node) {tracker : Tracker}
    (owned : tracker ∈ node.kind.trackers) : view.ledger.hitsOn node tracker ≤ limit :=
  hitsOf_le complete.grown capped (fun _ => .ok 0) node.number tracker
    (by rw [hitsOf_of_occurs complete.grown occurs owned]; rfl)

theorem fallThrough_modest (ask : Query → Except Error Nat) (id : Nat) (cell : Cell)
    (found : view.tree.cell? id = some cell) :
    Modest view limit ask (whenFallThrough view.tree cell) := by
  obtain ⟨around, place, clause, clauseOccurs, _, rfl⟩ :=
    complete.grown.numbered.occurs_of_cell? found
  intro _ value evaluated
  rw [View.eval_ledger (whenFallThrough_asks _ _),
    eval_whenFallThrough complete.grown clauseOccurs complete.held] at evaluated
  rw [evaluated.2, Ledger.passed]
  cases last : clause.tests.getLast? with
  | none => exact Nat.zero_le limit
  | some test =>
      obtain ⟨wraps, index, testOccurs⟩ :=
        occurs_of_test clauseOccurs (List.mem_of_getLast? last)
      apply complete.hitsOn_le capped testOccurs
      simp [tracker_of_isMatcher wraps]

section Children

variable (occurs : Occurs view.tree.root above place node)
variable (entered : view.ledger.entries node ≤ limit)

include occurs entered

/-- Entry of a child by the rule of its parent stays below the limit when the siblings that control
reaches before it have no counts above. -/
theorem entry_le_of_earlier (held : node.kid? slot = some kid) (safe : kid.kind ≠ .setterTarget)
    (ruled : kid.kind.propagation = .forward ∨ node.kind = .multipleAssignment)
    {fuel count : Nat} (enough : fuel ≤ view.fuel)
    (earlier : ∀ sibling ∈ earlierKids node slot, ∀ asked, Inside sibling asked →
      asked.measure ≠ .execution → ∀ count, view.deriveWith fuel asked = .ok count → count ≤ limit)
    (derived : view.deriveWith (fuel + 1) ⟨.entry, kid.number⟩ = .ok count) : count ≤ limit := by
  have grown := complete.grown
  have stands : Occurs view.tree.root (some node) slot kid := .child slot occurs held
  have byParent : rule view.tree ⟨.entry, kid.number⟩ =
      childEntry view.tree (node.cell (above.map Covered.number) place)
        (kid.cell (some node.number) slot) := by
    rw [rule_entry_below grown stands occurs, if_neg safe, if_neg]
    rintro ⟨alternate, single⟩
    rcases ruled with forward | multiple
    · simp [forward] at alternate
    · exact single multiple
  have body (clause : node.kind = .whenClause) : Modest view limit (view.deriveWith fuel)
      (whenBodyEntry view.tree (node.cell (above.map Covered.number) place)) := by
    intro _ value evaluated
    rw [View.eval_ledger (whenBodyEntry_asks _ _), eval_whenBodyEntry grown occurs,
      Ledger.matched, complete.keep_eq] at evaluated
    obtain rfl := Except.ok.inj evaluated
    have bound := clause_bound grown occurs clause complete.balanced (complete.tallied occurs)
    omega
  rw [View.deriveWith, byParent] at derived
  apply (closed_modest grown capped (view.deriveWith fuel)).childEntry body _ _ count derived
  · intro id cell found _
    exact complete.fallThrough_modest capped _ id cell found
  · intro asked member count known
    have other : asked.measure ≠ .execution :=
      (plain_rule view.tree ⟨.entry, kid.number⟩).2 asked (by rw [byParent]; exact member)
    rcases childEntry_asks grown stands _ _ asked member with rfl | ⟨sibling, before, inside⟩
    · exact complete.count_le occurs entered other enough known
    · exact earlier sibling before asked inside other count known

variable (deeper : ∀ kid ∈ node.kids, view.ledger.entries kid ≤ limit →
  ∀ inner ∈ kid.kids, view.ledger.entries inner ≤ limit)

include deeper

theorem forward_kid_le (single : node.kind ≠ .multipleAssignment) (held : node.kid? slot = some kid)
    (forward : kid.kind.propagation = .forward) : view.ledger.entries kid ≤ limit := by
  have regular := complete.grown.regular _ _ _ occurs
  -- by slot, since ordinary children follow those in front of them
  induction slot using Nat.strongRecOn generalizing kid with
  | ind slot ih =>
      have safe : kid.kind ≠ .setterTarget := by
        intro setter
        simp [setter, Kind.propagation] at forward
      have lists : ∀ sibling ∈ node.kids, sibling.kind ≠ .setterTarget := by
        rintro sibling inside setter
        obtain ⟨_, found⟩ := Covered.mem_kids.mp inside
        have group := regular.parent_of_target found (by simp [setter])
        simp [regular.propagation_of_parent held group] at forward
      have inFront : ∀ sibling ∈ node.kidsBefore slot, sibling.kind.propagation = .forward →
          view.ledger.entries sibling ≤ limit := by
        intro sibling before way
        obtain ⟨index, lower, found⟩ := Covered.slot_of_mem_kidsBefore before
        exact ih index lower found way
      -- and by fuel, since a list in front of the child asks for the entry of the child again
      have bounded : ∀ fuel ≤ view.fuel, ∀ count,
          view.deriveWith fuel ⟨.entry, kid.number⟩ = .ok count → count ≤ limit := by
        intro fuel
        induction fuel using Nat.strongRecOn with
        | ind fuel again =>
            intro enough count derived
            cases fuel with
            | zero => cases derived
            | succ fuel =>
                apply complete.entry_le_of_earlier capped occurs entered held safe (.inl forward)
                  (by omega) _ derived
                intro sibling before asked inside other count known
                rw [earlierKids, if_neg single] at before
                cases way : sibling.kind.propagation with
                | forward =>
                    have member := Covered.kidsBefore_subset before
                    obtain ⟨_, found⟩ := Covered.mem_kids.mp member
                    have small := inFront sibling before way
                    exact complete.inside_le occurs found small (deeper sibling member small)
                      inside other (by omega) known
                | alternate =>
                    cases inside with
                    | deeper _ handles _ => simp [handles, Kind.propagation] at way
                    | own measure =>
                        exact complete.list_le occurs single held lists inFront
                          (show fuel ≤ view.fuel by omega)
                          (fun less lower => again less (by omega) (by omega)) fuel (Nat.le_refl _)
                          sibling before way measure other count known
      exact bounded view.fuel (Nat.le_refl _) _
        (complete.derived (.child slot occurs held) .entry (by simp))

theorem kid_le (held : node.kid? slot = some kid)
    (later : ∀ sibling ∈ node.kidsAfter slot, view.ledger.entries sibling ≤ limit) :
    view.ledger.entries kid ≤ limit := by
  have grown := complete.grown
  have balanced := complete.balanced
  have stands : Occurs view.tree.root (some node) slot kid := .child slot occurs held
  by_cases setter : kid.kind = .setterTarget
  · rw [(solves_entry_setter grown stands setter).mp (balanced.entry stands)]
    exact complete.hitsOn_le capped stands (by simp [setter, Kind.trackers])
  by_cases assigns : node.kind = .multipleAssignment
  · -- the value of an assignment comes before its targets
    have derived := complete.derived stands .entry (by simp)
    apply complete.entry_le_of_earlier capped occurs entered held setter (.inr assigns)
      (Nat.le_succ _) _ derived
    intro sibling before asked inside other count known
    rw [earlierKids, if_pos assigns] at before
    have member := Covered.kidsAfter_subset before
    obtain ⟨_, found⟩ := Covered.mem_kids.mp member
    exact complete.inside_le occurs found (later sibling before)
      (deeper sibling member (later sibling before)) inside other (Nat.le_succ _) known
  cases way : kid.kind.propagation with
  | forward => exact complete.forward_kid_le capped occurs entered deeper assigns held way
  | alternate =>
      rw [(solves_entry_target grown stands way setter assigns).mp (balanced.entry stands),
        (solves_completion_target grown stands way).mp (balanced.completion stands),
        Ledger.handedOn, if_neg assigns]
      cases behind : (node.kidsAfter slot).head? with
      | none =>
          have ends := balanced.ends grown occurs
          change view.ledger.completions node ≤ limit
          omega
      | some next => exact later next (List.mem_of_head? behind)

theorem kids_le : ∀ kid ∈ node.kids, view.ledger.entries kid ≤ limit := by
  -- from the right, since a target learns from the next one
  suffices suffixes : ∀ rest before, node.kids = before ++ rest →
      ∀ kid ∈ rest, view.ledger.entries kid ≤ limit from suffixes node.kids [] rfl
  intro rest
  induction rest with
  | nil => simp
  | cons kid rest ih =>
      intro before split other member
      have later := ih (before ++ [kid]) (by simp [split])
      rcases List.mem_cons.mp member with rfl | behind
      · obtain ⟨slot, held, _, after⟩ := Covered.slot_of_split split
        exact complete.kid_le capped occurs entered deeper held (after ▸ later)
      · exact later other behind

end Children

theorem kids_le_of_entered (occurs : Occurs view.tree.root above place node)
    (entered : view.ledger.entries node ≤ limit) :
    ∀ kid ∈ node.kids, view.ledger.entries kid ≤ limit := by
  induction node using Covered.induction generalizing above place with
  | step node ih =>
      apply complete.kids_le capped occurs entered
      intro kid inside small
      obtain ⟨slot, held⟩ := Covered.mem_kids.mp inside
      exact ih kid inside (.child slot occurs held) small

theorem entries_le (occurs : Occurs view.tree.root above place node) :
    view.ledger.entries node ≤ limit := by
  have grown := complete.grown
  induction occurs with
  | top =>
      have derived := view.derive_solves _ _ (complete.derived .top .entry (by simp))
      rw [rule_entry grown .top] at derived
      refine supplied_le capped ?_ derived
      intro value evaluated
      split at evaluated
      · exact hitsOf_le grown capped _ _ _ evaluated
      · cases evaluated
  | child slot parent held ih =>
      exact complete.kids_le_of_entered capped parent ih _ (Covered.mem_kids.mpr ⟨slot, held⟩)

end AllDerived

def Within (view : View) (limit : Nat) (formula : Formula) : Prop :=
  ∀ part ∈ formula.parts, ∀ value,
    part.eval view.arithmetic view.hits view.told view.derive = .ok value → value ≤ limit

section Sums

variable {view : View} {limit : Nat}

theorem Within.value_le {formula : Formula} (within : Within view limit formula) {value : Nat}
    (evaluated : formula.eval view.arithmetic view.hits view.told view.derive = .ok value) :
    value ≤ limit :=
  within formula formula.self_mem_parts value evaluated

theorem Within.join {whole first second : Formula}
    (joins : whole.parts = whole :: (first.parts ++ second.parts))
    (left : Within view limit first) (right : Within view limit second)
    (total : ∀ value, whole.eval view.arithmetic view.hits view.told view.derive = .ok value →
      value ≤ limit) : Within view limit whole := by
  intro part member value evaluated
  rw [joins, List.mem_cons, List.mem_append] at member
  rcases member with rfl | inFirst | inSecond
  · exact total value evaluated
  · exact left part inFirst value evaluated
  · exact right part inSecond value evaluated

theorem Within.plus {first second : Formula} (left : Within view limit first)
    (right : Within view limit second)
    (total : ∀ value, (Formula.plus first second).eval view.arithmetic view.hits view.told
      view.derive = .ok value → value ≤ limit) : Within view limit (.plus first second) :=
  .join rfl left right total

theorem begun_le_total (exact : view.arithmetic = .exact) (terms : List Formula)
    {start : Formula} {total : Nat}
    (evaluated : (terms.foldl .plus start).eval view.arithmetic view.hits view.told view.derive =
      .ok total) :
    ∃ begun ≤ total, start.eval view.arithmetic view.hits view.told view.derive = .ok begun := by
  induction terms generalizing start with
  | nil => exact ⟨total, Nat.le_refl _, evaluated⟩
  | cons term rest ih =>
      obtain ⟨sum, lower, summed⟩ := ih evaluated
      obtain ⟨a, b, begun, _, rfl⟩ := Formula.eval_plus_ok summed
      rw [exact, Arithmetic.add, Arithmetic.keep_exact] at lower
      exact ⟨a, by omega, begun⟩

theorem Within.foldl (exact : view.arithmetic = .exact) {terms : List Formula}
    (each : ∀ term ∈ terms, Within view limit term) {start : Formula}
    (within : Within view limit start) {total : Nat} (bound : total ≤ limit)
    (evaluated : (terms.foldl .plus start).eval view.arithmetic view.hits view.told view.derive =
      .ok total) :
    Within view limit (terms.foldl .plus start) := by
  induction terms generalizing start with
  | nil => exact within
  | cons term rest ih =>
      refine ih (fun other member => each other (List.mem_cons_of_mem _ member)) ?_ evaluated
      apply within.plus (each term List.mem_cons_self)
      intro value summed
      obtain ⟨sum, lower, same⟩ := begun_le_total exact rest evaluated
      rw [summed] at same
      cases same
      omega

end Sums

namespace AllDerived

variable {view : View} {limit : Nat} {node : Covered} {above : Option Covered} {place : Nat}
variable (complete : AllDerived view) (capped : Capped view limit)

include complete capped

theorem derived_le {measure : Measure} (other : measure ≠ .execution) {id count : Nat}
    (derived : view.derive ⟨measure, id⟩ = .ok count) : count ≤ limit := by
  cases found : view.tree.cell? id with
  | none =>
      have solved := view.derive_solves _ _ derived
      simp [rule, found, Formula.eval] at solved
  | some cell =>
      obtain ⟨above, place, node, occurs, rfl, _⟩ :=
        complete.grown.numbered.occurs_of_cell? found
      exact complete.count_le occurs (complete.entries_le capped occurs) other (Nat.le_refl _)
        derived

theorem closed_within : Closed view.tree (Within view limit) where
  zero := by
    intro part member value evaluated
    obtain rfl := List.mem_singleton.mp member
    cases evaluated
    exact Nat.zero_le limit
  fail error _ := by
    intro part member value evaluated
    obtain rfl := List.mem_singleton.mp member
    cases evaluated
  hitsOf node tracker := by
    intro part member value evaluated
    have same : part = hitsOf view.tree node tracker := by
      unfold hitsOf at member ⊢
      split at member <;> simpa [Formula.parts] using member
    exact hitsOf_le complete.grown capped _ node tracker (same ▸ evaluated)
  count measure node other := by
    intro part member value evaluated
    obtain rfl := List.mem_singleton.mp member
    exact complete.derived_le capped other evaluated
  supplied := by
    rintro otherwise within part member value evaluated
    rcases List.mem_cons.mp member with rfl | inside
    · exact supplied_le capped (fun value => within.value_le) evaluated
    · exact within part inside value evaluated
  minus := by
    rintro blame first second left right
    apply Within.join rfl left right
    intro value evaluated
    obtain ⟨a, b, minuend, _, _, rfl⟩ := Formula.eval_minus_ok evaluated
    have bound := left.value_le minuend
    omega
  after := by
    rintro first second left right
    apply Within.join rfl left right
    intro value evaluated
    exact right.value_le (Formula.eval_after_ok evaluated).2

section Clauses

variable (occurs : Occurs view.tree.root above place node) (clause : node.kind = .whenClause)

include occurs clause

theorem clause_le : view.ledger.allMatches node + view.ledger.passed node ≤ limit :=
  (clause_bound complete.grown occurs clause complete.balanced (complete.tallied occurs)).trans
    (complete.entries_le capped occurs)

theorem matched_within :
    Within view limit (whenBodyEntry view.tree (node.cell (above.map Covered.number) place)) := by
  have closed := complete.closed_within capped
  have total : (whenBodyEntry view.tree (node.cell (above.map Covered.number) place)).eval
      view.arithmetic view.hits view.told view.derive = .ok (view.ledger.allMatches node) := by
    rw [View.eval_ledger (whenBodyEntry_asks _ _), eval_whenBodyEntry complete.grown occurs,
      Ledger.matched, complete.keep_eq]
  have bound := complete.clause_le capped occurs clause
  apply Within.foldl complete.exact _ closed.zero (by omega) total
  intro term member
  obtain ⟨test, _, rfl⟩ := List.mem_map.mp member
  exact closed.hitsOf test .matched

theorem tested_within :
    Within view limit (whenTested view.tree (node.cell (above.map Covered.number) place)) := by
  have closed := complete.closed_within capped
  apply (complete.matched_within capped occurs clause).plus
  · split
    · exact closed.hitsOf _ _
    · exact closed.zero
  · intro value evaluated
    have solved := (View.eval_ledger (whenTested_asks _ _) _).symm.trans evaluated
    rw [eval_whenTested complete.grown occurs, Arithmetic.add, Ledger.matched, complete.keep_eq,
      complete.keep_eq] at solved
    obtain rfl := Except.ok.inj solved
    exact complete.clause_le capped occurs clause

end Clauses

section Completions

variable {id : Nat} {cell : Cell} (found : view.tree.cell? id = some cell)

include found

theorem completion_total {formula : Formula} (gives : completionRule view.tree cell = formula) :
    ∃ total ≤ limit, formula.eval view.arithmetic view.hits view.told view.derive = .ok total ∧
      ∀ value, formula.eval view.arithmetic view.hits view.told view.derive = .ok value →
        value ≤ limit := by
  obtain ⟨above, place, node, occurs, rfl, _⟩ := complete.grown.numbered.occurs_of_cell? found
  have derived := complete.derived occurs .completion (by simp)
  have bound := complete.derived_le capped (by simp) derived
  have solved := view.derive_solves _ _ derived
  simp only [rule, found, gives] at solved
  refine ⟨_, bound, solved, ?_⟩
  intro value evaluated
  rw [solved] at evaluated
  cases evaluated
  exact bound

theorem branches_within (kind : cell.kind = .conditional) :
    Within view limit (.plus (childCompletion cell 1) (childCompletion cell 2)) := by
  have closed := complete.closed_within capped
  have gives : completionRule view.tree cell =
      .plus (childCompletion cell 1) (childCompletion cell 2) := by
    simp only [completionRule, kind, Kind.completion, structuralCompletion]
  obtain ⟨_, _, _, bound⟩ := complete.completion_total capped found gives
  exact (closed.childCompletion cell 1).plus (closed.childCompletion cell 2) bound

theorem operands_within (kind : cell.kind = .shortCircuit) :
    Within view limit (shortCircuitCompletion cell) := by
  have closed := complete.closed_within capped
  have gives : completionRule view.tree cell = shortCircuitCompletion cell := by
    simp only [completionRule, kind, Kind.completion, structuralCompletion]
  obtain ⟨_, _, _, bound⟩ := complete.completion_total capped found gives
  unfold shortCircuitCompletion withChild at bound ⊢
  cases left : cell.child? 0 with
  | none => exact closed.fail _ (by simp)
  | some first =>
      cases right : cell.child? 1 with
      | none => exact closed.fail _ (by simp)
      | some second =>
          simp only [left, right] at bound ⊢
          exact (closed.minus (closed.completionOf first) (closed.entryOf second)).plus
            (closed.completionOf second) bound

theorem later_within (kind : cell.kind = .caseDispatch ∨ cell.kind = .guarded) :
    Within view limit (laterCompletions cell) := by
  have closed := complete.closed_within capped
  have gives : completionRule view.tree cell = laterCompletions cell := by
    rcases kind with same | same <;>
      simp only [completionRule, same, Kind.completion, structuralCompletion]
  obtain ⟨_, bound, evaluated, _⟩ := complete.completion_total capped found gives
  apply Within.foldl complete.exact _ closed.zero bound evaluated
  intro term member
  obtain ⟨child, _, rfl⟩ := List.mem_map.mp member
  exact closed.completionOf child

theorem verdicts_within (wraps : cell.kind.isMatcher = true) :
    Within view limit (.plus (hitsOf view.tree cell.number .matched)
      (hitsOf view.tree cell.number .missed)) := by
  have closed := complete.closed_within capped
  have gives : completionRule view.tree cell = .plus (hitsOf view.tree cell.number .matched)
      (hitsOf view.tree cell.number .missed) := by
    cases kind : cell.kind <;> simp [kind, Kind.isMatcher] at wraps <;>
      simp only [completionRule, kind, Kind.completion, structuralCompletion]
  obtain ⟨_, _, _, bound⟩ := complete.completion_total capped found gives
  exact (closed.hitsOf _ _).plus (closed.hitsOf _ _) bound

end Completions

/-- No rule forms a value above the limit on the way to a count. -/
theorem rule_within (query : Query) : Within view limit (rule view.tree query) := by
  apply (complete.closed_within capped).rule
  intro id cell found
  obtain ⟨above, place, node, occurs, _, rfl⟩ := complete.grown.numbered.occurs_of_cell? found
  constructor
  · exact complete.matched_within capped occurs
  · exact complete.tested_within capped occurs
  · exact complete.branches_within capped found
  · exact complete.operands_within capped found
  · exact complete.later_within capped found
  · exact complete.verdicts_within capped found

end AllDerived

def View.most (view : View) : Nat :=
  max ((Finset.range view.tree.allocator.nextSlot).sup view.hits.get) (view.told.getD 0)

theorem View.capped_most (view : View) : Capped view view.most where
  hits slot bound :=
    (Finset.le_sup (Finset.mem_range.mpr bound)).trans (le_max_left _ _)
  told runs told := by
    rw [View.most, told]
    exact le_max_right _ _

theorem View.most_lt {view : View} {size : Nat} (positive : 0 < size)
    (hits : ∀ slot < view.tree.allocator.nextSlot, view.hits.get slot < size)
    (told : ∀ runs, view.told = some runs → runs < size) : view.most < size := by
  apply max_lt
  · rw [Finset.sup_lt_iff positive]
    intro slot member
    exact hits slot (Finset.mem_range.mp member)
  · cases given : view.told with
    | none => exact positive
    | some runs => exact told runs given

namespace Formula

variable {hits : Probe.Hits} {told : Option Nat} {ask : Query → Except Error Nat}

theorem eval_of_fitting (arithmetic : Arithmetic) (formula : Formula)
    (fits : ∀ part ∈ formula.parts, ∀ value, part.eval .exact hits told ask = .ok value →
      arithmetic.Holds value) :
    formula.eval arithmetic hits told ask = formula.eval .exact hits told ask := by
  induction formula with
  | zero | hits | count | fail => rfl
  | supplied otherwise ih =>
      cases told with
      | some runs => rfl
      | none => exact ih fun part inside => fits part (List.mem_cons_of_mem _ inside)
  | plus first second ihFirst ihSecond =>
      have left := ihFirst fun part inside =>
        fits part (List.mem_cons_of_mem _ (List.mem_append_left _ inside))
      have right := ihSecond fun part inside =>
        fits part (List.mem_cons_of_mem _ (List.mem_append_right _ inside))
      simp only [eval, left, right]
      cases valueFirst : first.eval .exact hits told ask with
      | error error => rfl
      | ok a =>
          cases valueSecond : second.eval .exact hits told ask with
          | error error => rfl
          | ok b =>
              have total : arithmetic.Holds (a + b) :=
                fits _ List.mem_cons_self _
                  (by simp [eval, valueFirst, valueSecond, Arithmetic.add])
              simp only [Arithmetic.add, Arithmetic.keep_exact, Arithmetic.keep_of_holds total]
  | minus blame first second ihFirst ihSecond
  | after first second ihFirst ihSecond =>
      have left := ihFirst fun part inside =>
        fits part (List.mem_cons_of_mem _ (List.mem_append_left _ inside))
      have right := ihSecond fun part inside =>
        fits part (List.mem_cons_of_mem _ (List.mem_append_right _ inside))
      simp only [eval, left, right]

end Formula

section Transfer

variable {tree : CoverTree} {hits : Probe.Hits} {told : Option Nat} {arithmetic : Arithmetic}

/-- Where no part of a rule is too large, it does not matter how sums are taken. -/
theorem View.derive_of_fitting
    (fits : ∀ query, ∀ part ∈ (rule tree query).parts, ∀ value,
      part.eval .exact hits told (View.derive ⟨tree, hits, told, .exact⟩) = .ok value →
        arithmetic.Holds value) (query : Query) :
    View.derive ⟨tree, hits, told, arithmetic⟩ query =
      View.derive ⟨tree, hits, told, .exact⟩ query := by
  -- at every fuel: what a part is worth with less fuel it is worth with all of it
  have same : ∀ fuel ≤ View.fuel ⟨tree, hits, told, .exact⟩,
      View.deriveWith ⟨tree, hits, told, arithmetic⟩ fuel =
        View.deriveWith ⟨tree, hits, told, .exact⟩ fuel := by
    intro fuel
    induction fuel with
    | zero => exact fun _ => rfl
    | succ fuel ih =>
        intro enough
        funext query
        rw [View.deriveWith, View.deriveWith, ih (by omega)]
        apply Formula.eval_of_fitting
        intro part inside value evaluated
        apply fits query part inside value
        exact Formula.eval_extend part
          (fun asked count => View.derive_of_deriveWith (by omega)) evaluated
  exact congrFun (same _ (Nat.le_refl _)) query

theorem AllDerived.part_holds (complete : AllDerived ⟨tree, hits, told, .exact⟩)
    (held : View.Held ⟨tree, hits, told, arithmetic⟩) (query : Query) (part : Formula)
    (inside : part ∈ (rule tree query).parts) (value : Nat)
    (evaluated : part.eval .exact hits told (View.derive ⟨tree, hits, told, .exact⟩) = .ok value) :
    arithmetic.Holds value := by
  cases arithmetic with
  | exact => trivial
  | word =>
      have below {n : Nat} (fits : Arithmetic.word.Holds n) : n ≤ UInt64.size - 1 :=
        Nat.le_sub_one_of_lt fits
      have capped : Capped ⟨tree, hits, told, .exact⟩ (UInt64.size - 1) :=
        ⟨fun slot _ => below (held.hits slot), fun runs given => below (held.told runs given)⟩
      have bound := complete.rule_within capped query part inside value evaluated
      exact Nat.lt_of_le_of_lt bound (by decide)

end Transfer

/-- Counts stay within their counters. Where the counts of all nodes are known with exact sums, no
count and no value on the way to one is above the largest counter of the tree and the entry count
told. With counters of machine size, none of them is too large for a machine word, and sums of words
give the same answers. -/
theorem counts_within_counters {tree : CoverTree} {hits : Probe.Hits} {told : Option Nat}
    {counts : Nat → Counts} (built : Built tree)
    (known : ∀ id < tree.size,
      (View.answers ⟨tree, hits, told, .exact⟩ id).counts = .ok (counts id)) :
    let view : View := ⟨tree, hits, told, .exact⟩
    (∀ query count, view.derive query = .ok count → count ≤ view.most) ∧
    (∀ query, ∀ part ∈ (rule tree query).parts, ∀ value,
      part.eval .exact hits told view.derive = .ok value → value ≤ view.most) ∧
    ((∀ slot < tree.allocator.nextSlot, hits.get slot < UInt64.size) →
      (∀ runs, told = some runs → runs < UInt64.size) →
      (∀ query, ∀ part ∈ (rule tree query).parts, ∀ value,
        part.eval .exact hits told view.derive = .ok value → value < UInt64.size) ∧
      ∀ query, View.derive ⟨tree, hits, told, .word⟩ query = view.derive query) := by
  intro view
  have complete : AllDerived view := .of_counts built.grown rfl known
  have within := complete.rule_within view.capped_most
  refine ⟨?_, within, ?_⟩
  · intro query count derived
    exact (within query).value_le (view.derive_solves query count derived)
  · intro hitsFit toldFit
    have fits : ∀ query, ∀ part ∈ (rule tree query).parts, ∀ value,
        part.eval .exact hits told view.derive = .ok value → value < UInt64.size :=
      fun query part inside value evaluated =>
        (within query part inside value evaluated).trans_lt
          (View.most_lt (by decide) hitsFit toldFit)
    exact ⟨fits, View.derive_of_fitting fits⟩

/-- Ten runs of a dispatch: one of its counters stands at ten, and no count is above. -/
theorem counts_within_counters_dispatch :
    ∃ tree, CoverTree.ofProgram Probe.defaultGlobal 0 guardedDispatch = .ok tree ∧
      let view : View := ⟨tree, dispatchHits, none, .exact⟩
      view.complete = true ∧ view.most = 10 ∧
      (∀ query count, view.derive query = .ok count → count ≤ 10) ∧
      ∀ query, ∀ part ∈ (rule tree query).parts, ∀ value,
        part.eval .exact dispatchHits none view.derive = .ok value → value ≤ 10 := by
  have bounded {tree : CoverTree}
      (covered : CoverTree.ofProgram Probe.defaultGlobal 0 guardedDispatch = .ok tree)
      (complete : View.complete ⟨tree, dispatchHits, none, .exact⟩ = true)
      (most : View.most ⟨tree, dispatchHits, none, .exact⟩ = 10) :
      let view : View := ⟨tree, dispatchHits, none, .exact⟩
      (∀ query count, view.derive query = .ok count → count ≤ 10) ∧
      ∀ query, ∀ part ∈ (rule tree query).parts, ∀ value,
        part.eval .exact dispatchHits none view.derive = .ok value → value ≤ 10 := by
    obtain ⟨counts, parts, _⟩ := counts_within_counters (.program covered)
      (View.counts_eq_countsAt complete)
    rw [most] at counts parts
    exact ⟨counts, parts⟩
  exact ⟨_, rfl, rfl, rfl, bounded rfl rfl rfl⟩

end ProbeCoverage.Flow
