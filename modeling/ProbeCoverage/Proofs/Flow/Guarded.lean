import ProbeCoverage.Proofs.Flow.Handlers

/-!
What is reported of a guarded node. Its own code counts as run when its body completed, and it can
complete through a handler without that. What its handlers complete they were tried for, so all
completions behind the body stay within the entries of the body, and their sum never wraps around.
-/

namespace ProbeCoverage.Flow

open Cover

section Stuck

theorem Formula.eval_sum_ok {arithmetic : Arithmetic} {hits : Probe.Hits} {told : Option Nat}
    {ask : Query → Except Error Nat} {terms : List Formula} {value : Nat}
    (evaluated : (Formula.sum terms).eval arithmetic hits told ask = .ok value) :
    ∀ term ∈ terms, ∃ count, term.eval arithmetic hits told ask = .ok count := by
  unfold Formula.sum at evaluated
  suffices folded : ∀ start : Formula,
      (terms.foldl .plus start).eval arithmetic hits told ask = .ok value →
      (∃ count, start.eval arithmetic hits told ask = .ok count) ∧
        ∀ term ∈ terms, ∃ count, term.eval arithmetic hits told ask = .ok count from
    (folded .zero evaluated).2
  clear evaluated
  induction terms with
  | nil =>
      intro start evaluated
      exact ⟨⟨value, evaluated⟩, by simp⟩
  | cons term rest ih =>
      intro start evaluated
      obtain ⟨⟨count, first⟩, later⟩ := ih (.plus start term) evaluated
      obtain ⟨a, b, begun, own, _⟩ := Formula.eval_plus_ok first
      refine ⟨⟨a, begun⟩, ?_⟩
      intro other member
      rcases List.mem_cons.mp member with rfl | inside
      · exact ⟨b, own⟩
      · exact later other inside

/-- Counts each of which needs another one of them are never derived. -/
theorem View.deriveWith_stuck {view : View} (stuck : List Query)
    (needs : ∀ query ∈ stuck, ∀ ask value,
      (rule view.tree query).eval view.arithmetic view.hits view.told ask = .ok value →
        ∃ asked ∈ stuck, ∃ count, ask asked = .ok count)
    (fuel : Nat) (query : Query) (member : query ∈ stuck) (count : Nat) :
    view.deriveWith fuel query ≠ .ok count := by
  induction fuel generalizing query count with
  | zero => simp [View.deriveWith]
  | succ fuel ih =>
      intro derived
      rw [View.deriveWith] at derived
      obtain ⟨asked, again, value, found⟩ := needs query member _ count derived
      exact ih asked again value found

variable {view : View} {node kid : Covered} {above : Option Covered} {slot place : Nat}

/-- A child that its node needs in order to complete, and that nothing stands behind, is no
assignment target. It would complete as often as the node, so neither count could be derived. -/
theorem forward_of_needed (grown : Grown view.tree)
    (stands : Occurs view.tree.root (some node) place kid)
    (single : node.kind ≠ .multipleAssignment) (last : node.kidsAfter place = []) {count : Nat}
    (derived : view.derive ⟨.completion, node.number⟩ = .ok count)
    (needs : ∀ ask value,
      (rule view.tree ⟨.completion, node.number⟩).eval view.arithmetic view.hits view.told ask =
        .ok value → ∃ count, ask ⟨.completion, kid.number⟩ = .ok count) :
    kid.kind.propagation = .forward := by
  cases way : kid.kind.propagation with
  | forward => rfl
  | alternate =>
      exfalso
      apply View.deriveWith_stuck [⟨.completion, node.number⟩, ⟨.completion, kid.number⟩] _
        view.fuel _ List.mem_cons_self count derived
      intro query member ask value evaluated
      rcases List.mem_cons.mp member with rfl | target
      · exact ⟨_, by simp, needs ask value evaluated⟩
      · obtain rfl := List.mem_singleton.mp target
        rw [rule_completion_target grown stands way, if_neg single, last] at evaluated
        exact ⟨_, by simp, value, evaluated⟩

theorem forward_behind_body (grown : Grown view.tree)
    (occurs : Occurs view.tree.root above slot node) (guards : node.kind = .guarded) {count : Nat}
    (derived : view.derive ⟨.completion, node.number⟩ = .ok count)
    (held : node.kid? place = some kid) (later : place ≠ 0) :
    kid.kind.propagation = .forward := by
  by_cases final : node.branches.length ≤ place + 1
  · apply forward_of_needed grown (.child place occurs held) (by simp [guards]) _ derived
    · intro ask value evaluated
      have behind : kid ∈ node.kidsAfter 0 := by
        obtain ⟨before, _, parts⟩ := Covered.kidsBefore_split held later
        simp [parts]
      rw [rule_completion_later grown occurs (.inr guards)] at evaluated
      exact Formula.eval_sum_ok evaluated _ (List.mem_map_of_mem behind)
    · rw [Covered.kidsAfter, List.drop_eq_nil_of_le final, List.filterMap_nil]
  · -- between the body and the last slot stand handlers
    have handles := ((grown.regular _ _ _ occurs).middle_kid held (by omega) (by omega)).2 guards
    rw [handles]
    rfl

theorem forward_in_handler (grown : Grown view.tree)
    (occurs : Occurs view.tree.root above slot node) (handles : node.kind = .handler) {count : Nat}
    (derived : view.derive ⟨.completion, node.number⟩ = .ok count)
    (held : node.kid? 2 = some kid) : kid.kind.propagation = .forward := by
  apply forward_of_needed grown (.child 2 occurs held) (by simp [handles]) _ derived
  · intro ask value evaluated
    rw [rule_completion grown occurs] at evaluated
    simp only [completionRule, Covered.cell_kind, handles, Kind.completion, structuralCompletion,
      Covered.cell_child?, held, Option.map_some] at evaluated
    exact ⟨value, evaluated⟩
  · have length : node.branches.length = 3 :=
      (grown.regular _ _ _ occurs).length_eq (by rw [handles]; rfl)
    rw [Covered.kidsAfter, List.drop_eq_nil_of_le (by omega), List.filterMap_nil]

end Stuck

section Handler

variable {ledger : Ledger} {tree : CoverTree} {node kid : Covered}
variable {above : Option Covered} {slot place : Nat}
variable (grown : Grown tree) (balanced : Balanced ledger tree)
variable (occurs : Occurs tree.root above slot node) (handles : node.kind = .handler)

include grown occurs handles

theorem solves_completion_bare (bare : node.kid? 2 = none) :
    ledger.Solves tree ⟨.completion, node.number⟩ ↔
      ledger.completions node = ledger.hitsOn node .handlerEntry := by
  rw [Ledger.Solves, rule_completion grown occurs]
  simp only [completionRule, Covered.cell_kind, handles, Kind.completion, structuralCompletion,
    Covered.cell_child?, bare, Option.map_none, Covered.cell_number]
  rw [eval_hitsOf grown occurs .handlerEntry (by simp [handles, Kind.trackers])]
  exact Ledger.ok_iff

include balanced

theorem entries_in_handler (held : node.kid? place = some kid) (later : place ≠ 0)
    (forward : kid.kind.propagation = .forward) :
    ledger.entries kid = ledger.hitsOn node .handlerEntry :=
  (solves_entry_later grown (.child place occurs held) forward (by rw [handles]; rfl) later).mp
    (balanced.entry (.child place occurs held))

variable (forward : ∀ kid, node.kid? 2 = some kid → kid.kind.propagation = .forward)

include forward

theorem completions_le_caught : ledger.completions node ≤ ledger.hitsOn node .handlerEntry := by
  cases held : node.kid? 2 with
  | none =>
      rw [(solves_completion_bare grown occurs handles held).mp (balanced.completion occurs)]
  | some body =>
      have entered :=
        entries_in_handler grown balanced occurs handles held (by decide) (forward body held)
      have ends := balanced.ends grown (.child 2 occurs held)
      rw [(solves_completion_handler grown occurs handles held).mp (balanced.completion occurs)]
      omega

theorem handedOn_le_caught (place : Nat) :
    ledger.handedOn node place ≤ ledger.hitsOn node .handlerEntry := by
  have single : node.kind ≠ .multipleAssignment := by simp [handles]
  -- each step goes to a later slot
  induction left : node.branches.length - place using Nat.strongRecOn generalizing place with
  | ind left ih =>
      subst left
      simp only [Ledger.handedOn, if_neg single]
      cases next : (node.kidsAfter place).head? with
      | none => exact completions_le_caught grown balanced occurs handles forward
      | some kid =>
          obtain ⟨behind, later, held⟩ :=
            Covered.slot_of_mem_kidsAfter (List.mem_of_mem_head? next)
          have stands : Occurs tree.root (some node) behind kid := .child behind occurs held
          have inside := Covered.slot_lt held
          cases way : kid.kind.propagation with
          | forward =>
              exact (entries_in_handler grown balanced occurs handles held (by omega) way).le
          | alternate =>
              have safe : kid.kind ≠ .setterTarget := by
                intro setter
                have around :=
                  (grown.regular _ _ _ occurs).parent_of_target held (by simp [setter])
                simp [handles] at around
              have entered : ledger.entries kid = ledger.completions kid :=
                (solves_entry_target grown stands way safe single).mp (balanced.entry stands)
              have completed : ledger.completions kid = ledger.handedOn node behind :=
                (solves_completion_target grown stands way).mp (balanced.completion stands)
              change ledger.entries kid ≤ _
              rw [entered, completed]
              exact ih _ (by omega) behind rfl

/-- What a handler completes and what it lets pass it was tried for. -/
theorem handler_spends :
    ledger.completions node + ledger.uncaught node ≤ ledger.entries node := by
  have ends := balanced.ends grown occurs
  have caught := completions_le_caught grown balanced occurs handles forward
  have tested : ledger.tested node ≤ ledger.entries node ∨
      ledger.tested node ≤ ledger.hitsOn node .handlerEntry := by
    unfold Ledger.tested
    cases held : node.kid? 0 with
    | none => exact .inl (Nat.le_refl _)
    | some exceptions =>
        have stands : Occurs tree.root (some node) 0 exceptions := .child 0 occurs held
        cases way : exceptions.kind.propagation with
        | forward =>
            have enters : ledger.entries exceptions = ledger.entries node :=
              (solves_entry_first grown stands way (by rw [handles]; rfl) rfl).mp
                (balanced.entry stands)
            have ends := balanced.ends grown stands
            left
            change ledger.completions exceptions ≤ _
            omega
        | alternate =>
            right
            change ledger.completions exceptions ≤ _
            rw [(solves_completion_target grown stands way).mp (balanced.completion stands)]
            exact handedOn_le_caught grown balanced occurs handles forward 0
  unfold Ledger.uncaught
  omega

end Handler

section Guarded

variable {ledger : Ledger} {tree : CoverTree} {node body : Covered}
variable {above : Option Covered} {slot : Nat}

/-- Along a row of handlers, all that they spend was tried at the front. -/
theorem spent_along (start : Nat) (handlers : List Covered)
    (linked : ∀ before handler after, handlers = before ++ handler :: after →
      ledger.entries handler = passedOn ledger.uncaught start before)
    (spends : ∀ handler ∈ handlers,
      ledger.completions handler + ledger.uncaught handler ≤ ledger.entries handler) :
    (handlers.map ledger.completions).sum ≤ start := by
  induction handlers generalizing start with
  | nil => exact Nat.zero_le _
  | cons handler rest ih =>
      have entered : ledger.entries handler = start := linked [] handler rest rfl
      have here := spends handler List.mem_cons_self
      have later := ih (ledger.uncaught handler)
        (fun before other after split => by
          rw [linked (handler :: before) other after (by rw [split]; rfl), passedOn_cons])
        (fun other member => spends other (List.mem_cons_of_mem _ member))
      rw [List.map_cons, List.sum_cons]
      omega

variable (grown : Grown tree) (balanced : Balanced ledger tree)
variable (occurs : Occurs tree.root above slot node) (guards : node.kind = .guarded)
variable (forward : ∀ place kid, node.kid? place = some kid → place ≠ 0 →
  kid.kind.propagation = .forward)

include grown balanced occurs guards forward

theorem body_of_completed (completed : 0 < ledger.completions node) :
    ∃ body, node.kid? 0 = some body := by
  have joins := (solves_completion_later grown occurs (.inr guards)).mp (balanced.completion occurs)
  cases kids : node.kidsAfter 0 with
  | nil => simp [joins, kids] at completed
  | cons kid rest =>
      obtain ⟨place, later, held⟩ :=
        Covered.slot_of_mem_kidsAfter (show kid ∈ node.kidsAfter 0 by simp [kids])
      have stands : Occurs tree.root (some node) place kid := .child place occurs held
      have other : place ≠ 0 := by omega
      have solved := (solves_entry grown stands occurs (forward place kid held other)).mp
        (balanced.entry stands)
      cases found : node.kid? 0 with
      | some body => exact ⟨body, rfl⟩
      | none =>
          simp [childEntry, guards, other, guardedChildEntry, withChild, found, Ledger.eval,
            Formula.eval] at solved

variable (held : node.kid? 0 = some body)

include held

theorem unthrown_le :
    ((node.last?.toList.filter fun kid => ¬kid.kind = .handler).map ledger.completions).sum ≤
      ledger.completions body := by
  cases last : node.last? with
  | none => simp
  | some kid =>
      by_cases handles : kid.kind = .handler
      · simp [handles]
      · have other : node.branches.length - 1 ≠ 0 := by
          have arity := (grown.regular _ _ _ occurs).arity
          simp [guards, Kind.arity, Ast.Arity.accepts, Ast.Arity.atLeast] at arity
          omega
        have stands : Occurs tree.root (some node) (node.branches.length - 1) kid :=
          .child _ occurs last
        have entered : ledger.entries kid = ledger.completions body :=
          (solves_entry_unguarded grown stands (forward _ kid last other) guards other held
            handles).mp (balanced.entry stands)
        have ends := balanced.ends grown stands
        simp [handles]
        omega

variable (inner : ∀ {above slot handler}, Occurs tree.root above slot handler →
  handler.kind = .handler → ∀ kid, handler.kid? 2 = some kid → kid.kind.propagation = .forward)

include inner

omit forward in
theorem rescued_le_thrown :
    (node.laterHandlers.map ledger.completions).sum ≤ ledger.thrown body := by
  apply spent_along
  · intro before handler after split
    exact (handler_tried grown balanced occurs guards held split).1
  · intro handler member
    obtain ⟨inside, handles⟩ := List.mem_filter.mp member
    obtain ⟨place, _, stands⟩ := Covered.slot_of_mem_kidsAfter inside
    have handlerOccurs : Occurs tree.root (some node) place handler := .child place occurs stands
    have isHandler : handler.kind = .handler := by simpa using handles
    exact handler_spends grown balanced handlerOccurs isHandler (inner handlerOccurs isHandler)

omit guards forward in
theorem thrown_le_entries : ledger.thrown body + ledger.completions body ≤ ledger.entries body := by
  have bodyOccurs : Occurs tree.root (some node) 0 body := .child 0 occurs held
  unfold Ledger.thrown
  by_cases handles : body.kind = .handler
  · have spends := handler_spends grown balanced bodyOccurs handles (inner bodyOccurs handles)
    rw [if_pos handles]
    omega
  · have ends := balanced.ends grown bodyOccurs
    rw [if_neg handles]
    omega

/-- A guarded node completes through its handlers, and otherwise no more often than its body. -/
theorem guarded_completions (fits : ledger.Held) :
    (node.laterHandlers.map ledger.completions).sum ≤ ledger.completions node ∧
      ledger.completions node ≤
        (node.laterHandlers.map ledger.completions).sum + ledger.completions body := by
  have joins := (solves_completion_later grown occurs (.inr guards)).mp (balanced.completion occurs)
  rw [guarded_later grown occurs guards, List.map_append, List.sum_append] at joins
  have otherwise := unthrown_le grown balanced occurs guards forward held
  have rescued := rescued_le_thrown grown balanced occurs guards held inner
  have entered := thrown_le_entries grown balanced occurs held inner
  rw [fits.keep_eq ((Nat.add_le_add rescued otherwise).trans entered)] at joins
  omega

end Guarded

theorem execution_of_guarded {view : View} {counts : Nat → Counts} (grown : Grown view.tree)
    (known : ∀ id < view.tree.size, (view.answers id).counts = .ok (counts id))
    {above : Option Covered} {slot : Nat} {node body : Covered}
    (occurs : Occurs view.tree.root above slot node) (guards : node.kind = .guarded)
    (held : node.kid? 0 = some body) :
    view.execution node.number = .ok (counts body.number).fullRuns := by
  have stands : Occurs view.tree.root (some node) 0 body := .child 0 occurs held
  have fuel : view.fuel = 4 * view.tree.size + 1 := rfl
  obtain ⟨_, completed, interrupted⟩ :=
    Answers.of_counts (known body.number (number_lt_size grown stands))
  -- the interruptions of the body were derived, so its completions leave fuel for one more step
  have early : view.deriveWith (4 * view.tree.size) ⟨.completion, body.number⟩ =
      .ok (counts body.number).fullRuns := by
    change view.derive ⟨.interruption, body.number⟩ = _ at interrupted
    rw [View.derive, fuel, View.deriveWith, rule_interruption grown stands] at interrupted
    obtain ⟨_, count, _, derived, _, _⟩ := Formula.eval_minus_ok interrupted
    have same := View.deriveWith_succ_of_ok view _ _ count derived
    change view.completion body.number = _ at same
    change view.completion body.number = _ at completed
    rw [completed] at same
    rw [same]
    exact derived
  rw [View.execution, View.derive, fuel, View.deriveWith, rule_execution grown occurs]
  simp only [executionRule, Covered.cell_kind, guards, Kind.execution, structuralExecution,
    withChild, Covered.cell_child?, held, Option.map_some]
  exact early

/-- What is reported of a guarded node that completed: whether its body completed. It completes
through its handlers, and otherwise no more often than the body. So it is reported as executed as
soon as it completed more often than its handlers did. When it is reported as not executed, all its
completions went through handlers. -/
theorem completed_guarded_reported {view : View} {counts : Nat → Counts} (built : Built view.tree)
    (fits : view.Held)
    (known : ∀ id < view.tree.size, (view.answers id).counts = .ok (counts id))
    {above : Option Covered} {slot : Nat} {node : Covered}
    (occurs : Occurs view.tree.root above slot node) (guards : node.kind = .guarded)
    (completed : 0 < (counts node.number).fullRuns) :
    let reported := (view.answers node.number).wasExecuted node.kind
    let rescued := (node.laterHandlers.map fun handler => (counts handler.number).fullRuns).sum
    ∃ body, node.kid? 0 = some body ∧
      reported = .ok (some (decide (0 < (counts body.number).fullRuns))) ∧
      rescued ≤ (counts node.number).fullRuns ∧
      (counts node.number).fullRuns ≤ rescued + (counts body.number).fullRuns ∧
      (rescued < (counts node.number).fullRuns → reported = .ok (some true)) ∧
      (reported = .ok (some false) → (counts node.number).fullRuns = rescued) := by
  intro reported rescued
  have grown := built.grown
  obtain ⟨agrees, balanced⟩ := ledger_of_counts grown known
  have derived {above : Option Covered} {slot : Nat} {other : Covered}
      (stands : Occurs view.tree.root above slot other) :=
    (Answers.of_counts (known other.number (number_lt_size grown stands))).2.1
  have forward (place : Nat) (kid : Covered) (held : node.kid? place = some kid)
      (later : place ≠ 0) := forward_behind_body grown occurs guards (derived occurs) held later
  have total : view.ledger.completions node = (counts node.number).fullRuns := (agrees occurs).2.1
  obtain ⟨body, held⟩ := body_of_completed grown balanced occurs guards forward (by omega)
  have bodyTotal : view.ledger.completions body = (counts body.number).fullRuns :=
    (agrees (.child 0 occurs held)).2.1
  have handlers : (node.laterHandlers.map view.ledger.completions).sum = rescued := by
    congr 1
    apply List.map_congr_left
    intro handler member
    obtain ⟨place, _, stands⟩ := Covered.slot_of_mem_kidsAfter (List.mem_filter.mp member).1
    exact (agrees (.child place occurs stands)).2.1
  obtain ⟨lower, upper⟩ := guarded_completions grown balanced occurs guards forward held
    (fun stands handles kid => forward_in_handler grown stands handles (derived stands)) fits.ledger
  have told : reported = .ok (some (decide (0 < (counts body.number).fullRuns))) := by
    have ran := execution_of_guarded grown known occurs guards held
    simp [reported, Answers.wasExecuted, View.answers, guards, Kind.isExecutable, ran]
  refine ⟨body, held, told, by omega, by omega, ?_, ?_⟩
  · intro more
    have positive : 0 < (counts body.number).fullRuns := by omega
    rw [told, decide_eq_true positive]
  · intro missed
    have none : ¬0 < (counts body.number).fullRuns := by simpa [told] using missed
    omega

/-- Of six runs of `risky` one completes; of the other five, four are handled. -/
theorem completed_guarded_reported_two :
    ∃ tree node, CoverTree.ofProgram Probe.defaultGlobal 0 twoHandlers = .ok tree ∧
      tree.root.kid? 0 = some node ∧ node.kind = .guarded ∧
      let view : View := ⟨tree, ⟨#[6, 1, 2, 5, 2, 3, 2]⟩, none, .word⟩
      view.Held ∧ view.complete = true ∧
      (node.laterHandlers.map fun handler => (view.countsAt handler.number).fullRuns).sum = 4 ∧
      (view.countsAt node.number).fullRuns = 5 ∧
      (view.answers node.number).wasExecuted node.kind = .ok (some true) := by
  have reported {tree : CoverTree} {node : Covered} {hits : Probe.Hits}
      (covered : CoverTree.ofProgram Probe.defaultGlobal 0 twoHandlers = .ok tree)
      (below : tree.root.kid? 0 = some node) (guards : node.kind = .guarded)
      (fits : View.Held ⟨tree, hits, none, .word⟩)
      (complete : View.complete ⟨tree, hits, none, .word⟩ = true)
      (completed : 0 < (View.countsAt ⟨tree, hits, none, .word⟩ node.number).fullRuns)
      (more : (node.laterHandlers.map fun handler =>
          (View.countsAt ⟨tree, hits, none, .word⟩ handler.number).fullRuns).sum <
        (View.countsAt ⟨tree, hits, none, .word⟩ node.number).fullRuns) :
      (View.answers ⟨tree, hits, none, .word⟩ node.number).wasExecuted node.kind =
        .ok (some true) := by
    obtain ⟨_, _, _, _, _, executed, _⟩ := completed_guarded_reported (.program covered) fits
      (View.counts_eq_countsAt complete) (.child 0 .top below) guards completed
    exact executed more
  have small : ∀ count ∈ [6, 1, 2, 5, 2, 3, 2], Arithmetic.word.Holds count := by decide
  have fits (tree : CoverTree) : View.Held ⟨tree, ⟨#[6, 1, 2, 5, 2, 3, 2]⟩, none, .word⟩ :=
    View.held_of_counts small (by simp)
  exact ⟨_, _, rfl, rfl, rfl, fits _, rfl, rfl, rfl,
    reported rfl rfl rfl (fits _) rfl (by decide) (by decide)⟩

/-- The only run fails in `risky` and completes in the handler: the guarded node completed, and is
reported as not executed. -/
theorem handled_run_unreported :
    ∃ tree node, CoverTree.ofProgram Probe.defaultGlobal 0 (guardedBy [.atom .nil]) = .ok tree ∧
      tree.root.kid? 0 = some node ∧ node.kind = .guarded ∧
      let view : View := ⟨tree, ⟨#[1, 0, 1, 1]⟩, none, .word⟩
      view.complete = true ∧ (view.countsAt node.number).fullRuns = 1 ∧
      (view.answers node.number).wasExecuted node.kind = .ok (some false) :=
  ⟨_, _, rfl, rfl, rfl, rfl, rfl, rfl⟩

end ProbeCoverage.Flow
