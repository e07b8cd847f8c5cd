import ProbeCoverage.Proofs.Flow.Laws

/-!
Clauses, handlers and compound assignments, where control goes on behind a child that passed or
failed, and the balance of a whole history: its account solves the rules of every node.
-/

namespace ProbeCoverage.Flow

open Cover

section Clauses

variable {tree : CoverTree} {ledger : Ledger} {log : List Evaluation}
variable (account : Account tree ledger log) (orderly : Orderly tree)
variable {above : Option Covered} {slot : Nat} {node kid : Covered}

theorem passedOn_concat (through : Covered → Nat) (start : Nat) (nodes : List Covered)
    (node : Covered) : passedOn through start (nodes ++ [node]) = through node := by
  simp [passedOn]

theorem passedOn_append (through : Covered → Nat) (start : Nat) (nodes rest : List Covered) :
    passedOn through start (nodes ++ rest) =
      passedOn through (passedOn through start nodes) rest := by
  induction nodes generalizing start with
  | nil => rfl
  | cons node nodes ih => rw [List.cons_append, passedOn_cons, passedOn_cons, ih]

theorem split_front {front before after : List Covered} {last kid : Covered}
    (split : front ++ [last] = before ++ kid :: after) (inner : kid ≠ last) :
    ∃ rest, front = before ++ kid :: rest := by
  rcases List.eq_nil_or_concat' after with rfl | ⟨rest, final, rfl⟩
  · obtain ⟨_, same⟩ := List.append_inj' split rfl
    exact absurd (List.cons.inj same).1.symm inner
  · have whole : front ++ [last] = (before ++ kid :: rest) ++ [final] := by simpa using split
    exact ⟨rest, (List.append_inj' whole rfl).1⟩

theorem mem_front {front before after : List Covered} {last kid inner : Covered}
    (split : front ++ [last] = before ++ kid :: after) (member : inner ∈ before) :
    inner ∈ front := by
  have shorter := congrArg List.dropLast split
  rw [List.dropLast_concat, List.dropLast_append_of_ne_nil (by simp)] at shorter
  rw [shorter]
  exact List.mem_append_left _ member

section Matches

variable (kind : node.kind = .whenClause)

include orderly kind

theorem clause_apart (occurs : Occurs tree.root above slot node) :
    ∃ body, node.last? = some body ∧ node.kids = node.tests ++ [body] ∧ node.tests ≠ [] ∧
      (node.tests.map Covered.number).Nodup ∧ body.number ∉ node.tests.map Covered.number := by
  obtain ⟨body, held, kids, some⟩ := clause_kids orderly occurs kind
  have distinct := orderly.grown.numbered.kids_nodup occurs
  rw [kids, List.map_append, List.nodup_append] at distinct
  obtain ⟨unique, _, disjoint⟩ := distinct
  refine ⟨body, held, kids, some, unique, ?_⟩
  intro member
  exact disjoint _ member _ (by simp) rfl

include account

omit orderly in
theorem Account.matches (occurs : Occurs tree.root above slot node) :
    ∀ e ∈ evaluationsOf log node, Matches node e.steps e.outcome := by
  intro e member
  have behaves := account.behaves occurs e member
  simpa only [Behaves, kind] using behaves

theorem Account.passed_clause (occurs : Occurs tree.root above slot node) :
    ledger.passed node = ended log .passed node := by
  obtain ⟨body, held, _, some, unique, apart⟩ := clause_apart orderly kind occurs
  rw [ended_eq, total_congr fun e member =>
    ((account.matches kind occurs e member).counts held unique apart).2.2, total_passedOn,
    Ledger.passed, passedOn]
  cases last : node.tests.getLast? with
  | none => exact absurd (List.getLast?_eq_none_iff.mp last) some
  | some test =>
      obtain ⟨wraps, place, stands⟩ := occurs_of_test occurs (List.mem_of_getLast? last)
      exact (account.hits_test wraps stands (.inr ⟨rfl, rfl⟩)).trans (account.endings stands _)

theorem Account.entry_body (occurs : Occurs tree.root (some node) slot kid)
    (last : slot = node.branches.length - 1) : ledger.Solves tree ⟨.entry, kid.number⟩ := by
  have grown := orderly.grown
  obtain ⟨⟨_, _, parentOccurs⟩, stands⟩ := occurs.parent
  have forward := forward_kid grown orderly.targets occurs (by simp [kind])
  obtain ⟨body, held, _, _, unique, apart⟩ := clause_apart orderly kind parentOccurs
  obtain rfl : body = kid := by
    rw [last] at stands
    exact Option.some.inj (held.symm.trans stands)
  apply (solves_entry_body grown occurs forward kind last).mpr
  rw [account.started occurs, total_congr fun e member =>
    ((account.matches kind parentOccurs e member).counts held unique apart).1, total_sum,
    Ledger.matched, account.keep_eq]
  congr 1
  apply List.map_congr_left
  intro test member
  obtain ⟨wraps, place, testOccurs⟩ := occurs_of_test parentOccurs member
  rw [account.hits_test wraps testOccurs (.inl ⟨rfl, rfl⟩), account.endings testOccurs]

theorem Account.entry_test (occurs : Occurs tree.root (some node) slot kid)
    (notLast : slot ≠ node.branches.length - 1) : ledger.Solves tree ⟨.entry, kid.number⟩ := by
  have grown := orderly.grown
  obtain ⟨⟨_, _, parentOccurs⟩, stands⟩ := occurs.parent
  have forward := forward_kid grown orderly.targets occurs (by simp [kind])
  obtain ⟨body, held, kids, _, unique, apart⟩ := clause_apart orderly kind parentOccurs
  have inner : kid ≠ body := fun same =>
    grown.kid_ne parentOccurs stands held notLast (by rw [same])
  obtain ⟨rest, split⟩ := split_front (kids.symm.trans (Covered.kids_split stands)) inner
  have enters : ledger.entries kid = passedOn (ended log .passed) (ledger.entries node)
      (node.kidsBefore slot) := by
    rw [account.started occurs, account.entries_eq node, total_congr fun e member =>
      (account.matches kind parentOccurs e member).started_test held unique apart split,
      total_passedOn]
    apply passedOn_congr _ rfl
    intro earlier member
    obtain ⟨place, _, before⟩ := Covered.slot_of_mem_kidsBefore member
    exact (account.endings (.child place parentOccurs before) _).symm
  cases slot with
  | zero => exact (solves_entry_first_test grown occurs forward kind notLast rfl).mpr enters
  | succ place =>
      have bound := Covered.slot_lt stands
      obtain ⟨previous, before⟩ := slot_filled orderly.filled parentOccurs place
        (by simp only [kind, CoverTree.neededSlots, List.mem_range]; omega)
      have wraps : previous.kind.isMatcher = true := by
        rw [(grown.regular _ _ _ parentOccurs).test_kid before kind]
        exact decide_eq_true (by omega)
      apply (solves_entry_next_test grown occurs forward kind notLast (by simp) before wraps).mpr
      rw [enters, Covered.kidsBefore_succ before, passedOn_concat]
      exact (account.hits_test wraps (.child place parentOccurs before) (.inr ⟨rfl, rfl⟩)).symm

theorem Account.completion_clause (occurs : Occurs tree.root above slot node) :
    ledger.Solves tree ⟨.completion, node.number⟩ := by
  have grown := orderly.grown
  obtain ⟨body, held, _, _, unique, apart⟩ := clause_apart orderly kind occurs
  have stands : Occurs tree.root (some node) _ body := .child _ occurs held
  have plain : body.kind.isMatcher = false := by
    rw [(grown.regular _ _ _ occurs).test_kid held kind]
    simp
  apply (solves_completion_clause grown occurs kind held).mpr
  rw [account.completions_eq occurs (by simp [kind, Kind.isMatcher]), ended_eq,
    account.completions_kid stands plain]
  exact total_congr fun e member =>
    ((account.matches kind occurs e member).counts held unique apart).2.1

end Matches

include account orderly in
theorem Account.completions_later (occurs : Occurs tree.root above slot node)
    (ordinary : node.kind ≠ .whenClause) :
    ((node.kidsAfter 0).map fun kid =>
      total (evaluationsOf log node) fun e => endedIn e.steps .done kid).sum =
      ((node.kidsAfter 0).map ledger.completions).sum := by
  congr 1
  apply List.map_congr_left
  intro kid member
  obtain ⟨place, stands⟩ := Covered.mem_kids.mp (Covered.kidsAfter_subset member)
  have kidOccurs : Occurs tree.root (some node) place kid := .child place occurs stands
  exact (account.completions_kid kidOccurs (plain_kid orderly.grown kidOccurs ordinary)).symm

section Dispatches

variable (kind : node.kind = .caseDispatch)

include account kind

theorem Account.dispatches (occurs : Occurs tree.root above slot node) :
    ∀ e ∈ evaluationsOf log node, Dispatches node e.steps e.outcome := by
  intro e member
  have behaves := account.behaves occurs e member
  simpa only [Behaves, kind] using behaves

include orderly

theorem Account.entry_subject (occurs : Occurs tree.root (some node) 0 kid) :
    ledger.Solves tree ⟨.entry, kid.number⟩ := by
  have grown := orderly.grown
  obtain ⟨⟨_, _, parentOccurs⟩, stands⟩ := occurs.parent
  have forward := forward_kid grown orderly.targets occurs (by simp [kind])
  obtain ⟨last, held, _, kids, _⟩ := middle_kids orderly parentOccurs (.inl ⟨kind, rfl⟩)
  apply (solves_entry_first grown occurs forward (by rw [kind]; rfl) rfl).mpr
  rw [account.started occurs, account.entries_eq node]
  exact total_congr fun e member =>
    (account.dispatches kind parentOccurs e member).started_first held kids
      (grown.numbered.kids_nodup parentOccurs) stands

theorem Account.entry_clause (occurs : Occurs tree.root (some node) slot kid) (later : slot ≠ 0) :
    ledger.Solves tree ⟨.entry, kid.number⟩ := by
  have grown := orderly.grown
  obtain ⟨⟨_, _, parentOccurs⟩, stands⟩ := occurs.parent
  have forward := forward_kid grown orderly.targets occurs (by simp [kind])
  obtain ⟨last, held, _, kids, behind, noClause⟩ :=
    middle_kids orderly parentOccurs (.inl ⟨kind, rfl⟩)
  obtain ⟨before, front, rest⟩ := Covered.kidsBefore_split stands later
  rw [behind] at rest
  apply (solves_entry_clause grown occurs forward (Ledger.held_of_exact account.exact) kind
    later).mpr
  refine ⟨fun _ _ _ => by rw [account.exact]; trivial, ?_⟩
  rw [account.started occurs, front, passedOn_append, total_congr fun e member =>
    (account.dispatches kind parentOccurs e member).started held kids
      (grown.numbered.kids_nodup parentOccurs) rest, total_passedOn, total_passedOn,
    ← account.entries_eq]
  apply passedOn_congr
  · intro clause member
    obtain ⟨same, place, clauseOccurs⟩ := occurs_of_kidsOfKind parentOccurs (mem_front rest member)
    rw [if_pos same, account.passed_clause orderly same clauseOccurs, account.endings clauseOccurs]
  · apply passedOn_congr _ rfl
    intro first member
    have subject : node.kid? 0 = some first := by simpa using member
    have subjectOccurs : Occurs tree.root (some node) 0 first := .child 0 parentOccurs subject
    rw [if_neg (noClause first subject),
      account.completions_kid subjectOccurs (plain_kid grown subjectOccurs (by simp [kind]))]

theorem Account.completion_dispatch (occurs : Occurs tree.root above slot node) :
    ledger.Solves tree ⟨.completion, node.number⟩ := by
  have grown := orderly.grown
  obtain ⟨last, held, _, kids, behind, _⟩ := middle_kids orderly occurs (.inl ⟨kind, rfl⟩)
  apply (solves_completion_later grown occurs (.inl kind)).mpr
  rw [account.keep_eq, account.completions_eq occurs (by simp [kind, Kind.isMatcher]), ended_eq,
    behind, total_congr fun e member => (account.dispatches kind occurs e member).finished held kids
      (grown.numbered.kids_nodup occurs), total_sum, ← behind]
  exact account.completions_later orderly occurs (by simp [kind])

end Dispatches

section Handles

variable (kind : node.kind = .handler)

include account kind

theorem Account.handles (occurs : Occurs tree.root above slot node) :
    ∀ e ∈ evaluationsOf log node, Handles node e.steps e.outcome := by
  intro e member
  have behaves := account.behaves occurs e member
  simpa only [Behaves, kind] using behaves

include orderly

theorem Account.tested (occurs : Occurs tree.root above slot node) :
    ledger.tested node = ledger.hitsOn node .handlerEntry + ended log .passed node := by
  have grown := orderly.grown
  obtain ⟨body, held⟩ := slot_filled orderly.filled occurs 2 (by simp [kind, CoverTree.neededSlots])
  have row : ledger.tested node =
      passedOn ledger.completions (ledger.entries node) (node.kid? 0).toList := by
    unfold Ledger.tested
    cases node.kid? 0 <;> rfl
  rw [row, account.hitsOn occurs (by simp [kind, Kind.trackers]), ended_eq, ← total_add,
    total_congr fun e member =>
      ((account.handles kind occurs e member).counts held (grown.kid_ne occurs)).2.1.symm,
    total_passedOn, ← account.entries_eq]
  apply passedOn_congr _ rfl
  intro first member
  have stands : Occurs tree.root (some node) 0 first := .child 0 occurs (by simpa using member)
  exact account.completions_kid stands (plain_kid grown stands (by simp [kind]))

theorem Account.entries_handled (occurs : Occurs tree.root (some node) slot kid) {body : Covered}
    (held : node.kid? 2 = some body) {before after : List Covered}
    (split : (node.kid? 1).toList ++ [body] = before ++ kid :: after) :
    ledger.entries kid = passedOn (ended log .done) (ledger.hitsOn node .handlerEntry) before := by
  obtain ⟨⟨_, _, parentOccurs⟩, _⟩ := occurs.parent
  rw [account.started occurs, total_congr fun e member =>
    (account.handles kind parentOccurs e member).started_later held
      (orderly.grown.kid_ne parentOccurs) split,
    total_passedOn, account.hitsOn parentOccurs (by simp [kind, Kind.trackers])]
  apply passedOn_congr _ rfl
  intro earlier member
  have stands : node.kid? 1 = some earlier := by simpa using mem_front split member
  exact (account.endings (.child 1 parentOccurs stands) _).symm

theorem Account.entry_handled (occurs : Occurs tree.root (some node) slot kid)
    (plain : ∀ target, node.kid? 1 = some target →
      target.kind = .variableAssignment ∧ target.kids = []) :
    ledger.Solves tree ⟨.entry, kid.number⟩ := by
  have grown := orderly.grown
  obtain ⟨⟨_, _, parentOccurs⟩, stands⟩ := occurs.parent
  have forward := forward_kid grown orderly.targets occurs (by simp [kind])
  obtain ⟨body, held⟩ :=
    slot_filled orderly.filled parentOccurs 2 (by simp [kind, CoverTree.neededSlots])
  have bound := Covered.slot_lt stands
  rw [(grown.regular _ _ _ parentOccurs).length_eq (by rw [kind]; rfl)] at bound
  obtain rfl | rfl | rfl : slot = 0 ∨ slot = 1 ∨ slot = 2 := by omega
  · apply (solves_entry_first grown occurs forward (by rw [kind]; rfl) rfl).mpr
    rw [account.started occurs, account.entries_eq node]
    exact total_congr fun e member => ((account.handles kind parentOccurs e member).counts held
      (grown.kid_ne parentOccurs)).1 kid stands
  · apply (solves_entry_later grown occurs forward (by rw [kind]; rfl) (by simp)).mpr
    have split : (node.kid? 1).toList ++ [body] = [] ++ kid :: [body] := by rw [stands]; rfl
    exact account.entries_handled orderly kind occurs held split
  · obtain rfl := Option.some.inj (held.symm.trans stands)
    apply (solves_entry_later grown occurs forward (by rw [kind]; rfl) (by simp)).mpr
    rw [account.entries_handled orderly kind occurs held rfl]
    -- the variable is always assigned, so the body is entered as often as the handler runs
    cases assigned : node.kid? 1 with
    | none => rfl
    | some target =>
        have targetOccurs : Occurs tree.root (some node) 1 target := .child 1 parentOccurs assigned
        obtain ⟨same, childless⟩ := plain target assigned
        rw [Option.toList_some, passedOn_singleton,
          account.ended_childless orderly targetOccurs (by rw [same]; rfl) childless]
        have split : (node.kid? 1).toList ++ [body] = [] ++ target :: [body] := by
          rw [assigned]
          rfl
        exact account.entries_handled orderly kind targetOccurs held split

theorem Account.completion_handler (occurs : Occurs tree.root above slot node) :
    ledger.Solves tree ⟨.completion, node.number⟩ := by
  have grown := orderly.grown
  obtain ⟨body, held⟩ := slot_filled orderly.filled occurs 2 (by simp [kind, CoverTree.neededSlots])
  have stands : Occurs tree.root (some node) 2 body := .child 2 occurs held
  apply (solves_completion_handler grown occurs kind held).mpr
  rw [account.completions_eq occurs (by simp [kind, Kind.isMatcher]), ended_eq,
    account.completions_kid stands (plain_kid grown stands (by simp [kind]))]
  exact total_congr fun e member =>
    ((account.handles kind occurs e member).counts held (grown.kid_ne occurs)).2.2

end Handles

section Guards

variable (kind : node.kind = .guarded)

include orderly kind

theorem guarded_apart (occurs : Occurs tree.root above slot node) :
    ∃ body last, node.kid? 0 = some body ∧ node.last? = some last ∧ body.kind ≠ .handler ∧
      last.kind ≠ .handler ∧ node.kidsAfter 0 = node.handlers ++ [last] ∧
      (node.handlers.map Covered.number).Nodup ∧
      body.number ∉ node.handlers.map Covered.number ∧
      last.number ∉ node.handlers.map Covered.number ∧ body.number ≠ last.number := by
  obtain ⟨last, held, noHandler, kids, behind, notFirst⟩ :=
    middle_kids orderly occurs (.inr ⟨kind, rfl⟩)
  obtain ⟨body, first⟩ :=
    slot_filled orderly.filled occurs 0 (by simp [kind, CoverTree.neededSlots])
  have distinct := orderly.grown.numbered.kids_nodup occurs
  rw [kids, first, Option.toList_some, List.singleton_append, List.map_cons, List.nodup_cons,
    List.map_append, List.nodup_append, List.mem_append, not_or] at distinct
  obtain ⟨⟨bodyApart, apart⟩, unique, _, disjoint⟩ := distinct
  refine ⟨body, last, first, held, notFirst body first, noHandler, behind, unique, bodyApart, ?_,
    by simpa using apart⟩
  intro member
  exact disjoint _ member _ (by simp) rfl

include account

omit orderly in
theorem Account.guards (occurs : Occurs tree.root above slot node) :
    ∀ e ∈ evaluationsOf log node, Guards node e.steps e.outcome := by
  intro e member
  have behaves := account.behaves occurs e member
  simpa only [Behaves, kind] using behaves

theorem Account.entry_unguarded (occurs : Occurs tree.root (some node) slot kid)
    (outer : kid.kind ≠ .handler) : ledger.Solves tree ⟨.entry, kid.number⟩ := by
  have grown := orderly.grown
  obtain ⟨⟨_, _, parentOccurs⟩, stands⟩ := occurs.parent
  have forward := forward_kid grown orderly.targets occurs (by simp [kind])
  obtain ⟨body, last, first, held, _, _, behind, unique, bodyApart, lastApart, apart⟩ :=
    guarded_apart orderly kind parentOccurs
  have counts (e : Evaluation) (member : e ∈ evaluationsOf log node) :=
    (account.guards kind parentOccurs e member).counts first held unique bodyApart lastApart apart
  by_cases front : slot = 0
  · subst front
    obtain rfl := Option.some.inj (first.symm.trans stands)
    apply (solves_entry_first grown occurs forward (by rw [kind]; rfl) rfl).mpr
    rw [account.started occurs, account.entries_eq node]
    exact total_congr fun e member => (counts e member).1
  · have bodyOccurs : Occurs tree.root (some node) 0 body := .child 0 parentOccurs first
    obtain ⟨before, _, rest⟩ := Covered.kidsBefore_split stands front
    obtain rfl : kid = last := by
      have member : kid ∈ node.handlers ++ [last] := by simp [← behind, rest]
      rcases List.mem_append.mp member with handler | final
      · exact absurd (occurs_of_kidsOfKind parentOccurs handler).1 outer
      · exact List.mem_singleton.mp final
    apply (solves_entry_unguarded grown occurs forward kind front first outer).mpr
    rw [account.started occurs,
      account.completions_kid bodyOccurs (plain_kid grown bodyOccurs (by simp [kind]))]
    exact total_congr fun e member => (counts e member).2.2.1

/-- The guarded body does not pass, so what does not end normally is interrupted. -/
theorem Account.interruptions_guarded (occurs : Occurs tree.root above slot node) {body : Covered}
    (held : node.kid? 0 = some body) :
    ledger.interruptions body = ended log .interrupted body := by
  have grown := orderly.grown
  obtain ⟨_, last, first, final, _, _, _, unique, bodyApart, lastApart, apart⟩ :=
    guarded_apart orderly kind occurs
  obtain rfl := Option.some.inj (held.symm.trans first)
  have stands : Occurs tree.root (some node) 0 body := .child 0 occurs held
  have counts (e : Evaluation) (member : e ∈ evaluationsOf log node) :=
    (account.guards kind occurs e member).counts first final unique bodyApart lastApart apart
  have parts : ledger.entries body = ledger.completions body + ended log .interrupted body := by
    rw [account.started stands, account.endings stands,
      account.completions_kid stands (plain_kid grown stands (by simp [kind])), ← total_add]
    exact total_congr fun e member => (counts e member).1.trans (counts e member).2.1.symm
  have solved := (solves_interruption grown stands).mp (account.interruption grown stands)
  omega

theorem Account.entries_handler (occurs : Occurs tree.root (some node) slot kid) {body : Covered}
    (held : node.kid? 0 = some body) {before after : List Covered}
    (split : node.handlers = before ++ kid :: after) :
    ledger.entries kid =
      passedOn (ended log .passed) (ended log .interrupted body) before := by
  obtain ⟨⟨_, _, parentOccurs⟩, _⟩ := occurs.parent
  obtain ⟨_, last, first, final, _, _, _, unique, bodyApart, lastApart, apart⟩ :=
    guarded_apart orderly kind parentOccurs
  obtain rfl := Option.some.inj (held.symm.trans first)
  rw [account.started occurs, account.endings (.child 0 parentOccurs held),
    total_congr fun e member => (account.guards kind parentOccurs e member).started_handler first
      final unique bodyApart lastApart apart split, total_passedOn]
  apply passedOn_congr _ rfl
  intro handler member
  obtain ⟨_, place, handlerOccurs⟩ :=
    occurs_of_kidsOfKind parentOccurs (by simp [split, member] : handler ∈ node.handlers)
  exact (account.endings handlerOccurs _).symm

theorem Account.entry_handler (occurs : Occurs tree.root (some node) slot kid)
    (handles : kid.kind = .handler) : ledger.Solves tree ⟨.entry, kid.number⟩ := by
  have grown := orderly.grown
  obtain ⟨⟨_, _, parentOccurs⟩, stands⟩ := occurs.parent
  have forward := forward_kid grown orderly.targets occurs (by simp [kind])
  obtain ⟨body, last, first, _, notBody, notLast, behind, _⟩ :=
    guarded_apart orderly kind parentOccurs
  have later : slot ≠ 0 := by
    rintro rfl
    obtain rfl := Option.some.inj (first.symm.trans stands)
    exact notBody handles
  obtain ⟨before, earlier, rest⟩ := Covered.kidsBefore_split stands later
  rw [behind] at rest
  obtain ⟨after, split⟩ := split_front rest (by rintro rfl; exact notLast handles)
  have enters := account.entries_handler orderly kind occurs first split
  rw [first, Option.toList_some] at earlier
  -- the first handler follows the body, and each other one a handler that passed
  rcases List.eq_nil_or_concat' before with rfl | ⟨others, previous, rfl⟩
  · have front : (node.kidsBefore slot).getLast? = some body := by rw [earlier]; rfl
    apply (solves_entry_handler grown occurs forward kind later first handles front).mpr
    rw [if_neg notBody, enters, passedOn_nil]
    exact (account.interruptions_guarded orderly kind parentOccurs first).symm
  · have front : (node.kidsBefore slot).getLast? = some previous := by
      rw [earlier, ← List.append_assoc, List.getLast?_concat]
    obtain ⟨same, place, previousOccurs⟩ :=
      occurs_of_kidsOfKind parentOccurs (mem_front rest (by simp : previous ∈ others ++ [previous]))
    have tested := account.tested orderly same previousOccurs
    apply (solves_entry_handler grown occurs forward kind later first handles front).mpr
    rw [if_pos same, enters, passedOn_concat]
    omega

theorem Account.completion_guarded (occurs : Occurs tree.root above slot node) :
    ledger.Solves tree ⟨.completion, node.number⟩ := by
  have grown := orderly.grown
  obtain ⟨body, last, first, held, _, _, behind, unique, bodyApart, lastApart, apart⟩ :=
    guarded_apart orderly kind occurs
  apply (solves_completion_later grown occurs (.inr kind)).mpr
  rw [account.keep_eq, account.completions_eq occurs (by simp [kind, Kind.isMatcher]), ended_eq,
    behind, total_congr fun e member => ((account.guards kind occurs e member).counts first held unique
      bodyApart lastApart apart).2.2.2, total_sum, ← behind]
  exact account.completions_later orderly occurs (by simp [kind])

end Guards

section Assignments

variable {tracker : Tracker} (value : valueTracker? node.kind = some tracker)

include value

theorem assignment_kind :
    node.kind = .operatorAssignment ∧ tracker = .reader ∨
      node.kind = .booleanAssignment ∧ tracker = .longBranch := by
  cases kind : node.kind <;> simp_all [valueTracker?]

include account orderly

theorem Account.assigned (occurs : Occurs tree.root above slot node) :
    ∀ e ∈ evaluationsOf log node,
      (∀ first, node.kid? 0 = some first → startedIn e.steps first = 1) ∧
        (∀ last, node.last? = some last → startedIn e.steps last = hitsIn e.steps tracker) ∧
        (if e.outcome = .done then 1 else 0) = hitsIn e.steps .completion := by
  intro e member
  have behaves := account.behaves occurs e member
  have assigns : Assigns node e.steps e.outcome := by
    rcases assignment_kind value with ⟨kind, _⟩ | ⟨kind, _⟩ <;>
      simpa only [Behaves, kind] using behaves
  have several : node.branches.length - 1 ≠ 0 := by
    have regular := orderly.grown.regular _ _ _ occurs
    rcases assignment_kind value with ⟨kind, _⟩ | ⟨kind, _⟩
    · rw [regular.length_eq (by rw [kind]; rfl)]
      simp
    · rw [regular.length_eq (by rw [kind]; rfl)]
      simp
  apply assigns.counts value
  intro first last held final
  exact orderly.grown.kid_ne occurs held final several.symm

theorem Account.entry_assigned (occurs : Occurs tree.root (some node) slot kid)
    (operator : node.kind = .operatorAssignment → node.kid? 1 = none) :
    ledger.Solves tree ⟨.entry, kid.number⟩ := by
  have grown := orderly.grown
  obtain ⟨⟨_, _, parentOccurs⟩, stands⟩ := occurs.parent
  have forward := forward_kid grown orderly.targets occurs
    (by rcases assignment_kind value with ⟨kind, _⟩ | ⟨kind, _⟩ <;> simp [kind])
  have counts := account.assigned orderly value parentOccurs
  by_cases front : slot = 0
  · subst front
    apply (solves_entry_first grown occurs forward _ rfl).mpr
    · rw [account.started occurs, account.entries_eq node]
      exact total_congr fun e member => (counts e member).1 kid stands
    · rcases assignment_kind value with ⟨kind, _⟩ | ⟨kind, _⟩ <;> rw [kind] <;> rfl
  · -- the operator is no node, so the only later child is the value
    have final : node.last? = some kid := by
      have bound := Covered.slot_lt stands
      have regular := grown.regular _ _ _ parentOccurs
      rcases assignment_kind value with ⟨kind, _⟩ | ⟨kind, _⟩
      · have length : node.branches.length = 3 := regular.length_eq (by rw [kind]; rfl)
        have notOperator : slot ≠ 1 := by
          rintro rfl
          simp [operator kind] at stands
        obtain rfl : slot = 2 := by omega
        rwa [Covered.last?, length]
      · have length : node.branches.length = 2 := regular.length_eq (by rw [kind]; rfl)
        obtain rfl : slot = 1 := by omega
        rwa [Covered.last?, length]
    have owned : laterTracker? node.kind = some tracker ∧ tracker ∈ node.kind.trackers := by
      rcases assignment_kind value with ⟨kind, rfl⟩ | ⟨kind, rfl⟩ <;>
        simp [kind, laterTracker?, Kind.trackers]
    apply (solves_entry_later grown occurs forward owned.1 front).mpr
    rw [account.started occurs, account.hitsOn parentOccurs owned.2]
    exact total_congr fun e member => (counts e member).2.1 kid final

theorem Account.completion_assignment (occurs : Occurs tree.root above slot node) :
    ledger.Solves tree ⟨.completion, node.number⟩ := by
  have kind : node.kind.completion = .counted .completion ∧ node.kind.isMatcher = false ∧
      Tracker.completion ∈ node.kind.trackers := by
    rcases assignment_kind value with ⟨kind, _⟩ | ⟨kind, _⟩ <;>
      simp [kind, Kind.completion, Kind.isMatcher, Kind.trackers]
  apply (solves_completion_counted orderly.grown occurs kind.1).mpr
  rw [account.completions_eq occurs kind.2.1]
  symm
  apply account.hits_tell occurs kind.2.2
  intro e member
  exact (account.assigned orderly value occurs e member).2.2.symm

end Assignments

end Clauses

/-- Kinds whose evaluation is described: those with steps of their own, and those with verdicts. -/
def traced (kind : Kind) : Bool :=
  [Kind.root, .shortCircuit, .conditional, .caseDispatch, .whenClause, .guarded, .handler,
    .operatorAssignment, .booleanAssignment].contains kind || !(verdicts kind).isEmpty

/-- A program whose runs are described. The operator of a compound assignment is no node, and the
variable of a handler has nothing below it. -/
structure Traceable (tree : CoverTree) : Prop where
  orderly : Orderly tree
  wrapper : tree.root.kind = .root
  kinds : ∀ {above slot node}, Occurs tree.root above slot node → traced node.kind = true
  operator : ∀ {above slot node}, Occurs tree.root above slot node →
    node.kind = .operatorAssignment → node.kid? 1 = none
  target : ∀ {above slot node}, Occurs tree.root above slot node → node.kind = .handler →
    ∀ target, node.kid? 1 = some target → target.kind = .variableAssignment ∧ target.kids = []

section Balances

variable {tree : CoverTree} {ledger : Ledger} {log : List Evaluation}
variable (account : Account tree ledger log) (traceable : Traceable tree)
variable {above : Option Covered} {slot : Nat} {node kid : Covered}

include account traceable

theorem Account.entry_below (occurs : Occurs tree.root (some node) slot kid) :
    ledger.Solves tree ⟨.entry, kid.number⟩ := by
  have orderly := traceable.orderly
  obtain ⟨⟨_, _, parentOccurs⟩, _⟩ := occurs.parent
  have kinds := traceable.kinds parentOccurs
  cases kind : node.kind
  case root => exact account.entry_program kind orderly occurs
  case shortCircuit => exact account.entry_operand orderly kind occurs
  case conditional => exact account.entry_branch orderly kind occurs
  case caseDispatch =>
    by_cases first : slot = 0
    · subst first
      exact account.entry_subject orderly kind occurs
    · exact account.entry_clause orderly kind occurs first
  case whenClause =>
    by_cases last : slot = node.branches.length - 1
    · exact account.entry_body orderly kind occurs last
    · exact account.entry_test orderly kind occurs last
  case guarded =>
    by_cases handles : kid.kind = .handler
    · exact account.entry_handler orderly kind occurs handles
    · exact account.entry_unguarded orderly kind occurs handles
  case handler =>
    exact account.entry_handled orderly kind occurs (traceable.target parentOccurs kind)
  case operatorAssignment =>
    exact account.entry_assigned orderly (by rw [kind]; rfl) occurs
      (traceable.operator parentOccurs)
  case booleanAssignment =>
    exact account.entry_assigned orderly (by rw [kind]; rfl) occurs
      (traceable.operator parentOccurs)
  all_goals exact account.entry_inRow orderly (by simp_all [traced, verdicts]) occurs

theorem Account.completion (occurs : Occurs tree.root above slot node) :
    ledger.Solves tree ⟨.completion, node.number⟩ := by
  have orderly := traceable.orderly
  have kinds := traceable.kinds occurs
  cases kind : node.kind
  case root => exact account.completion_program kind orderly occurs
  case shortCircuit => exact account.completion_operands orderly kind occurs
  case conditional => exact account.completion_branches orderly kind occurs
  case caseDispatch => exact account.completion_dispatch orderly kind occurs
  case whenClause => exact account.completion_clause orderly kind occurs
  case guarded => exact account.completion_guarded orderly kind occurs
  case handler => exact account.completion_handler orderly kind occurs
  case operatorAssignment =>
    exact account.completion_assignment orderly (by rw [kind]; rfl) occurs
  case booleanAssignment =>
    exact account.completion_assignment orderly (by rw [kind]; rfl) occurs
  case matcher => exact account.completion_test (by rw [kind]; rfl) orderly.grown occurs
  case splatMatcher => exact account.completion_test (by rw [kind]; rfl) orderly.grown occurs
  case constant =>
    exact account.completion_counted orderly (by simp [kind, verdicts]) occurs (by rw [kind]; rfl)
  case call =>
    exact account.completion_counted orderly (by simp [kind, verdicts]) occurs (by rw [kind]; rfl)
  all_goals
    exact account.completion_chain orderly (by simp_all [traced, verdicts]) occurs
      (by simp_all [traced, verdicts])

/-- The account of a history solves the rules of every node. -/
theorem Account.balanced : Balanced ledger tree where
  entry occurs := by
    cases occurs with
    | top =>
        apply (solves_top traceable.orderly.grown traceable.wrapper).mpr
        rw [account.untold, Option.getD_none, account.hits_root traceable.wrapper .top]
    | child _ parent held => exact account.entry_below traceable (.child _ parent held)
  completion occurs := account.completion traceable occurs
  interruption occurs := account.interruption traceable.orderly.grown occurs

end Balances

end ProbeCoverage.Flow
