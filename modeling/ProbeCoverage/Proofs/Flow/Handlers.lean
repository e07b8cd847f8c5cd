import Mathlib.Algebra.Order.BigOperators.Group.List
import Mathlib.Algebra.Order.Group.Nat
import ProbeCoverage.Proofs.Flow.Conservation

/-!
Handlers behind a guarded body. The first one is tried as often as the body was interrupted, and
each later one as often as the one in front of it tested an exception without catching it. Whether a
handler caught more than it tested is asked when the next one is tried, so for the last handler it
is asked by nobody.
-/

namespace ProbeCoverage

namespace Cover

variable {tree : CoverTree} {node body kid : Covered} {above : Option Covered} {slot : Nat}

def Covered.laterHandlers (node : Covered) : List Covered :=
  (node.kidsAfter 0).filter fun kid => kid.kind = .handler

theorem guarded_later (grown : Grown tree) (occurs : Occurs tree.root above slot node)
    (guards : node.kind = .guarded) :
    node.kidsAfter 0 =
      node.laterHandlers ++ node.last?.toList.filter fun kid => ¬kid.kind = .handler := by
  have regular := grown.regular _ _ _ occurs
  have several : 2 ≤ node.branches.length := by
    simpa [guards, Kind.arity, Ast.Arity.accepts, Ast.Arity.atLeast] using regular.arity
  have ends : ∃ first between last, node.branches = first :: (between ++ [last]) := by
    cases parts : node.branches with
    | nil => simp [parts] at several
    | cons first rest =>
        rcases List.eq_nil_or_concat rest with rfl | ⟨between, last, rfl⟩
        · simp [parts] at several
        · exact ⟨first, between, last, by simp⟩
  obtain ⟨first, between, last, parts⟩ := ends
  have later : node.kidsAfter 0 = between.filterMap Branch.covered? ++ node.last?.toList := by
    rw [Covered.kidsAfter, Covered.last?, Covered.kid?, parts]
    cases last <;> simp
  have middle : ∀ kid ∈ between.filterMap Branch.covered?, kid.kind = .handler := by
    intro kid member
    obtain ⟨branch, inside, holds⟩ := List.mem_filterMap.mp member
    obtain ⟨index, here⟩ := List.mem_iff_getElem?.mp inside
    have bound := (List.getElem?_eq_some_iff.mp here).1
    have stands : node.kid? (index + 1) = some kid := by
      rw [Covered.kid?, parts, List.getElem?_cons_succ, List.getElem?_append_left bound, here]
      exact holds
    exact (regular.middle_kid stands (by omega) (by simpa [parts] using bound)).2 guards
  have all : (between.filterMap Branch.covered?).filter (fun kid => kid.kind = .handler) =
      between.filterMap Branch.covered? := by
    apply List.filter_eq_self.mpr
    intro kid member
    simpa using middle kid member
  rw [Covered.laterHandlers, later, List.filter_append, all, List.append_assoc]
  -- the last slot may hold a handler too
  cases node.last? with
  | none => simp
  | some kid => by_cases handles : kid.kind = .handler <;> simp [handles]

theorem handlers_eq_later (held : node.kid? 0 = some body) (noHandler : body.kind ≠ .handler) :
    node.handlers = node.laterHandlers := by
  have kids : node.kids = body :: node.kidsAfter 0 := Covered.kids_split held
  rw [Covered.handlers, Covered.kidsOfKind, kids,
    List.filter_cons_of_neg (by simpa using noHandler), Covered.laterHandlers]

end Cover

namespace Flow

open Cover

def testedIn (counts : Nat → Counts) (handler : Covered) : Nat :=
  match handler.kid? 0 with
  | some exceptions => (counts exceptions.number).fullRuns
  | none => (counts handler.number).runs

section Chain

variable {ledger : Ledger} {tree : CoverTree} {node body handler : Covered}
variable {above : Option Covered} {slot : Nat}

/-- Along a row of handlers, everything tested is caught or tried again. -/
theorem tried_along (tested caught : Covered → Nat) (start : Nat) {front : List Covered}
    {last : Covered}
    (linked : ∀ before handler after, front ++ [last] = before ++ handler :: after →
      ledger.entries handler =
        passedOn (fun previous => tested previous - caught previous) start before)
    (enough : ∀ handler ∈ front, caught handler ≤ tested handler) :
    start + (front.map tested).sum =
      ((front ++ [last]).map ledger.entries).sum + (front.map caught).sum := by
  induction front generalizing start with
  | nil =>
      have entered : ledger.entries last = start := linked [] last [] rfl
      simp [entered]
  | cons handler rest ih =>
      have entered : ledger.entries handler = start := linked [] handler (rest ++ [last]) rfl
      have checked := enough handler List.mem_cons_self
      have later := ih (tested handler - caught handler)
        (fun before other after split => by
          rw [linked (handler :: before) other after (by rw [List.cons_append, split]; rfl),
            passedOn_cons])
        (fun other member => enough other (List.mem_cons_of_mem _ member))
      simp only [List.cons_append, List.map_cons, List.sum_cons]
      omega

variable (grown : Grown tree) (balanced : Balanced ledger tree)
variable (occurs : Occurs tree.root above slot node)

include grown balanced occurs

theorem tested_le_entries (handles : node.kind = .handler)
    (plain : ∀ exceptions, node.kid? 0 = some exceptions → exceptions.kind ≠ .targetList) :
    ledger.tested node ≤ ledger.entries node := by
  unfold Ledger.tested
  cases held : node.kid? 0 with
  | none => exact Nat.le_refl _
  | some exceptions =>
      have stands : Occurs tree.root (some node) 0 exceptions := .child 0 occurs held
      have forward : exceptions.kind.propagation = .forward := by
        cases way : exceptions.kind.propagation with
        | forward => rfl
        | alternate =>
            have target : exceptions.kind ∈ [Kind.splatTarget, .setterTarget, .variableTarget] := by
              have noList := plain exceptions held
              cases kind : exceptions.kind <;> simp [kind, Kind.propagation] at way noList ⊢
            have above := (grown.regular _ _ _ occurs).parent_of_target held target
            simp [handles] at above
      have enters : ledger.entries exceptions = ledger.entries node :=
        (solves_entry_first grown stands forward (by rw [handles]; rfl) rfl).mp
          (balanced.entry stands)
      have ends := balanced.ends grown stands
      change ledger.completions exceptions ≤ ledger.entries node
      omega

def Ledger.uncaught (ledger : Ledger) (handler : Covered) : Nat :=
  ledger.tested handler - ledger.hitsOn handler .handlerEntry

/-- How often the first handler behind a body is tried. The body can be a handler itself. -/
def Ledger.thrown (ledger : Ledger) (body : Covered) : Nat :=
  if body.kind = .handler then ledger.uncaught body else ledger.interruptions body

variable (guards : node.kind = .guarded) (held : node.kid? 0 = some body)

include guards held

theorem handler_tried {before after : List Covered}
    (split : node.laterHandlers = before ++ handler :: after) :
    ledger.entries handler = passedOn ledger.uncaught (ledger.thrown body) before ∧
      ∀ previous, before.getLast? = some previous →
        ledger.hitsOn previous .handlerEntry ≤ ledger.tested previous := by
  have kids : node.kids = body :: node.kidsAfter 0 := Covered.kids_split held
  have sourceOrder : ∃ rest, node.kids = (body :: before) ++ handler :: (after ++ rest) :=
    ⟨_, by rw [kids, guarded_later grown occurs guards, split]; simp; rfl⟩
  obtain ⟨_, sourceOrder⟩ := sourceOrder
  obtain ⟨place, stands, front, _⟩ := Covered.slot_of_split sourceOrder
  have later : place ≠ 0 := by
    rintro rfl
    simp [Covered.kidsBefore] at front
  have handles (other : Covered) (member : other ∈ node.laterHandlers) :
      other.kind = .handler := by
    simpa using List.of_mem_filter member
  have own : handler.kind = .handler := handles handler (by simp [split])
  have kidOccurs : Occurs tree.root (some node) place handler := .child place occurs stands
  have previous : (node.kidsBefore place).getLast? = some (before.getLast?.getD body) := by
    rw [front, List.getLast?_cons]
  have entered :=
    (solves_entry_handler grown kidOccurs (by rw [own]; rfl) guards later held own previous).mp
      (balanced.entry kidOccurs)
  unfold passedOn
  cases last : before.getLast? with
  | none =>
      rw [last, Option.getD_none] at entered
      refine ⟨?_, by simp⟩
      by_cases nested : body.kind = .handler
      · rw [if_pos nested] at entered
        exact entered.2.trans (if_pos nested).symm
      · rw [if_neg nested] at entered
        exact entered.trans (if_neg nested).symm
  | some previous =>
      have member : previous ∈ node.laterHandlers := by
        simp [split, List.mem_of_getLast? last]
      rw [last, Option.getD_some, if_pos (handles previous member)] at entered
      refine ⟨entered.2, ?_⟩
      rintro other same
      obtain rfl : previous = other := by simpa using same
      exact entered.1

variable (noHandler : body.kind ≠ .handler)
variable {front : List Covered} {last : Covered} (handlers : node.handlers = front ++ [last])

include noHandler handlers

theorem caught_le_tested :
    ∀ handler ∈ front, ledger.hitsOn handler .handlerEntry ≤ ledger.tested handler := by
  intro handler member
  -- the handler behind it asks
  obtain ⟨before, after, parts⟩ := List.append_of_mem member
  obtain ⟨next, rest, later⟩ : ∃ next rest, after ++ [last] = next :: rest :=
    List.exists_cons_of_ne_nil (by simp)
  have split : node.laterHandlers = (before ++ [handler]) ++ next :: rest := by
    simp [← handlers_eq_later held noHandler, handlers, parts, ← later]
  exact (handler_tried grown balanced occurs guards held split).2 handler (by simp)

theorem handlers_balance :
    ledger.interruptions body + (front.map ledger.tested).sum =
      (node.handlers.map ledger.entries).sum +
        (front.map fun handler => ledger.hitsOn handler .handlerEntry).sum := by
  have start : ledger.thrown body = ledger.interruptions body := if_neg noHandler
  rw [handlers, ← start]
  apply tried_along
  · intro before handler after split
    have later : node.laterHandlers = before ++ handler :: after := by
      rw [← handlers_eq_later held noHandler, handlers, split]
    exact (handler_tried grown balanced occurs guards held later).1
  · exact caught_le_tested grown balanced occurs guards held noHandler handlers

end Chain

/-- What the handlers of a guarded body caught, against what the body threw. Every handler but the
last one is known to catch no more than it tests, and everything that enters the row of handlers is
accounted for. So the handlers together catch no more than the body threw exactly when the last one
does not catch too much; where all the lists hold exceptions, it is enough that the last handler
runs no more often than it is tried. -/
theorem handlers_accounted {view : View} {counts : Nat → Counts} (built : Built view.tree)
    (known : ∀ id < view.tree.size, (view.answers id).counts = .ok (counts id))
    {above : Option Covered} {slot : Nat} {node body last : Covered} {front : List Covered}
    (occurs : Occurs view.tree.root above slot node) (guards : node.kind = .guarded)
    (held : node.kid? 0 = some body) (noHandler : body.kind ≠ .handler)
    (handlers : node.handlers = front ++ [last]) :
    let caught (handler : Covered) := view.hits.get (handler.slotOf .handlerEntry)
    let tried (handler : Covered) := (counts handler.number).runs
    let thrown := (counts body.number).interrupts
    (∀ handler ∈ front, caught handler ≤ testedIn counts handler) ∧
    thrown + (front.map (testedIn counts)).sum =
      (node.handlers.map tried).sum + (front.map caught).sum ∧
    ((node.handlers.map caught).sum ≤ thrown ↔
      (front.map (testedIn counts)).sum + caught last ≤ (node.handlers.map tried).sum) ∧
    ((∀ handler ∈ front, ∀ exceptions, handler.kid? 0 = some exceptions →
        exceptions.kind ≠ .targetList) →
      (front.map caught).sum + tried last ≤ thrown ∧
        (caught last ≤ tried last → (node.handlers.map caught).sum ≤ thrown)) := by
  intro caught tried thrown
  have grown := built.grown
  obtain ⟨agrees, balanced⟩ := ledger_of_counts grown known
  have stands {handler : Covered} (member : handler ∈ node.handlers) :=
    occurs_of_kidsOfKind occurs member
  have inFront {handler : Covered} (member : handler ∈ front) : handler ∈ node.handlers := by
    simp [handlers, member]
  have tested {handler : Covered} (member : handler ∈ node.handlers) :
      view.ledger.tested handler = testedIn counts handler := by
    obtain ⟨_, place, handlerOccurs⟩ := stands member
    unfold Ledger.tested testedIn
    cases exceptions : handler.kid? 0 with
    | none => exact (agrees handlerOccurs).1
    | some list => exact (agrees (.child 0 handlerOccurs exceptions)).2.1
  have entered {handler : Covered} (member : handler ∈ node.handlers) :
      view.ledger.entries handler = tried handler := by
    obtain ⟨_, place, handlerOccurs⟩ := stands member
    exact (agrees handlerOccurs).1
  have checked : ∀ handler ∈ front, caught handler ≤ testedIn counts handler := by
    intro handler member
    rw [← tested (inFront member)]
    exact caught_le_tested grown balanced occurs guards held noHandler handlers handler member
  have account : thrown + (front.map (testedIn counts)).sum =
      (node.handlers.map tried).sum + (front.map caught).sum := by
    have sums := handlers_balance grown balanced occurs guards held noHandler handlers
    rwa [List.map_congr_left fun handler member => tested (inFront member),
      List.map_congr_left fun handler member => entered member,
      (agrees (.child 0 occurs held)).2.2] at sums
  have total : (node.handlers.map caught).sum = (front.map caught).sum + caught last := by
    simp [handlers]
  refine ⟨checked, account, by omega, ?_⟩
  intro plain
  have bounded : (front.map (testedIn counts)).sum ≤ (front.map tried).sum := by
    apply List.sum_le_sum
    intro handler member
    obtain ⟨handles, place, handlerOccurs⟩ := stands (inFront member)
    rw [← tested (inFront member), ← entered (inFront member)]
    exact tested_le_entries grown balanced handlerOccurs handles (plain handler member)
  have parts : (node.handlers.map tried).sum = (front.map tried).sum + tried last := by
    simp [handlers]
  constructor
  · omega
  · intro enough
    omega

/-- `risky` with some handlers, each given by its list of exceptions, and `fix` in each of them. -/
def guardedBy (lists : List Ast.Child) : Ast.Node :=
  let call (name : String) : Ast.Child := .node (.mk "send" [.atom .nil, .atom (.text name)] none)
  .mk "rescue"
    (call "risky" ::
      (lists.map fun list => .node (.mk "resbody" [list, .atom .nil, call "fix"] none)) ++
      [.atom .nil]) none

def twoHandlers : Ast.Node :=
  guardedBy
    [.node (.mk "array" [.node (.mk "const" [.atom .nil, .atom (.text "Error")] none)] none),
     .atom .nil]

/-- Five of six runs fail; two of them are handled as errors and the other three by the second
handler. -/
theorem handlers_accounted_two :
    ∃ tree node body first second list,
      CoverTree.ofProgram Probe.defaultGlobal 0 twoHandlers = .ok tree ∧
      tree.root.kid? 0 = some node ∧ node.kind = .guarded ∧ node.kid? 0 = some body ∧
      body.kind ≠ .handler ∧ node.handlers = [first] ++ [second] ∧
      first.kid? 0 = some list ∧ list.kind ≠ .targetList ∧
      let view : View := ⟨tree, ⟨#[6, 1, 2, 5, 2, 3, 2]⟩, none, .word⟩
      let caught (handler : Covered) := view.hits.get (handler.slotOf .handlerEntry)
      view.complete = true ∧ node.handlers.map caught = [2, 3] ∧
      caught second ≤ (view.countsAt second.number).runs ∧
      (view.countsAt body.number).interrupts = 5 ∧
      (node.handlers.map caught).sum ≤ (view.countsAt body.number).interrupts := by
  have bounded {tree : CoverTree} {node body first second list : Covered} {hits : Probe.Hits}
      (covered : CoverTree.ofProgram Probe.defaultGlobal 0 twoHandlers = .ok tree)
      (below : tree.root.kid? 0 = some node) (guards : node.kind = .guarded)
      (held : node.kid? 0 = some body) (noHandler : body.kind ≠ .handler)
      (handlers : node.handlers = [first] ++ [second]) (tests : first.kid? 0 = some list)
      (plain : list.kind ≠ .targetList) (complete : View.complete ⟨tree, hits, none, .word⟩ = true)
      (enough : hits.get (second.slotOf .handlerEntry) ≤
        (View.countsAt ⟨tree, hits, none, .word⟩ second.number).runs) :
      (node.handlers.map fun handler => hits.get (handler.slotOf .handlerEntry)).sum ≤
        (View.countsAt ⟨tree, hits, none, .word⟩ body.number).interrupts := by
    obtain ⟨_, _, _, whole⟩ := handlers_accounted (.program covered)
      (View.counts_eq_countsAt complete) (.child 0 .top below) guards held noHandler handlers
    refine (whole ?_).2 enough
    intro handler member exceptions found
    obtain rfl : handler = first := by simpa using member
    obtain rfl : list = exceptions := by simpa [tests] using found
    exact plain
  exact ⟨_, _, _, _, _, _, rfl, rfl, rfl, rfl, by decide, rfl, rfl, by decide, rfl, rfl, by decide,
    rfl, bounded rfl rfl rfl rfl (by decide) rfl rfl (by decide) rfl (by decide)⟩

/-- A single handler runs five times although `risky` failed once, and all counts are derived. -/
theorem last_handler_unchecked :
    ∃ tree node body, CoverTree.ofProgram Probe.defaultGlobal 0 (guardedBy [.atom .nil]) = .ok tree ∧
      tree.root.kid? 0 = some node ∧ node.kind = .guarded ∧ node.kid? 0 = some body ∧
      body.kind ≠ .handler ∧
      let view : View := ⟨tree, ⟨#[1, 0, 5, 0]⟩, none, .word⟩
      let caught (handler : Covered) := view.hits.get (handler.slotOf .handlerEntry)
      view.complete = true ∧
      (view.countsAt body.number).interrupts = 1 ∧
      ¬(node.handlers.map caught).sum ≤ (view.countsAt body.number).interrupts := by
  refine ⟨_, _, _, rfl, rfl, rfl, rfl, ?_, rfl, rfl, ?_⟩
  all_goals decide

end Flow

end ProbeCoverage
