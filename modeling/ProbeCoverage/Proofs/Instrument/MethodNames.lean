import Mathlib.Data.List.TakeWhile
import ProbeCoverage.Proofs.Cover.ReadBack
import ProbeCoverage.Proofs.Instrument.Anchors
import ProbeCoverage.Proofs.Instrument.Fragments
import ProbeCoverage.Proofs.Instrument.Sites

/-!
The place of an empty method body. Where nothing else of a method is located, its probe goes behind
the name, which is looked for again in the source: behind `def` and blanks, as far as there are
letters, digits, underscores and the marks that may end a name. This finds the end of a name of such
characters only. Of the operators that can be defined it passes over four; in front of or within the
others it stops, and the probe splits the definition.
-/

namespace ProbeCoverage.Cover

open Ast (Child Node Shape Span)
open Probe (Allocator)

section Origin

def Sprung (covered : Covered) : Prop :=
  ∀ shape, covered.info.shape = some shape → ∃ before node after,
    cover covered.kind shape before node = .ok (covered, after)

theorem kept_sprung :
    Kept
      (fun kind shape before node covered after =>
        cover kind shape before node = .ok (covered, after) → Everywhere Sprung covered)
      (fun _ _ _ _ _ branches _ =>
        ∀ kid ∈ branches.filterMap Branch.covered?, Everywhere Sprung kid) where
  node _ _ below covers := by
    refine Everywhere.of_kids ?_ below
    intro shape shaped
    obtain rfl := Option.some.inj shaped
    exact ⟨_, _, _, covers⟩
  nil _ _ _ _ kid member := by simp at member
  plain _ _ covers inside later kid member := by
    rw [List.filterMap_cons_some (Branch.covered?_node _)] at member
    rcases List.mem_cons.mp member with rfl | rest
    · exact inside covers
    · exact later kid rest
  wrapper _ _ covers inside later kid member := by
    rw [List.filterMap_cons_some (Branch.covered?_node _)] at member
    rcases List.mem_cons.mp member with rfl | rest
    · refine Everywhere.of_kids (fun _ shaped => by cases shaped) ?_
      intro kid member
      obtain rfl := List.mem_singleton.mp member
      exact inside covers
    · exact later kid rest
  empty _ _ later kid member := by
    rw [List.filterMap_cons_some (Branch.covered?_node _)] at member
    rcases List.mem_cons.mp member with rfl | rest
    · refine Everywhere.of_kids (fun _ shaped => by cases shaped) ?_
      intro kid member
      cases member
    · exact later kid rest
  atom _ later kid member := by
    rw [List.filterMap_cons_none (Branch.covered?_atom _)] at member
    exact later kid member

theorem Built.sprung {tree : CoverTree} (built : Built tree) : Everywhere Sprung tree.root := by
  cases built with
  | program built =>
      obtain ⟨shape, covered, after, shaped, covers, rfl⟩ := ofProgram_ok built
      refine Everywhere.of_kids (fun _ shaped => by cases shaped) ?_
      intro kid member
      obtain rfl := List.mem_singleton.mp member
      exact kept_sprung.cover _ _ _ _ _ _ shaped covers covers
  | nothing global fileIndex =>
      refine Everywhere.of_kids (fun _ shaped => by cases shaped) ?_
      intro kid member
      obtain rfl := List.mem_singleton.mp member
      refine Everywhere.of_kids (fun _ shaped => by cases shaped) ?_
      intro kid member
      cases member
  | fragment built =>
      obtain ⟨shape, covered, after, shaped, covers, rfl⟩ := ofFragment_ok built
      exact kept_sprung.cover _ _ _ _ _ _ shaped covers covers

variable {parent : Kind} {parentShape : Shape} {count : Nat} {anchor : Nat → Option Anchor}
variable {after : Allocator}

theorem cover_span {kind : Kind} {shape : Shape} {before : Allocator} {node : Node}
    {covered : Covered} (covers : cover kind shape before node = .ok (covered, after)) :
    covered.info.span = node.location := by
  obtain ⟨tag, children, location⟩ := node
  obtain ⟨branches, _, _, rfl⟩ := cover_ok covers
  rfl

/-- What covering leaves of a child slot: a child keeps its location, and an empty body has no span
and the anchor of its place. -/
structure Leaves (anchor : Option Anchor) (child : Child) (branch : Branch) : Prop where
  span : child.node?.bind Node.location = branch.covered?.bind fun kid => kid.info.span
  empty : ∀ kid, branch = .node kid → kid.kind = .emptyBody →
    kid.info.span = none ∧ kid.info.anchor = anchor

theorem coverChildren_cons_ok {index : Nat} {before : Allocator} {child : Child} {rest : List Child}
    {branches : List Branch}
    (covers : coverChildren parent parentShape count anchor index before (child :: rest) =
      .ok (branches, after)) :
    ∃ middle branch later, branches = branch :: later ∧ Leaves (anchor index) child branch ∧
      coverChildren parent parentShape count anchor (index + 1) middle rest = .ok (later, after) := by
  cases child with
  | atom value =>
      obtain ⟨later, ⟨_, follows, rfl⟩ | ⟨_, follows, rfl⟩⟩ := coverChildren_atom_ok covers
      · refine ⟨_, _, later, rfl, ⟨rfl, ?_⟩, follows⟩
        rintro _ ⟨⟩ _
        exact ⟨rfl, rfl⟩
      · exact ⟨_, _, later, rfl, ⟨rfl, by rintro _ ⟨⟩⟩, follows⟩
  | node node =>
      obtain ⟨shape, kind, middle, covered, later, _, asked, child, follows, rfl⟩ :=
        coverChildren_node_ok covers
      refine ⟨middle, _, later, rfl, ?_, follows⟩
      -- neither the child itself nor a wrapper around it is an empty body
      rcases child with ⟨bare, inside⟩ | ⟨wraps, test, inside, rfl⟩
      · refine ⟨(cover_span inside).symm, ?_⟩
        rintro _ ⟨⟩ empty
        have shaped := (shaped_kind kind (kindBelow?_mem asked bare)).2
        rw [← (cover_info inside).2, empty] at shaped
        cases shaped
      · refine ⟨rfl, ?_⟩
        rintro _ ⟨⟩ empty
        rw [show kind = .emptyBody from empty] at wraps
        cases wraps

theorem coverChildren_slots {index : Nat} {before : Allocator} {children : List Child}
    {branches : List Branch}
    (covers : coverChildren parent parentShape count anchor index before children =
      .ok (branches, after)) (slot : Nat) :
    located? children slot =
        ((branches[slot]?).bind Branch.covered?).bind (fun kid => kid.info.span) ∧
      ∀ kid, branches[slot]? = some (.node kid) → kid.kind = .emptyBody →
        kid.info.span = none ∧ kid.info.anchor = anchor (index + slot) := by
  induction children generalizing index before branches slot with
  | nil =>
      simp only [coverChildren, Except.ok.injEq, Prod.mk.injEq] at covers
      obtain ⟨rfl, rfl⟩ := covers
      simp [located?]
  | cons child rest ih =>
      obtain ⟨middle, branch, later, rfl, leaves, follows⟩ := coverChildren_cons_ok covers
      cases slot with
      | zero =>
          refine ⟨leaves.span, ?_⟩
          intro kid held
          exact leaves.empty kid (by simpa using held)
      | succ slot =>
          have behind := ih follows slot
          rw [Nat.add_assoc, Nat.add_comm 1 slot] at behind
          exact behind

theorem method_of_shape {node : Covered} (regular : Regular node)
    (shaped : node.info.shape = some .method) : node.kind = .method := by
  have formed := regular.formed
  rw [Formed, shaped] at formed
  exact List.mem_singleton.mp formed.1

/-- The empty body of a method without located parameters is put behind the name of the method. -/
theorem anchor_of_method {tree : CoverTree} (built : Built tree) {above : Option Covered}
    {place : Nat} {node body : Covered} {span : Span} (occurs : Occurs tree.root above place node)
    (shaped : node.info.shape = some .method) (located : node.info.span = some span)
    (bare : ∀ kid, node.kid? 1 = some kid → kid.info.span = none)
    (held : node.kid? 2 = some body) (empty : body.kind = .emptyBody) :
    body.info.span = none ∧ body.info.anchor = some (.afterMethodName span.startByte) := by
  have method := method_of_shape (built.grown.regular above place node occurs) shaped
  obtain ⟨before, ⟨tag, children, location⟩, after, covers⟩ :=
    built.sprung above place node occurs .method shaped
  rw [method] at covers
  obtain ⟨branches, _, below, rfl⟩ := cover_ok covers
  obtain rfl : location = some span := located
  have unlocated : located? children 1 = none := by
    rw [(coverChildren_slots below 1).1, Option.bind_eq_none_iff]
    exact bare
  obtain ⟨spanless, anchored⟩ :=
    (coverChildren_slots below 2).2 body (Covered.kid?_eq_some.mp held) empty
  refine ⟨spanless, ?_⟩
  rw [anchored]
  simp [emptyAnchor, unlocated]

end Origin

end ProbeCoverage.Cover

namespace ProbeCoverage.Instrument

open Cover

section Names

/-- A character of an identifier. Outside of ASCII every character is one. -/
def isIdentifierChar (c : Char) : Bool :=
  c.isAlphanum || c == '_' || decide (128 ≤ c.toNat)

def nameEndings : List (List Char) := [[], ['?'], ['!'], ['=']]

def operatorNames : List String :=
  ["|", "^", "&", "<=>", "==", "===", "=~", "!~", ">", ">=", "<", "<=", "!=", "<<", ">>", "+", "-",
   "*", "/", "%", "**", "!", "~", "+@", "-@", "[]", "[]=", "`"]

inductive MethodName : List Char → Prop where
  | word {first : Char} {more ending : List Char} :
      isIdentifierChar first = true → first.isDigit = false →
      (∀ c ∈ more, isIdentifierChar c = true) → ending ∈ nameEndings →
      MethodName (first :: more ++ ending)
  | operator {name : String} : name ∈ operatorNames → MethodName name.toList

def markOperators : List String := ["!", "!=", "==", "==="]

/-- An identifier of letters, digits and underscores with its ending, or one of four operators. -/
def PlainName (name : List Char) : Prop :=
  (∃ word, ∃ ending ∈ nameEndings, name = word ++ ending ∧ ∀ c ∈ word, Text.isNameChar c = true) ∨
    ∃ operator ∈ markOperators, name = operator.toList

theorem MethodName.ne_nil {name : List Char} (legal : MethodName name) : name ≠ [] := by
  cases legal with
  | word => simp
  | operator member =>
      have longer : ∀ name ∈ operatorNames, name.toList ≠ [] := by decide +kernel
      exact longer _ member

theorem ending_scanned {ending : List Char} (known : ending ∈ nameEndings) :
    ∀ c ∈ ending, isMethodNameChar c = true := by
  have each : ∀ ending ∈ nameEndings, ∀ c ∈ ending, isMethodNameChar c = true := by
    simp [nameEndings, isMethodNameChar]
  exact each ending known

theorem PlainName.scanned {name : List Char} (plain : PlainName name) :
    ∀ c ∈ name, isMethodNameChar c = true := by
  rcases plain with ⟨word, ending, known, rfl, letters⟩ | ⟨operator, member, rfl⟩
  · intro c member
    rcases List.mem_append.mp member with inside | behind
    · simp [isMethodNameChar, letters c inside]
    · exact ending_scanned known c behind
  · have marks : ∀ operator ∈ markOperators, ∀ c ∈ operator.toList, isMethodNameChar c = true := by
      simp [markOperators, isMethodNameChar]
    exact marks operator member

theorem isNameChar_of_identifier {c : Char} (inside : isIdentifierChar c = true)
    (scanned : isMethodNameChar c = true) : Text.isNameChar c = true := by
  have marks : isIdentifierChar '?' = false ∧ isIdentifierChar '!' = false ∧
      isIdentifierChar '=' = false := by decide
  simp only [isMethodNameChar, Bool.or_eq_true, decide_eq_true_eq] at scanned
  rcases scanned with ((letter | rfl) | rfl) | rfl
  · exact letter
  · simp [marks] at inside
  · simp [marks] at inside
  · simp [marks] at inside

/-- The names of methods that the scan passes over whole. -/
theorem MethodName.scanned_iff {name : List Char} (legal : MethodName name) :
    (∀ c ∈ name, isMethodNameChar c = true) ↔ PlainName name := by
  refine ⟨?_, PlainName.scanned⟩
  intro scanned
  cases legal with
  | @word first more ending opens _ inside known =>
      refine .inl ⟨first :: more, ending, known, rfl, ?_⟩
      intro c member
      have identifier : isIdentifierChar c = true := by
        rcases List.mem_cons.mp member with rfl | later
        · exact opens
        · exact inside c later
      exact isNameChar_of_identifier identifier (scanned c (List.mem_append_left ending member))
  | @operator operator member =>
      have marks : ∀ operator ∈ operatorNames,
          operator.toList.all isMethodNameChar = true → operator ∈ markOperators := by
        decide +kernel
      exact .inr ⟨operator, marks operator member (List.all_eq_true.mpr scanned), rfl⟩

end Names

section Scan

variable {source blanks name rest : List Char} {start : Nat}

structure Written (source : List Char) (start : Nat) (blanks name rest : List Char) : Prop where
  text : ∃ ahead, source = ahead ++ ("def".toList ++ (blanks ++ (name ++ rest))) ∧
    Text.byteCount ahead = start
  spaced : blanks ≠ [] ∧ ∀ c ∈ blanks, Text.isBlank c = true
  -- the blanks are all those in front of the name
  opens : ∀ c ∈ name.head?, Text.isBlank c = false
  legal : MethodName name
  ends : ∀ c ∈ rest.head?, isMethodNameChar c = false

theorem takeWhile_stopped {test : Char → Bool} (stops : ∀ c ∈ rest.head?, test c = false) :
    rest.takeWhile test = [] := by
  cases rest with
  | nil => rfl
  | cons c rest => simp [stops c rfl]

theorem takeWhile_name {test : Char → Bool} (stops : ∀ c ∈ rest.head?, test c = false) :
    (name ++ rest).takeWhile test = name.takeWhile test := by
  rw [List.takeWhile_append, takeWhile_stopped stops, List.append_nil]
  split
  · rename_i whole
    exact ((List.takeWhile_prefix test).eq_of_length whole).symm
  · rfl

theorem dropWhile_blanks (spaced : ∀ c ∈ blanks, Text.isBlank c = true)
    (opens : ∀ c ∈ name.head?, Text.isBlank c = false) (named : name ≠ []) :
    (blanks ++ (name ++ rest)).dropWhile Text.isBlank = name ++ rest := by
  rw [List.dropWhile_append_of_pos spaced]
  obtain ⟨first, more, rfl⟩ := List.exists_cons_of_ne_nil named
  simp [opens first rfl]

theorem resolve_written (written : Written source start blanks name rest) :
    resolve source (.afterMethodName start) =
      start + 3 + Text.byteCount blanks + Text.byteCount (name.takeWhile isMethodNameChar) := by
  obtain ⟨ahead, rfl, rfl⟩ := written.text
  have word : skipDef ("def".toList ++ (blanks ++ (name ++ rest))) = blanks ++ (name ++ rest) := rfl
  have size : Text.byteCount "def".toList = 3 := rfl
  simp only [resolve, tailFrom_byteCount, methodNameEnd, word,
    dropWhile_blanks written.spaced.2 written.opens written.legal.ne_nil,
    takeWhile_name written.ends, Text.byteCount_append, size]
  omega

theorem byteCount_takeWhile_iff (test : Char → Bool) (name : List Char) :
    Text.byteCount (name.takeWhile test) = Text.byteCount name ↔ ∀ c ∈ name, test c = true := by
  have parts := byteCount_dropWhile test name
  constructor
  · intro same
    have nothing : name.dropWhile test = [] := Text.eq_nil_of_byteCount (by omega)
    exact List.dropWhile_eq_nil_iff.mp nothing
  · intro all
    rw [List.dropWhile_eq_nil_iff.mpr all, Text.byteCount_nil] at parts
    omega

end Scan

section Probes

variable {tree : CoverTree} {method body : Cell} {span : Ast.Span} {name : String}

/-- A method of a tree that has a location, but neither located parameters nor a body. -/
structure EmptyMethod (tree : CoverTree) (method body : Cell) (span : Ast.Span) (name : String) :
    Prop where
  found : tree.cell? method.number = some method
  shape : method.shape = some .method
  located : method.span = some span
  named : method.text? 0 = some name
  bare : ∀ id cell, method.child? 1 = some id → tree.cell? id = some cell → cell.span = none
  held : method.child? 2 = some body.number
  empty : tree.cell? body.number = some body ∧ body.kind = .emptyBody

def InsertedAt (pieces : List Piece) (id : Nat) (text : String) (offset : Nat) : Prop :=
  ∃ front back, pieces = front ++ .inserted id text :: back ∧
    Text.byteCount (keptOf front) = offset

theorem EmptyMethod.occurs (built : Built tree) (empty : EmptyMethod tree method body span name) :
    ∃ above place node kid, Occurs tree.root above place node ∧ node.kid? 2 = some kid ∧
      method = node.cell (above.map Covered.number) place ∧ body = kid.cell (some node.number) 2 ∧
      kid.info.span = none ∧ kid.info.anchor = some (.afterMethodName span.startByte) := by
  have numbered := built.grown.numbered
  obtain ⟨above, place, node, occurs, _, same⟩ := numbered.occurs_of_cell? empty.found
  have held := empty.held
  rw [same, Covered.cell_child?, Option.map_eq_some_iff] at held
  obtain ⟨kid, stands, number⟩ := held
  have found := numbered.cell?_of_occurs (.child 2 occurs stands)
  rw [number, empty.empty.1] at found
  obtain rfl := Option.some.inj found
  subst same
  refine ⟨above, place, node, kid, occurs, stands, rfl, rfl, ?_⟩
  apply anchor_of_method built occurs empty.shape empty.located _ stands empty.empty.2
  intro parameters first
  refine empty.bare parameters.number _ ?_ (numbered.cell?_of_occurs (.child 1 occurs first))
  rw [Covered.cell_child?, first, Option.map_some]

theorem EmptyMethod.plan (built : Built tree) (empty : EmptyMethod tree method body span name)
    (stem : String) :
    ∃ slot, tree.trackerSlot? method.number .call = some slot ∧
      Instrument.plan tree stem body.number = .ok ⟨";" ++ tree.allocator.probe slot ++ ";", ""⟩ := by
  have grown := built.grown
  obtain ⟨above, place, node, kid, occurs, held, rfl, rfl, _⟩ := empty.occurs built
  have kind := method_of_shape (grown.regular above place node occurs) empty.shape
  obtain ⟨slot, _, slotted⟩ := declared_slot grown empty.found
    (show Tracker.call ∈ (node.cell _ _).kind.trackers by rw [Covered.cell_kind, kind]; decide)
  refine ⟨slot, slotted, ?_⟩
  have own : ownSketch tree (kid.cell (some node.number) 2) = .empty := by
    rw [ownSketch, empty.empty.2]
    rfl
  have outer : parentSketch tree (kid.cell (some node.number) 2) =
      ⟨[.literal ";", .probe slot, .literal ";"], []⟩ := by
    have filled : node.branches ≠ [] := by
      rintro none
      have inside := Covered.slot_lt held
      simp [none] at inside
    have found := grown.numbered.cell?_of_occurs occurs
    rw [Covered.cell_number] at slotted
    simp [parentSketch, found, kind, Kind.childPattern, filled, Kind.statementPattern,
      Sketch.ofPattern?, Sketch.ofPattern, frontOf, backOf, Mark.ofSegment?, slotted]
  rw [plan_eq grown empty.empty.1, sketch, empty.empty.1]
  simp [own, outer, Sketch.around, Sketch.empty, Sketch.plan, Mark.textOf, Mark.text, String.join]

theorem EmptyMethod.inserted {global : String} {fileIndex : Nat} {program : Option Ast.Node}
    {stem : String} {source : List Char} {pieces : List Piece}
    (covered : CoverTree.build global fileIndex program = .ok tree)
    (empty : EmptyMethod tree method body span name) (reached : Reached tree method.number)
    (done : Instrument.pieces tree stem source = .ok pieces) :
    ∃ slot, tree.trackerSlot? method.number .call = some slot ∧
      InsertedAt pieces body.number (";" ++ tree.allocator.probe slot ++ ";")
        (resolve source (.afterMethodName span.startByte)) := by
  have built := (built_of_build covered).1
  have grown := built.grown
  obtain ⟨slot, slotted, planned⟩ := empty.plan built stem
  obtain ⟨above, place, node, kid, occurs, held, rfl, rfl, spanless, anchored⟩ :=
    empty.occurs built
  refine ⟨slot, slotted, ?_⟩
  have stands : Occurs tree.root (some node) 2 kid := .child 2 occurs held
  have bodyReached : Reached tree kid.number :=
    reached.child (grown.numbered.parent?_of_occurs stands) fun _ =>
      ⟨_, empty.found, by rw [empty.located, Option.isSome_some]⟩
  have loud : ¬Silent tree stem kid := by
    rintro ⟨_, silent⟩
    have nothing := congrArg Plan.before (Except.ok.inj (planned.symm.trans silent))
    simp [Plan.empty] at nothing
  obtain ⟨plan, own, range, front, inner, back, placed, frame, _⟩ :=
    (embedded_of_reached grown (root_unlocated covered) done stands (by simp) bodyReached
      loud).placed grown stands
  obtain rfl := Except.ok.inj (planned.symm.trans own)
  have point : place? source kid.info.span kid.info.anchor = some range := placed
  rw [spanless, anchored] at point
  obtain rfl := Option.some.inj point
  exact ⟨front, _, by rw [frame.split, around, List.cons_append]; rfl, frame.start⟩

end Probes

def nameStart (start : Nat) (blanks : List Char) : Nat :=
  start + 3 + Text.byteCount blanks

/-- The probe of an empty method is put behind the characters of the name that belong to plain names.
So it is put right behind the name exactly if the name is a plain one. -/
theorem empty_method_behind_plain_name {tree : CoverTree} {method body : Cell} {span : Ast.Span}
    {name source : String} {blanks rest : List Char} (built : Built tree)
    (empty : EmptyMethod tree method body span name)
    (written : Written source.toList span.startByte blanks name.toList rest) :
    body.anchor = some (.afterMethodName span.startByte) ∧
    resolve source.toList (.afterMethodName span.startByte) =
      nameStart span.startByte blanks +
        Text.byteCount (name.toList.takeWhile isMethodNameChar) ∧
    (resolve source.toList (.afterMethodName span.startByte) =
        nameStart span.startByte blanks + Text.byteCount name.toList ↔ PlainName name.toList) ∧
    ∀ global fileIndex program stem output,
      CoverTree.build global fileIndex program = .ok tree → Reached tree method.number →
      instrument tree stem source = .ok output →
      ∃ pieces slot, Instrument.pieces tree stem source.toList = .ok pieces ∧
        output = Piece.textOf pieces ∧ tree.trackerSlot? method.number .call = some slot ∧
        InsertedAt pieces body.number (";" ++ tree.allocator.probe slot ++ ";")
          (resolve source.toList (.afterMethodName span.startByte)) := by
  have found := resolve_written written
  refine ⟨?_, found, ?_, ?_⟩
  · obtain ⟨_, _, _, _, _, _, _, rfl, _, anchored⟩ := empty.occurs built
    exact anchored
  · rw [found, nameStart, Nat.add_left_cancel_iff, byteCount_takeWhile_iff,
      written.legal.scanned_iff]
  · intro global fileIndex program stem output covered reached done
    obtain ⟨pieces, rendered, same⟩ := instrument_ok done
    obtain ⟨slot, slotted, inserted⟩ := empty.inserted covered reached rendered
    exact ⟨pieces, slot, rendered, same, slotted, inserted⟩

def emptyMethod (name : String) (size : Nat) : Ast.Node :=
  .mk "def" [.atom (.text name), .node (.mk "args" [] none), .atom .nil] (some ⟨0, size, 1, 1⟩)

theorem emptyMethod_covered {name : String} {size : Nat} {tree : CoverTree}
    (covered : CoverTree.build Probe.defaultGlobal 0 (some (emptyMethod name size)) = .ok tree) :
    ∃ method body, EmptyMethod tree method body ⟨0, size, 1, 1⟩ name ∧
      Reached tree method.number ∧ tree.trackerSlot? method.number .call = some 1 := by
  have top := reached_root (built_of_build covered).1.grown
  have known {method parameters body : Cell}
      (cells : tree.cell? 1 = some method ∧ tree.cell? 2 = some parameters ∧
        tree.cell? 3 = some body)
      (numbers : method.number = 1 ∧ body.number = 3) (above : tree.parent? 1 = some 0)
      (shape : method.shape = some .method) (located : method.span = some ⟨0, size, 1, 1⟩)
      (children : method.text? 0 = some name ∧ method.child? 1 = some 2 ∧ method.child? 2 = some 3)
      (bare : parameters.span = none) (empty : body.kind = .emptyBody)
      (slotted : tree.trackerSlot? 1 .call = some 1) :
      ∃ method body, EmptyMethod tree method body ⟨0, size, 1, 1⟩ name ∧
        Reached tree method.number ∧ tree.trackerSlot? method.number .call = some 1 := by
    refine ⟨method, body, ⟨by rw [numbers.1, cells.1], shape, located, children.1, ?_,
      by rw [children.2.2, numbers.2], by rw [numbers.2, cells.2.2], empty⟩, ?_,
      by rw [numbers.1, slotted]⟩
    · intro id cell first found
      obtain rfl := Option.some.inj (children.2.1.symm.trans first)
      obtain rfl := Option.some.inj (cells.2.1.symm.trans found)
      exact bare
    · rw [numbers.1]
      exact top.child above fun notRoot => absurd rfl notRoot
  obtain rfl := Except.ok.inj covered
  exact known ⟨rfl, rfl, rfl⟩ ⟨rfl, rfl⟩ rfl rfl rfl ⟨rfl, rfl, rfl⟩ rfl rfl rfl

theorem empty_method_behind_plain_name_umlaut :
    ∃ tree method body,
      CoverTree.build Probe.defaultGlobal 0 (some (emptyMethod "größe?" 17)) = .ok tree ∧
      EmptyMethod tree method body ⟨0, 17, 1, 1⟩ "größe?" ∧
      Written "def größe?; end".toList 0 [' '] "größe?".toList "; end".toList ∧
      resolve "def größe?; end".toList (.afterMethodName 0) = 12 ∧
      ∃ pieces, Instrument.pieces tree defaultStem "def größe?; end".toList = .ok pieces ∧
        InsertedAt pieces body.number ";$_dc_cov[0][1]+=1;" 12 := by
  have letters : ∀ c ∈ "größe".toList, Text.isNameChar c = true :=
    List.all_eq_true.mp (by decide +kernel)
  have identifier : ∀ c ∈ "röße".toList, isIdentifierChar c = true :=
    List.all_eq_true.mp (by decide +kernel)
  have plain : PlainName "größe?".toList :=
    .inl ⟨"größe".toList, ['?'], by simp [nameEndings], rfl, letters⟩
  have legal : MethodName "größe?".toList :=
    @MethodName.word 'g' "röße".toList ['?'] rfl rfl identifier (by simp [nameEndings])
  have written : Written "def größe?; end".toList 0 [' '] "größe?".toList "; end".toList :=
    ⟨⟨[], rfl, rfl⟩, by simp [Text.isBlank], by simp [Text.isBlank], legal,
      by simp [isMethodNameChar, Text.isNameChar, Text.isLetterOrDigit]⟩
  have known {tree : CoverTree}
      (covered : CoverTree.build Probe.defaultGlobal 0 (some (emptyMethod "größe?" 17)) = .ok tree)
      (done : instrument tree defaultStem "def größe?; end" =
        .ok "$_dc_cov[0][0]+=1;def größe?;$_dc_cov[0][1]+=1;; end")
      (probe : ";" ++ tree.allocator.probe 1 ++ ";" = ";$_dc_cov[0][1]+=1;") :
      ∃ method body, EmptyMethod tree method body ⟨0, 17, 1, 1⟩ "größe?" ∧
        resolve "def größe?; end".toList (.afterMethodName 0) = 12 ∧
        ∃ pieces, Instrument.pieces tree defaultStem "def größe?; end".toList = .ok pieces ∧
          InsertedAt pieces body.number ";$_dc_cov[0][1]+=1;" 12 := by
    obtain ⟨method, body, empty, reached, slotted⟩ := emptyMethod_covered covered
    obtain ⟨_, _, exact, inserts⟩ :=
      empty_method_behind_plain_name (built_of_build covered).1 empty written
    have place : resolve "def größe?; end".toList (.afterMethodName 0) = 12 :=
      (exact.mpr plain).trans (by decide +kernel)
    obtain ⟨pieces, slot, rendered, _, own, inserted⟩ := inserts _ _ _ _ _ covered reached done
    obtain rfl := Option.some.inj (slotted.symm.trans own)
    rw [probe, place] at inserted
    exact ⟨method, body, empty, place, pieces, rendered, inserted⟩
  obtain ⟨method, body, empty, place, inserted⟩ := known rfl (by decide +kernel) (by decide +kernel)
  exact ⟨_, method, body, rfl, empty, written, place, inserted⟩

/-- The probe of `def -@` is put in front of the operator. -/
theorem negation_loses_its_name :
    ∃ tree method body,
      CoverTree.build Probe.defaultGlobal 0 (some (emptyMethod "-@" 11)) = .ok tree ∧
      EmptyMethod tree method body ⟨0, 11, 1, 1⟩ "-@" ∧
      Written "def -@; end".toList 0 [' '] "-@".toList "; end".toList ∧
      resolve "def -@; end".toList (.afterMethodName 0) ≠
        nameStart 0 [' '] + Text.byteCount "-@".toList ∧
      instrument tree defaultStem "def -@; end" =
        .ok "$_dc_cov[0][0]+=1;def ;$_dc_cov[0][1]+=1;-@; end" := by
  have written : Written "def -@; end".toList 0 [' '] "-@".toList "; end".toList :=
    ⟨⟨[], rfl, rfl⟩, by simp [Text.isBlank], by simp [Text.isBlank], .operator (by decide),
      by simp [isMethodNameChar, Text.isNameChar, Text.isLetterOrDigit]⟩
  have known {tree : CoverTree}
      (covered : CoverTree.build Probe.defaultGlobal 0 (some (emptyMethod "-@" 11)) = .ok tree) :
      ∃ method body, EmptyMethod tree method body ⟨0, 11, 1, 1⟩ "-@" := by
    obtain ⟨method, body, empty, _⟩ := emptyMethod_covered covered
    exact ⟨method, body, empty⟩
  obtain ⟨method, body, empty⟩ := known rfl
  refine ⟨_, method, body, rfl, empty, written, ?_, ?_⟩
  · decide +kernel
  · decide +kernel

end ProbeCoverage.Instrument
