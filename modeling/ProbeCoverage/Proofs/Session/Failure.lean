import ProbeCoverage.Proofs.Session.Rows

/-!
What a covering that fails leaves behind. It registers nothing, but a path outside of the project has
been given its row by then, and the row is lost. So the calls that follow are answered as if the
failure had not been, up to the rows of files outside of the project: those covered later stand one
row further on. The row of a file shows in its allocator alone, so a file on another row is the same
file otherwise.
-/

namespace ProbeCoverage

namespace Probe.Allocator

def moveTo (row : Nat) (allocator : Allocator) : Allocator :=
  { allocator with fileIndex := row }

end Probe.Allocator

namespace Cover

open Ast (Child Node Shape Span)
open Probe (Allocator)

def handOver {α : Type} (row : Nat) (covered : α × Allocator) : α × Allocator :=
  (covered.1, covered.2.moveTo row)

theorem place_moveTo (row : Nat) (allocator : Allocator) (kind : Kind) (shape : Option Shape)
    (span : Option Span) (anchor : Option Anchor) :
    place (allocator.moveTo row) kind shape span anchor =
      handOver row (place allocator kind shape span anchor) := rfl

mutual

theorem cover_moveTo (row : Nat) (kind : Kind) (shape : Shape) (allocator : Allocator)
    (node : Node) :
    cover kind shape (allocator.moveTo row) node =
      (cover kind shape allocator node).map (handOver row) := by
  match node with
  | .mk tag children location =>
      rw [cover, cover]
      split
      · split
        · rfl
        · rw [place_moveTo]
          dsimp only [handOver]
          rw [coverChildren_moveTo]
          cases coverChildren kind shape children.length (emptyAnchor kind location children) 0
            (place allocator kind (some shape) location none).2 children <;> rfl
      · rfl

theorem coverChildren_moveTo (row : Nat) (parent : Kind) (parentShape : Shape) (count : Nat)
    (anchor : Nat → Option Anchor) (index : Nat) (allocator : Allocator) (children : List Child) :
    coverChildren parent parentShape count anchor index (allocator.moveTo row) children =
      (coverChildren parent parentShape count anchor index allocator children).map
        (handOver row) := by
  match children with
  | [] => rfl
  | .atom atom :: rest =>
      rw [coverChildren, coverChildren]
      split
      · rw [place_moveTo]
        dsimp only [handOver]
        rw [coverChildren_moveTo]
        cases coverChildren parent parentShape count anchor (index + 1)
          (place allocator .emptyBody none none (anchor index)).2 rest <;> rfl
      · rw [coverChildren_moveTo]
        cases coverChildren parent parentShape count anchor (index + 1) allocator rest <;> rfl
  | .node node :: rest =>
      rw [coverChildren, coverChildren]
      split
      · rfl
      · rename_i shape _
        split
        · rfl
        · rename_i kind _
          -- the child, bare or in a wrapper, and then the slots behind it
          by_cases wraps : kind.isMatcher = true
          · simp only [wraps, if_true]
            cases patternFault? kind 1 with
            | some error => rfl
            | none =>
                simp only [place_moveTo, handOver]
                rw [cover_moveTo]
                cases cover (.ofShape shape) shape (place allocator kind none node.location none).2
                    node with
                | error error => rfl
                | ok covered =>
                    simp only [Except.map, handOver]
                    rw [coverChildren_moveTo]
                    cases coverChildren parent parentShape count anchor (index + 1) covered.2
                      rest <;> rfl
          · simp only [wraps, if_false, Bool.false_eq_true]
            rw [cover_moveTo]
            cases cover kind shape allocator node with
            | error error => rfl
            | ok covered =>
                simp only [Except.map, handOver]
                rw [coverChildren_moveTo]
                cases coverChildren parent parentShape count anchor (index + 1) covered.2
                  rest <;> rfl

end

def CoverTree.moveTo (row : Nat) (tree : CoverTree) : CoverTree :=
  { tree with allocator := tree.allocator.moveTo row }

theorem build_moveTo (global : String) (row other : Nat) (program : Option Node) :
    CoverTree.build global other program =
      (CoverTree.build global row program).map (CoverTree.moveTo other) := by
  cases program with
  | none => rfl
  | some program =>
      have wrapper : place (.fresh global other) .root none none none =
          handOver other (place (.fresh global row) .root none none none) := rfl
      rw [CoverTree.build, CoverTree.build, CoverTree.ofProgram, CoverTree.ofProgram, wrapper]
      dsimp only [handOver]
      cases shapeOf program with
      | error error => rfl
      | ok shape =>
          dsimp only
          cases classify .root none 0 1 shape with
          | error error => rfl
          | ok kind =>
              dsimp only
              rw [cover_moveTo]
              cases cover kind shape (place (.fresh global row) .root none none none).2
                program <;> rfl

end Cover

def Coverage.CoveredFile.moveTo (row : Nat) (file : Coverage.CoveredFile) : Coverage.CoveredFile :=
  { file with tree := file.tree.moveTo row }

namespace Session

open Coverage (CoveredFile)
open Files (Volume samePath)

section Rows

/-- On another row the same file is made, or nothing for the same reason. -/
def Portable (build : Nat → Except Error CoveredFile) : Prop :=
  ∀ row other, build other = (build row).map (CoveredFile.moveTo other)

theorem portable_coverText (config : Config) (path source : String) (program : Option Ast.Node) :
    Portable (coverText config path source program) := by
  intro row other
  rw [coverText, coverText, CoveredFile.cover, CoveredFile.cover, Cover.build_moveTo _ row other]
  cases Cover.CoverTree.build config.trackerGlobal row program <;> rfl

theorem portable_load (config : Config) (volume : Volume) (path : String) :
    Portable (load config volume path) := by
  intro row other
  rw [load, load]
  cases volume.readText path with
  | error fault => rfl
  | ok source =>
      dsimp only
      cases volume.readText (Files.sidecar path treeSuffix) with
      | error fault => rfl
      | ok text =>
          dsimp only
          cases (Json.read text).bind Ast.Interchange.programOfJson? with
          | none => rfl
          | some program => exact portable_coverText config path source program row other

def skipRows (count : Nat) (session : Session) : Session :=
  { session with unlisted := session.unlisted + count }

def lists (session : Session) (path : String) : Bool :=
  (session.projectFiles.findIdx? (samePath path)).isSome

def further (session : Session) (count : Nat) (file : CoveredFile) : CoveredFile :=
  if session.lists file.path then file else file.moveTo (file.row + count)

theorem further_path (session : Session) (count : Nat) (file : CoveredFile) :
    (session.further count file).path = file.path := by
  rw [further]
  split <;> rfl

end Rows

section Trailing

/-- What is said of a call once rows were skipped. Files that were there before stay. -/
def Event.further (origin : Session) (count : Nat) : Event → Event
  | .covered path result =>
      .covered path
        (if (origin.file? path).isSome then result else result.map (origin.further count))
  | .cleared => .cleared

/-- Two sessions that were the same at one time, when rows were skipped in the second one. Since then
both have covered the same files. -/
structure Trails (origin : Session) (count : Nat) (fresh : List CoveredFile)
    (first second : Session) : Prop where
  project : first.projectFiles = origin.projectFiles
  plain : first.files = origin.files ++ fresh
  moved : second = { first with
    unlisted := first.unlisted + count
    files := origin.files ++ fresh.map (origin.further count) }

variable {origin first second : Session} {count : Nat} {fresh : List CoveredFile} {path : String}

theorem Trails.file? (trails : Trails origin count fresh first second) (path : String) :
    first.file? path = (origin.file? path).or (fresh.find? fun file => samePath file.path path) ∧
      second.file? path = (origin.file? path).or
        ((fresh.find? fun file => samePath file.path path).map (origin.further count)) := by
  rw [trails.moved, Session.file?, Session.file?, Session.file?, trails.plain]
  constructor
  · rw [List.find?_append]
  · rw [List.find?_append, List.find?_map]
    simp only [Function.comp_def, further_path]

theorem Trails.idle (trails : Trails origin count fresh first second) :
    ∃ more, Trails origin count (fresh ++ more) first second := by
  refine ⟨[], ?_⟩
  rw [List.append_nil]
  exact trails

theorem Trails.rowOf (trails : Trails origin count fresh first second) (path : String) :
    Trails origin count fresh (first.rowOf path).2 (second.rowOf path).2 ∧
      (second.rowOf path).1 =
        if origin.lists path then (first.rowOf path).1 else (first.rowOf path).1 + count := by
  have places : second.projectFiles = first.projectFiles := by rw [trails.moved]
  rw [lists, ← trails.project]
  cases found : first.projectFiles.findIdx? (samePath path) with
  | some place =>
      rw [rowOf_listed found, rowOf_listed (places.symm ▸ found)]
      exact ⟨trails, rfl⟩
  | none =>
      rw [rowOf_outside found, rowOf_outside (places.symm ▸ found), trails.moved]
      constructor
      · exact ⟨trails.project, trails.plain, by simp [Nat.add_right_comm]⟩
      · simp [Nat.add_assoc]

theorem Trails.build {build : Nat → Except Error CoveredFile}
    (trails : Trails origin count fresh first second) (keeps : KeepsTo first.config path build)
    (portable : Portable build) :
    build (second.rowOf path).1 =
      (build (first.rowOf path).1).map (origin.further count) := by
  rw [portable (first.rowOf path).1, (trails.rowOf path).2]
  cases made : build (first.rowOf path).1 with
  | error error => rfl
  | ok file =>
      obtain ⟨same, placed, _⟩ := keeps _ _ made
      simp only [Except.map, further, same, placed]
      cases origin.lists path with
      | false => rfl
      | true =>
          rw [← placed]
          rfl

/-- The step: one covering, in both sessions. -/
theorem Trails.register {build : Nat → Except Error CoveredFile}
    (trails : Trails origin count fresh first second) (keeps : KeepsTo first.config path build)
    (portable : Portable build) :
    (∃ more, Trails origin count (fresh ++ more) (first.register path build).2
      (second.register path build).2) ∧
    Event.covered path (second.register path build).1 =
      (Event.covered path (first.register path build).1).further origin count := by
  obtain ⟨plain, moved⟩ := trails.file? path
  rw [Session.register, Session.register, Event.further]
  cases old : origin.file? path with
  | some file =>
      rw [old] at plain moved
      rw [plain, moved]
      exact ⟨trails.idle, rfl⟩
  | none =>
      rw [old, Option.none_or] at plain moved
      rw [plain, moved]
      cases fresh.find? fun file => samePath file.path path with
      | some file => exact ⟨trails.idle, rfl⟩
      | none =>
          dsimp only [Option.map_none]
          rw [trails.build keeps portable]
          have rows := (trails.rowOf path).1
          cases build (first.rowOf path).1 with
          | error error => exact ⟨rows.idle, rfl⟩
          | ok file =>
              refine ⟨⟨[file], ?_⟩, rfl⟩
              constructor
              · exact rows.project
              · simp [rows.plain]
              · dsimp only [Except.map]
                rw [rows.moved]
                simp

theorem Trails.serve (trails : Trails origin count fresh first second) {call : Call}
    (covers : call ≠ .clear) :
    (∃ more, Trails origin count (fresh ++ more) (first.serve call).2 (second.serve call).2) ∧
      (second.serve call).1 = (first.serve call).1.further origin count := by
  have config : second.config = first.config := by rw [trails.moved]
  cases call with
  | source path source program =>
      have step := trails.register (keepsTo_coverText first.config path source program)
        (portable_coverText _ _ _ _)
      rw [Session.serve, Session.serve, coverSource, coverSource, config]
      exact step
  | file volume path =>
      have step := trails.register (keepsTo_load first.config volume path) (portable_load _ _ _)
      rw [Session.serve, Session.serve, coverFile, coverFile, config]
      exact step
  | clear => exact absurd rfl covers

theorem Trails.serveAll (trails : Trails origin count fresh first second) {calls : List Call}
    (covers : ∀ call ∈ calls, call ≠ .clear) :
    (∃ more, Trails origin count (fresh ++ more) (first.serveAll calls).2
      (second.serveAll calls).2) ∧
    (second.serveAll calls).1 = (first.serveAll calls).1.map (Event.further origin count) := by
  induction calls generalizing fresh first second with
  | nil => exact ⟨trails.idle, rfl⟩
  | cons call rest ih =>
      obtain ⟨⟨more, step⟩, event⟩ := trails.serve (covers call List.mem_cons_self)
      obtain ⟨⟨others, later⟩, events⟩ :=
        ih step fun other member => covers other (List.mem_cons_of_mem _ member)
      simp only [Session.serveAll, List.map_cons, event, events]
      rw [List.append_assoc] at later
      exact ⟨⟨_, later⟩, trivial⟩

end Trailing

section Failing

variable {session : Session} {call : Call} {path : String} {error : Error}

def lostRows (session : Session) (path : String) : Nat :=
  if session.lists path then 0 else 1

theorem register_failed {build : Nat → Except Error CoveredFile}
    (failed : (session.register path build).1 = .error error) :
    (session.register path build).2 = session.skipRows (session.lostRows path) := by
  rcases session.register_cases path build with
    ⟨file, _, result⟩ | ⟨_, _, result⟩ | ⟨file, _, _, result⟩
  · rw [result] at failed
    cases failed
  · rw [result, lostRows, lists]
    dsimp only
    cases found : session.projectFiles.findIdx? (samePath path) with
    | some place =>
        rw [rowOf_listed found]
        rfl
    | none =>
        rw [rowOf_outside found]
        rfl
  · rw [result] at failed
    cases failed

theorem serve_failed (failed : (session.serve call).1 = .covered path (.error error)) :
    (session.serve call).2 = session.skipRows (session.lostRows path) := by
  cases call with
  | source asked source program =>
      simp only [serve, Event.covered.injEq] at failed
      obtain ⟨rfl, failed⟩ := failed
      exact register_failed failed
  | file volume asked =>
      simp only [serve, Event.covered.injEq] at failed
      obtain ⟨rfl, failed⟩ := failed
      exact register_failed failed
  | clear => cases failed

/-- A covering that fails costs no more than one row, and none if the path is one of the project. All
that is covered is still covered. Coverings that follow get the answers that they would have got, but
for the rows of files outside of the project that are covered from then on, which lie behind by the
row that was lost. -/
theorem failed_covering_skips_row
    (failed : (session.serve call).1 = .covered path (.error error)) :
    let after := (session.serve call).2
    let lost := session.lostRows path
    after = session.skipRows lost ∧ after.files = session.files ∧ after.clear = session.clear ∧
    (session.lists path = true → after = session) ∧
    ∀ calls, (∀ call ∈ calls, call ≠ .clear) →
      (after.serveAll calls).1 = (session.serveAll calls).1.map (Event.further session lost) ∧
      ∃ fresh, (session.serveAll calls).2.files = session.files ++ fresh ∧
        (after.serveAll calls).2.files = session.files ++ fresh.map (session.further lost) := by
  intro after lost
  have skipped : after = session.skipRows lost := serve_failed failed
  rw [skipped]
  refine ⟨rfl, rfl, rfl, ?_, ?_⟩
  · intro listed
    simp only [lost, lostRows, listed, if_true]
    rfl
  · intro calls covers
    have trails : Trails session lost [] session (session.skipRows lost) :=
      ⟨rfl, by simp, by simp [skipRows]⟩
    obtain ⟨⟨fresh, later⟩, events⟩ := trails.serveAll covers
    refine ⟨events, fresh, later.plain, ?_⟩
    rw [later.moved]
    rfl

def loop : Ast.Node :=
  .mk "while" [.node (.mk "true" [] none), .node (.mk "int" [.atom (.int 1)] none)] none

theorem serve_loop {session : Session} {path : String} (unknown : (session.file? path).isNone = true) :
    (session.serve (.source path "" (some loop))).1 =
      .covered path (.error (.build (.unknownShape "while"))) := by
  rw [serve, coverSource, register, Option.isNone_iff_eq_none.mp unknown]
  rfl

/-- A file of the project, one that was covered before, and one that is new, each asked for once the
loop has failed. -/
theorem failed_covering_skips_row_loop :
    let session := ((start {} ["lib/a.rb"]).serve (.source "x.rb" "" none)).2
    let calls : List Call :=
      [.source "lib/a.rb" "" none, .source "y.rb" "" none, .source "x.rb" "" none]
    (session.serve (.source "z.rb" "" (some loop))).1 =
        .covered "z.rb" (.error (.build (.unknownShape "while"))) ∧
      session.lostRows "z.rb" = 1 ∧ (∀ call ∈ calls, call ≠ .clear) ∧
      ((session.skipRows 1).serveAll calls).1 =
        (session.serveAll calls).1.map (Event.further session 1) ∧
      (session.serveAll calls).2.files.map CoveredFile.row = [1, 0, 2] ∧
      ((session.skipRows 1).serveAll calls).2.files.map CoveredFile.row = [1, 0, 3] := by
  intro session calls
  have failed := @serve_loop session "z.rb" (by decide +kernel)
  have lost : session.lostRows "z.rb" = 1 := by decide +kernel
  have covers : ∀ call ∈ calls, call ≠ .clear := by simp [calls]
  obtain ⟨after, _, _, _, later⟩ := failed_covering_skips_row failed
  rw [after, lost] at later
  exact ⟨failed, lost, covers, (later calls covers).1, by decide +kernel, by decide +kernel⟩

/-- A file that is covered behind a failure has another row than without the failure. -/
theorem failed_covering_shows :
    let failing : Call := .source "a.rb" "" (some loop)
    let next : Call := .source "b.rb" "1" (some (.mk "int" [.atom (.int 1)] none))
    let session := start {} []
    (session.serve failing).1 = .covered "a.rb" (.error (.build (.unknownShape "while"))) ∧
      (session.serveAll [next]).2.files.map CoveredFile.row = [0] ∧
      ((session.serve failing).2.serveAll [next]).2.files.map CoveredFile.row = [1] :=
  ⟨serve_loop (by decide +kernel), by decide +kernel, by decide +kernel⟩

end Failing

end Session

end ProbeCoverage
