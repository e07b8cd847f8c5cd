import Mathlib.Data.List.Nodup
import ProbeCoverage.Proofs.Cover.Growth
import ProbeCoverage.Proofs.Files.Order
import ProbeCoverage.Proofs.Probe.Naming
import ProbeCoverage.Session

/-!
The rows of a session. A session is asked to cover sources and files and to forget what it has
covered, in any order, and coverings may fail. Whatever was asked, no two covered files share a row
of the counter array: a file of the project has the row of its place in the sorted list, and the rows
behind the list are given out once each. A counter is named by its row and its slot, so no two
counters of a session have one name.
-/

namespace ProbeCoverage

def Coverage.CoveredFile.row (file : Coverage.CoveredFile) : Nat :=
  file.tree.allocator.fileIndex

namespace Session

open Coverage (CoveredFile)
open Files (Volume pathLE samePath samePath_comm samePath_iff samePath_trans)

section Listing

structure Lists (project listed : List String) : Prop where
  ascending : listed.Pairwise fun first second =>
    pathLE first second = true ∧ samePath first second = false
  given : ∀ path ∈ listed, path ∈ project
  complete : ∀ path ∈ project, ∃ entry ∈ listed, samePath entry path = true

theorem dedupFrom_sublist (previous : String) (paths : List String) :
    (dedupFrom previous paths).Sublist paths := by
  induction paths generalizing previous with
  | nil => exact .slnil
  | cons head rest ih =>
      rw [dedupFrom]
      split
      · exact (ih previous).cons head
      · exact (ih head).cons_cons head

theorem dedupFrom_complete {previous path : String} {paths : List String} (member : path ∈ paths) :
    ∃ entry ∈ previous :: dedupFrom previous paths, samePath entry path = true := by
  induction paths generalizing previous with
  | nil => cases member
  | cons head rest ih =>
      rw [dedupFrom]
      rcases List.mem_cons.mp member with rfl | later
      · split
        · exact ⟨previous, List.mem_cons_self, ‹_›⟩
        · exact ⟨path, List.mem_cons_of_mem _ List.mem_cons_self, samePath_iff.mpr rfl⟩
      · split
        · exact ih later
        · obtain ⟨entry, found, same⟩ := ih later
          exact ⟨entry, List.mem_cons_of_mem _ found, same⟩

theorem dedupFrom_ascending {previous : String} {paths : List String}
    (sorted : (previous :: paths).Pairwise fun first second => pathLE first second = true) :
    (previous :: dedupFrom previous paths).Pairwise fun first second =>
      pathLE first second = true ∧ samePath first second = false := by
  induction paths generalizing previous with
  | nil => exact List.pairwise_singleton _ _
  | cons head rest ih =>
      obtain ⟨least, sorted⟩ := List.pairwise_cons.mp sorted
      rw [dedupFrom]
      split
      · apply ih
        refine List.pairwise_cons.mpr ⟨?_, sorted.of_cons⟩
        exact fun path later => least path (List.mem_cons_of_mem _ later)
      · rename_i different
        refine List.pairwise_cons.mpr ⟨?_, ih sorted⟩
        intro path member
        have later : path ∈ head :: rest :=
          ((dedupFrom_sublist head rest).cons_cons head).subset member
        refine ⟨least path later, Bool.eq_false_iff.mpr fun same => different ?_⟩
        -- a later spelling of `previous` would put the head on both sides of it
        rcases List.mem_cons.mp later with rfl | behind
        · exact same
        · have back := (List.pairwise_cons.mp sorted).1 path behind
          rw [← Files.pathLE_congr_right same] at back
          exact Files.samePath_of_pathLE (least head List.mem_cons_self) back

theorem lists_start (config : Config) (project : List String) :
    Lists project (start config project).projectFiles := by
  have sorted := Files.pairwise_mergeSort project
  have members (path : String) : path ∈ project.mergeSort pathLE ↔ path ∈ project :=
    List.mem_mergeSort
  simp only [start]
  generalize project.mergeSort pathLE = paths at sorted members
  cases paths with
  | nil => exact ⟨.nil, nofun, fun path member => absurd ((members path).mpr member) List.not_mem_nil⟩
  | cons head rest =>
      refine ⟨dedupFrom_ascending sorted, ?_, ?_⟩
      · intro path member
        apply (members path).mp
        exact ((dedupFrom_sublist head rest).cons_cons head).subset member
      · intro path member
        rcases List.mem_cons.mp ((members path).mpr member) with rfl | later
        · exact ⟨path, List.mem_cons_self, samePath_iff.mpr rfl⟩
        · exact dedupFrom_complete later

end Listing

section Registry

/-- A row that suits a path: its place in the project list, or one that was given out behind the
list. -/
def Suits (session : Session) (path : String) (row : Nat) : Prop :=
  match session.projectFiles.findIdx? (samePath path) with
  | some place => row = place
  | none =>
      session.projectFiles.length ≤ row ∧ row < session.projectFiles.length + session.unlisted

structure Accounted (project : List String) (session : Session) : Prop where
  lists : Lists project session.projectFiles
  apart : session.files.Pairwise fun first second => samePath first.path second.path = false
  rows : session.files.Pairwise fun first second => first.row ≠ second.row
  suits : ∀ file ∈ session.files, session.Suits file.path file.row
  array : ∀ file ∈ session.files, file.tree.allocator.global = session.config.trackerGlobal

def KeepsTo (config : Config) (path : String) (build : Nat → Except Error CoveredFile) : Prop :=
  ∀ place file, build place = .ok file →
    file.path = path ∧ file.row = place ∧ file.tree.allocator.global = config.trackerGlobal

theorem keepsTo_coverText (config : Config) (path source : String) (program : Option Ast.Node) :
    KeepsTo config path (coverText config path source program) := by
  intro place file covered
  unfold coverText CoveredFile.cover at covered
  split at covered
  · rename_i found made
    cases covered
    split at made
    · rename_i tree built
      cases made
      have origin := Cover.origin_of_build built
      exact ⟨rfl, origin.2, origin.1⟩
    · cases made
  · cases covered

theorem keepsTo_load (config : Config) (volume : Volume) (path : String) :
    KeepsTo config path (load config volume path) := by
  intro place file loaded
  unfold load at loaded
  split at loaded
  · cases loaded
  · dsimp only at loaded
    split at loaded
    · cases loaded
    · split at loaded
      · cases loaded
      · exact keepsTo_coverText _ _ _ _ _ _ loaded

section Places

variable {session : Session} {path : String}

theorem rowOf_listed {place : Nat}
    (listed : session.projectFiles.findIdx? (samePath path) = some place) :
    session.rowOf path = (place, session) := by
  rw [rowOf, listed]

theorem rowOf_outside (outside : session.projectFiles.findIdx? (samePath path) = none) :
    session.rowOf path =
      (session.projectFiles.length + session.unlisted,
        { session with unlisted := session.unlisted + 1 }) := by
  rw [rowOf, outside]

theorem suits_listed {place row : Nat}
    (listed : session.projectFiles.findIdx? (samePath path) = some place) :
    session.Suits path row ↔ row = place := by
  rw [Suits, listed]

theorem suits_outside {row : Nat}
    (outside : session.projectFiles.findIdx? (samePath path) = none) :
    session.Suits path row ↔
      session.projectFiles.length ≤ row ∧
        row < session.projectFiles.length + session.unlisted := by
  rw [Suits, outside]

end Places

theorem rowOf_session (session : Session) (path : String) :
    (session.rowOf path).2.files = session.files ∧
      (session.rowOf path).2.config = session.config ∧
      (session.rowOf path).2.projectFiles = session.projectFiles ∧
      session.unlisted ≤ (session.rowOf path).2.unlisted := by
  cases found : session.projectFiles.findIdx? (samePath path) with
  | some place =>
      rw [rowOf_listed found]
      exact ⟨rfl, rfl, rfl, Nat.le_refl _⟩
  | none =>
      rw [rowOf_outside found]
      exact ⟨rfl, rfl, rfl, Nat.le_succ _⟩

theorem rowOf_suits (session : Session) (path : String) :
    (session.rowOf path).2.Suits path (session.rowOf path).1 := by
  cases found : session.projectFiles.findIdx? (samePath path) with
  | some place =>
      rw [rowOf_listed found]
      exact (suits_listed found).mpr rfl
  | none =>
      rw [rowOf_outside found]
      refine (suits_outside ?_).mpr ?_
      · exact found
      · constructor
        · exact Nat.le_add_right _ _
        · exact Nat.lt_succ_self _

theorem Suits.mono {before after : Session} {path : String} {row : Nat}
    (listed : after.projectFiles = before.projectFiles) (more : before.unlisted ≤ after.unlisted)
    (suits : before.Suits path row) : after.Suits path row := by
  cases found : before.projectFiles.findIdx? (samePath path) with
  | some place =>
      rw [suits_listed found] at suits
      rw [← listed] at found
      exact (suits_listed found).mpr suits
  | none =>
      rw [suits_outside found] at suits
      rw [← listed] at found
      rw [suits_outside found, listed]
      omega

theorem findIdx?_congr {session : Session} {path other : String} {place : Nat}
    (first : session.projectFiles.findIdx? (samePath path) = some place)
    (second : session.projectFiles.findIdx? (samePath other) = some place) :
    samePath path other = true := by
  obtain ⟨inside, left, _⟩ := List.findIdx?_eq_some_iff_getElem.mp first
  obtain ⟨_, right, _⟩ := List.findIdx?_eq_some_iff_getElem.mp second
  rw [samePath_comm] at right
  exact samePath_trans left right

/-- A row that suits one path is not the one that another path is given. -/
theorem rowOf_fresh {session : Session} {path other : String} {row : Nat}
    (suits : session.Suits other row) (different : samePath other path = false) :
    row ≠ (session.rowOf path).1 := by
  cases there : session.projectFiles.findIdx? (samePath other) with
  | some place =>
      rw [suits_listed there] at suits
      cases here : session.projectFiles.findIdx? (samePath path) with
      | some given =>
          rw [rowOf_listed here, suits]
          rintro rfl
          rw [findIdx?_congr there here] at different
          cases different
      | none =>
          have inside := (List.findIdx?_eq_some_iff_getElem.mp there).1
          rw [rowOf_outside here]
          dsimp only
          omega
  | none =>
      rw [suits_outside there] at suits
      cases here : session.projectFiles.findIdx? (samePath path) with
      | some given =>
          have inside := (List.findIdx?_eq_some_iff_getElem.mp here).1
          rw [rowOf_listed here]
          dsimp only
          omega
      | none =>
          rw [rowOf_outside here]
          dsimp only
          omega

variable {project : List String} {session : Session}

theorem Accounted.ofRowOf (accounted : Accounted project session) (path : String) :
    Accounted project (session.rowOf path).2 := by
  obtain ⟨files, config, listed, more⟩ := session.rowOf_session path
  constructor
  · rw [listed]
    exact accounted.lists
  · rw [files]
    exact accounted.apart
  · rw [files]
    exact accounted.rows
  · intro file member
    rw [files] at member
    exact (accounted.suits file member).mono listed more
  · intro file member
    rw [files] at member
    rw [config]
    exact accounted.array file member

def append (session : Session) (file : CoveredFile) : Session :=
  { session with files := session.files ++ [file] }

theorem Accounted.append {file : CoveredFile} (accounted : Accounted project session)
    (suits : session.Suits file.path file.row)
    (array : file.tree.allocator.global = session.config.trackerGlobal)
    (fresh : ∀ other ∈ session.files, samePath other.path file.path = false)
    (free : ∀ other ∈ session.files, other.row ≠ file.row) :
    Accounted project (session.append file) := by
  constructor
  · exact accounted.lists
  · rw [Session.append, List.pairwise_append]
    exact ⟨accounted.apart, List.pairwise_singleton _ _, by simpa using fresh⟩
  · rw [Session.append, List.pairwise_append]
    exact ⟨accounted.rows, List.pairwise_singleton _ _, by simpa using free⟩
  · intro other member
    rcases List.mem_append.mp member with known | new
    · exact accounted.suits other known
    · obtain rfl := List.mem_singleton.mp new
      exact suits
  · intro other member
    rcases List.mem_append.mp member with known | new
    · exact accounted.array other known
    · obtain rfl := List.mem_singleton.mp new
      exact array

theorem file?_eq_none {path : String} :
    session.file? path = none ↔ ∀ file ∈ session.files, samePath file.path path = false := by
  simp [file?]

/-- Covering answers with a file that is registered, or takes a row and fails, or takes a row and
registers the file it makes. -/
theorem register_cases (session : Session) (path : String)
    (build : Nat → Except Error CoveredFile) :
    (∃ file, session.file? path = some file ∧
      session.register path build = (.ok file, session)) ∨
    (∃ error, session.file? path = none ∧
      session.register path build = (.error error, (session.rowOf path).2)) ∨
    (∃ file, session.file? path = none ∧ build (session.rowOf path).1 = .ok file ∧
      session.register path build =
        (.ok file, (session.rowOf path).2.append file)) := by
  unfold register
  split
  · rename_i file known
    exact .inl ⟨file, known, rfl⟩
  · rename_i unknown
    dsimp only
    split
    · rename_i file made
      exact .inr (.inr ⟨file, unknown, made, rfl⟩)
    · rename_i error failed
      exact .inr (.inl ⟨error, unknown, rfl⟩)

theorem Accounted.register {path : String} {build : Nat → Except Error CoveredFile}
    (accounted : Accounted project session) (keeps : KeepsTo session.config path build) :
    Accounted project (session.register path build).2 := by
  rcases session.register_cases path build with
    ⟨file, known, result⟩ | ⟨error, unknown, result⟩ | ⟨file, unknown, made, result⟩
  · rw [result]
    exact accounted
  · rw [result]
    exact accounted.ofRowOf path
  · rw [result]
    obtain ⟨files, config, _⟩ := session.rowOf_session path
    obtain ⟨rfl, placed, array⟩ := keeps _ _ made
    have fresh := file?_eq_none.mp unknown
    apply (accounted.ofRowOf file.path).append
    · rw [placed]
      exact session.rowOf_suits file.path
    · rw [config]
      exact array
    · rw [files]
      exact fresh
    · intro other member
      rw [files] at member
      rw [placed]
      exact rowOf_fresh (accounted.suits other member) (fresh other member)

theorem Accounted.clear (accounted : Accounted project session) :
    Accounted project session.clear where
  lists := accounted.lists
  apart := .nil
  rows := .nil
  suits := nofun
  array := nofun

theorem accounted_start (config : Config) (project : List String) :
    Accounted project (start config project) where
  lists := lists_start config project
  apart := .nil
  rows := .nil
  suits := nofun
  array := nofun

theorem Accounted.file?_eq_some {file : CoveredFile} {path : String}
    (accounted : Accounted project session) (member : file ∈ session.files)
    (same : samePath file.path path = true) : session.file? path = some file := by
  cases found : session.file? path with
  | none =>
      rw [file?_eq_none.mp found file member] at same
      cases same
  | some other =>
      rw [file?, List.find?_eq_some_iff_append] at found
      obtain ⟨matching, front, back, split, earlier⟩ := found
      have apart := accounted.apart
      rw [split] at member apart
      -- the file found is the first one of its path, and behind it no file has this path again
      rcases List.mem_append.mp member with before | behind
      · have differs := earlier file before
        rw [same] at differs
        cases differs
      · rcases List.mem_cons.mp behind with rfl | behind
        · rfl
        · have differs := (List.pairwise_cons.mp (List.pairwise_append.mp apart).2.1).1 file behind
          rw [samePath_comm] at same
          rw [samePath_trans matching same] at differs
          cases differs

theorem Accounted.register_again {file : CoveredFile} {path : String}
    (accounted : Accounted project session) (member : file ∈ session.files)
    (same : samePath file.path path = true) (build : Nat → Except Error CoveredFile) :
    session.register path build = (.ok file, session) := by
  rw [Session.register, accounted.file?_eq_some member same]

theorem Accounted.row_listed {file : CoveredFile} {path : String}
    (accounted : Accounted project session) (member : file ∈ session.files)
    (given : path ∈ project) (same : samePath path file.path = true) :
    ∃ entry, session.projectFiles[file.row]? = some entry ∧ samePath entry file.path = true := by
  obtain ⟨entry, listed, matching⟩ := accounted.lists.complete path given
  have suits := accounted.suits file member
  cases found : session.projectFiles.findIdx? (samePath file.path) with
  | none =>
      have differs := List.findIdx?_eq_none_iff.mp found entry listed
      rw [samePath_comm, samePath_trans matching same] at differs
      cases differs
  | some place =>
      obtain rfl := (suits_listed found).mp suits
      obtain ⟨inside, here, _⟩ := List.findIdx?_eq_some_iff_getElem.mp found
      rw [samePath_comm] at here
      exact ⟨_, List.getElem?_eq_getElem inside, here⟩

theorem Accounted.row_outside {file : CoveredFile} (accounted : Accounted project session)
    (member : file ∈ session.files)
    (outside : ∀ path ∈ project, samePath path file.path = false) :
    session.projectFiles.length ≤ file.row := by
  have missing : session.projectFiles.findIdx? (samePath file.path) = none := by
    rw [List.findIdx?_eq_none_iff]
    intro entry listed
    rw [samePath_comm]
    exact outside entry (accounted.lists.given entry listed)
  exact ((suits_outside missing).mp (accounted.suits file member)).1

theorem Accounted.file_of_row {first second : CoveredFile} (accounted : Accounted project session)
    (left : first ∈ session.files) (right : second ∈ session.files)
    (same : first.row = second.row) : first = second := by
  have rows : (session.files.map CoveredFile.row).Nodup := List.pairwise_map.mpr accounted.rows
  exact List.inj_on_of_nodup_map rows left right same

theorem Accounted.probe_inj {first second : CoveredFile} {slot other : Nat}
    (accounted : Accounted project session) (left : first ∈ session.files)
    (right : second ∈ session.files)
    (same : first.tree.allocator.probe slot = second.tree.allocator.probe other) :
    first = second ∧ slot = other := by
  have array := (accounted.array first left).trans (accounted.array second right).symm
  obtain ⟨row, slots⟩ := Probe.probe_inj array same
  exact ⟨accounted.file_of_row left right row, slots⟩

end Registry

section Histories

inductive Call where
  | source (path source : String) (program : Option Ast.Node)
  | file (volume : Volume) (path : String)
  | clear

inductive Event where
  | covered (path : String) (result : Except Error CoveredFile)
  | cleared

def serve (session : Session) : Call → Event × Session
  | .source path source program =>
      let (result, session) := session.coverSource path source program
      (.covered path result, session)
  | .file volume path =>
      let (result, session) := session.coverFile volume path
      (.covered path result, session)
  | .clear => (.cleared, session.clear)

def serveAll (session : Session) : List Call → List Event × Session
  | [] => ([], session)
  | call :: rest =>
      let (event, session) := session.serve call
      let (events, session) := session.serveAll rest
      (event :: events, session)

/-- The paths registered and their files, once an event has happened. Only a covering that
succeeds and is the first one of its path registers a path. -/
def Event.note (known : List (String × CoveredFile)) : Event → List (String × CoveredFile)
  | .covered path (.ok file) =>
      if known.any fun entry => samePath entry.1 path then known else known ++ [(path, file)]
  | .covered _ (.error _) => known
  | .cleared => []

def registered (events : List Event) : List (String × CoveredFile) :=
  events.foldl Event.note []

def entries (session : Session) : List (String × CoveredFile) :=
  session.files.map fun file => (file.path, file)

theorem entries_register {session : Session} {path : String}
    {build : Nat → Except Error CoveredFile} (keeps : KeepsTo session.config path build) :
    (session.register path build).2.entries =
      (Event.covered path (session.register path build).1).note session.entries := by
  have known : (session.entries.any fun entry => samePath entry.1 path) =
      (session.file? path).isSome := by
    rw [entries, file?, List.any_map, List.isSome_find?]
    rfl
  rcases session.register_cases path build with
    ⟨file, found, result⟩ | ⟨error, _, result⟩ | ⟨file, missing, made, result⟩
  · rw [result]
    simp only [Event.note]
    rw [known, found]
    rfl
  · rw [result]
    simp only [Event.note, entries, (session.rowOf_session path).1]
  · rw [result]
    obtain ⟨rfl, _⟩ := keeps _ _ made
    simp only [Event.note]
    rw [known, missing]
    simp [entries, append, (session.rowOf_session file.path).1]

theorem serve_cases (session : Session) (call : Call) :
    session.serve call = (.cleared, session.clear) ∨
      ∃ path build, KeepsTo session.config path build ∧
        session.serve call =
          (.covered path (session.register path build).1, (session.register path build).2) := by
  cases call with
  | source path source program => exact .inr ⟨path, _, keepsTo_coverText _ _ _ _, rfl⟩
  | file volume path => exact .inr ⟨path, _, keepsTo_load _ _ _, rfl⟩
  | clear => exact .inl rfl

theorem serve_accounted {project : List String} {session : Session}
    (accounted : Accounted project session) (call : Call) :
    Accounted project (session.serve call).2 ∧
      (session.serve call).2.entries = (session.serve call).1.note session.entries := by
  rcases session.serve_cases call with result | ⟨path, build, keeps, result⟩
  · rw [result]
    exact ⟨accounted.clear, rfl⟩
  · rw [result]
    exact ⟨accounted.register keeps, entries_register keeps⟩

theorem serveAll_accounted {project : List String} {session : Session}
    (accounted : Accounted project session) (calls : List Call) :
    Accounted project (session.serveAll calls).2 ∧
      (session.serveAll calls).2.entries =
        (session.serveAll calls).1.foldl Event.note session.entries := by
  induction calls generalizing session with
  | nil => exact ⟨accounted, rfl⟩
  | cons call rest ih =>
      obtain ⟨served, noted⟩ := serve_accounted accounted call
      have later := ih served
      rw [noted] at later
      exact later

/-- No two covered files of a session share a row, and each has the row that its path asks for. -/
structure RowsApart (project : List String) (session : Session) : Prop where
  lists : Lists project session.projectFiles
  paths : session.coveredPaths.Pairwise fun first second => samePath first second = false
  rows : session.files.Pairwise fun first second => first.row ≠ second.row
  -- covering a registered path once more, in any spelling, answers with its file
  again : ∀ file ∈ session.files, ∀ path, samePath file.path path = true →
    (∀ source program, session.coverSource path source program = (.ok file, session)) ∧
      ∀ volume, session.coverFile volume path = (.ok file, session)
  listed : ∀ file ∈ session.files, ∀ path ∈ project, samePath path file.path = true →
    ∃ entry, session.projectFiles[file.row]? = some entry ∧ samePath entry file.path = true
  outside : ∀ file ∈ session.files, (∀ path ∈ project, samePath path file.path = false) →
    session.projectFiles.length ≤ file.row
  probes : ∀ first ∈ session.files, ∀ second ∈ session.files, ∀ slot other,
    first.tree.allocator.probe slot = second.tree.allocator.probe other →
      first = second ∧ slot = other

theorem Accounted.rowsApart {project : List String} {session : Session}
    (accounted : Accounted project session) : RowsApart project session where
  lists := accounted.lists
  paths := List.pairwise_map.mpr accounted.apart
  rows := accounted.rows
  again _ member _ same :=
    ⟨fun _ _ => accounted.register_again member same _,
      fun _ => accounted.register_again member same _⟩
  listed _ member _ given same := accounted.row_listed member given same
  outside _ member outside := accounted.row_outside member outside
  probes _ left _ right _ _ same := accounted.probe_inj left right same

/-- Whatever a session over a project was asked for, its rows are apart, and it holds the files that
the calls registered, in order. -/
theorem serveAll_rowsApart (config : Config) (project : List String) (calls : List Call) :
    RowsApart project ((start config project).serveAll calls).2 ∧
      ((start config project).serveAll calls).2.coveredPaths =
        (registered ((start config project).serveAll calls).1).map Prod.fst ∧
      ((start config project).serveAll calls).2.files =
        (registered ((start config project).serveAll calls).1).map Prod.snd := by
  obtain ⟨accounted, noted⟩ := serveAll_accounted (accounted_start config project) calls
  have held : ((start config project).serveAll calls).2.entries =
      registered ((start config project).serveAll calls).1 := noted
  rw [← held]
  refine ⟨accounted.rowsApart, ?_, ?_⟩
  · rw [entries, List.map_map]
    rfl
  · rw [entries, List.map_map]
    exact (List.map_id _).symm


def twoFiles : List String := ["lib/b.rb", "lib/a.rb", "lib//b.rb"]

theorem start_twoFiles : start {} twoFiles =
    { config := {}, projectFiles := ["lib/a.rb", "lib/b.rb"], files := [], unlisted := 0 } := by
  have order : pathLE "lib/b.rb" "lib/a.rb" = false ∧ pathLE "lib/a.rb" "lib//b.rb" = true ∧
      pathLE "lib/b.rb" "lib//b.rb" = true := by
    decide +kernel
  have same : samePath "lib/a.rb" "lib/b.rb" = false ∧ samePath "lib/b.rb" "lib//b.rb" = true := by
    decide +kernel
  simp [start, twoFiles, List.mergeSort, List.MergeSort.Internal.splitInTwo, dedup, dedupFrom, order,
    same]

/-- Calls for files in the project and outside of it. The second one fails, and the fourth one repeats
the third. -/
def mixedCalls : List Call :=
  [.source "x.rb" "" none, .file ⟨.directory [], []⟩ "y.rb", .source "lib/b.rb" "" none,
    .source "lib//b.rb" "1" none, .source "z.rb" "" none]

theorem serveAll_rowsApart_mixed :
    ((start {} twoFiles).serveAll mixedCalls).2.files.map (fun file => (file.path, file.row)) =
        [("x.rb", 2), ("lib/b.rb", 1), ("z.rb", 4)] ∧
      (registered ((start {} twoFiles).serveAll mixedCalls).1).map Prod.fst =
        ["x.rb", "lib/b.rb", "z.rb"] ∧
      RowsApart twoFiles ((start {} twoFiles).serveAll mixedCalls).2 := by
  obtain ⟨apart, paths, _⟩ := serveAll_rowsApart {} twoFiles mixedCalls
  refine ⟨?_, ?_, apart⟩
  · rw [start_twoFiles]
    decide +kernel
  · rw [← paths, start_twoFiles]
    decide +kernel

end Histories

end Session

end ProbeCoverage
