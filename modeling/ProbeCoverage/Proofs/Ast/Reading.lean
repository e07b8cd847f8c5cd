import ProbeCoverage.Ast.Dump
import ProbeCoverage.Proofs.Text.Cutting

/-!
Runs of the dump reader. Reading stops for good only where the outermost node is closed: before
that the end of input is an error, and behind it only blanks may follow. A character is unexpected
only in front of the outermost node.
-/

namespace ProbeCoverage.Ast.Dump

open Text (byteCount isBlank)

def Blanks (text : List Char) : Prop :=
  ∀ c ∈ text, isBlank c = true

instance (text : List Char) : Decidable (Blanks text) :=
  List.decidableBAll _ _

section Runs

variable {offset : Nat} {mode : Mode} {frames : List Frame} {c : Char} {rest : List Char}
variable {state next : State} {error : Error}

theorem run_advance {moved : Mode × List Frame} (moves : advance offset mode frames c = .ok moved)
    (rest : List Char) :
    run ⟨offset, mode, frames⟩ (c :: rest) =
      run ⟨offset + c.utf8Size, moved.1, moved.2⟩ rest := by
  simp only [run, step, moves, Except.map]

theorem run_stuck (stuck : advance offset mode frames c = .error error) (rest : List Char) :
    run ⟨offset, mode, frames⟩ (c :: rest) = .error error := by
  simp only [run, step, stuck, Except.map]

theorem run_append (state : State) (first second : List Char) :
    run state (first ++ second) = (run state first).bind fun next => run next second := by
  induction first generalizing state with
  | nil => rfl
  | cons c first ih =>
      rw [List.cons_append, run, run]
      cases step state c with
      | error error => rfl
      | ok next => exact ih next

theorem run_ok_append {first second : List Char} (reads : run state (first ++ second) = .ok next) :
    ∃ middle, run state first = .ok middle ∧ run middle second = .ok next := by
  rw [run_append] at reads
  cases front : run state first with
  | error error => simp [front, Except.bind] at reads
  | ok middle => exact ⟨middle, rfl, by simpa [front, Except.bind] using reads⟩

theorem run_offset {text : List Char} (reads : run state text = .ok next) :
    next.offset = state.offset + byteCount text := by
  induction text generalizing state with
  | nil =>
      obtain rfl := Except.ok.inj reads
      rfl
  | cons c text ih =>
      obtain ⟨offset, mode, frames⟩ := state
      cases moves : advance offset mode frames c with
      | error error => simp [run_stuck moves] at reads
      | ok moved =>
          rw [run_advance moves] at reads
          rw [ih reads, byteCount, Nat.add_assoc]

def Mode.idle : Mode → Bool
  | .before | .gap | .done _ => true
  | _ => false

theorem advance_blank (offset : Nat) (frames : List Frame) (idle : mode.idle = true)
    (blank : isBlank c = true) : advance offset mode frames c = .ok (mode, frames) := by
  cases mode with
  | before | gap | done node => simp [advance, enter, blank]
  | tag | word | symbol | string | escape => cases idle

theorem run_blanks {blanks : List Char} (idle : mode.idle = true) (blank : Blanks blanks)
    (rest : List Char) :
    run ⟨offset, mode, frames⟩ (blanks ++ rest) =
      run ⟨offset + byteCount blanks, mode, frames⟩ rest := by
  induction blanks generalizing offset with
  | nil => rfl
  | cons c blanks ih =>
      have first := advance_blank offset frames idle (blank c List.mem_cons_self)
      have others : Blanks blanks := fun d member => blank d (List.mem_cons_of_mem c member)
      rw [List.cons_append, run_advance first, ih others, byteCount, Nat.add_assoc]

end Runs

section Ends

variable {offset : Nat} {frames : List Frame} {node : Node} {state : State}

theorem finish_eq_ok : finish state = .ok node ↔ state.mode = .done node := by
  unfold finish
  split <;> simp_all

theorem finish_of_open (unfinished : ∀ node, state.mode ≠ .done node) :
    finish state = .error .unexpectedEnd ∨ finish state = .error (.missingTag 0) ∨
      ∃ start, finish state = .error (.unterminatedString start) := by
  unfold finish
  split
  · rename_i node done
    exact absurd done (unfinished node)
  · exact .inr (.inl rfl)
  · exact .inr (.inr ⟨_, rfl⟩)
  · exact .inr (.inr ⟨_, rfl⟩)
  · exact .inl rfl

theorem run_done (text : List Char) :
    run ⟨offset, .done node, frames⟩ text =
      if text.all isBlank then .ok ⟨offset + byteCount text, .done node, frames⟩
      else .error (.trailingInput (offset + byteCount (text.takeWhile isBlank))) := by
  induction text generalizing offset with
  | nil => rfl
  | cons c text ih =>
      by_cases blank : isBlank c = true
      · rw [run_advance (advance_blank offset frames rfl blank), ih]
        simp [blank, byteCount, Nat.add_assoc]
      · have stuck : advance offset (.done node) frames c = .error (.trailingInput offset) := by
          simp [advance, blank]
        rw [run_stuck stuck]
        simp [blank]

theorem read_eq_ok {dump : String} : read dump = .ok node ↔
    ∃ frames, run initial dump.toList = .ok ⟨byteCount dump.toList, .done node, frames⟩ := by
  unfold read
  cases reads : run initial dump.toList with
  | error error => simp
  | ok state =>
      have size := run_offset reads
      rw [initial, Nat.zero_add] at size
      obtain ⟨offset, mode, frames⟩ := state
      simp only at size
      subst size
      simp [finish_eq_ok]

end Ends

section Unexpected

variable {offset : Nat} {mode : Mode} {frames : List Frame} {c found : Char} {place : Nat}

def Mode.opened : Mode → Bool
  | .before => false
  | _ => true

theorem enter_opened (offset : Nat) (frames : List Frame) (c : Char) :
    (enter offset frames c).1.opened = true := by
  unfold enter closeFrame
  split
  · rfl
  · split
    · split <;> rfl
    · split
      · rfl
      · split
        · rfl
        · split <;> rfl

/-- Once the outermost node is opened, it stays so and no character is unexpected. -/
theorem advance_opened (offset : Nat) (frames : List Frame) (c : Char)
    (opened : mode.opened = true) :
    (∃ moved, advance offset mode frames c = .ok moved ∧ moved.1.opened = true) ∨
      (∃ place, advance offset mode frames c = .error (.missingTag place)) ∨
      ∃ place, advance offset mode frames c = .error (.trailingInput place) := by
  unfold advance
  cases mode with
  | before => cases opened
  | tag read =>
      simp only
      split
      · split
        · exact .inr (.inl ⟨_, rfl⟩)
        · exact .inl ⟨_, rfl, enter_opened _ _ _⟩
      · exact .inl ⟨_, rfl, rfl⟩
  | gap => exact .inl ⟨_, rfl, enter_opened _ _ _⟩
  | word read | symbol read =>
      simp only
      split
      · exact .inl ⟨_, rfl, enter_opened _ _ _⟩
      · exact .inl ⟨_, rfl, rfl⟩
  | string start read =>
      simp only
      split
      · exact .inl ⟨_, rfl, rfl⟩
      · split
        · exact .inl ⟨_, rfl, rfl⟩
        · exact .inl ⟨_, rfl, rfl⟩
  | escape start read => exact .inl ⟨_, rfl, rfl⟩
  | done node =>
      simp only
      split
      · exact .inl ⟨_, rfl, rfl⟩
      · exact .inr (.inr ⟨_, rfl⟩)

theorem run_opened (opened : mode.opened = true) (text : List Char) :
    run ⟨offset, mode, frames⟩ text ≠ .error (.unexpected found place) := by
  induction text generalizing offset mode frames with
  | nil => exact fun failed => by cases failed
  | cons c text ih =>
      rcases advance_opened offset frames c opened with
        ⟨moved, moves, still⟩ | ⟨_, stuck⟩ | ⟨_, stuck⟩
      · rw [run_advance moves]
        exact ih still
      · simp [run_stuck stuck]
      · simp [run_stuck stuck]

theorem advance_opens (offset : Nat) (frames : List Frame) :
    advance offset .before frames '(' = .ok (.tag [], frames) := rfl

theorem advance_unexpected (offset : Nat) (frames : List Frame) (ink : isBlank c = false)
    (other : c ≠ '(') : advance offset .before frames c = .error (.unexpected c offset) := by
  simp [advance, ink, other]

theorem read_eq_unexpected {dump : String} :
    read dump = .error (.unexpected found place) ↔
      ∃ blanks rest, dump.toList = blanks ++ found :: rest ∧ Blanks blanks ∧
        isBlank found = false ∧ found ≠ '(' ∧ place = byteCount blanks := by
  have finished (state : State) : finish state ≠ .error (.unexpected found place) := by
    unfold finish
    split <;> simp
  have front : Blanks (dump.toList.takeWhile isBlank) := List.all_eq_true.mp List.all_takeWhile
  constructor
  · intro failed
    have split := List.takeWhile_append_dropWhile (p := isBlank) (l := dump.toList)
    unfold read at failed
    rw [← split, initial, run_blanks rfl front, Nat.zero_add] at failed
    cases behind : dump.toList.dropWhile isBlank with
    | nil =>
        rw [behind] at failed
        exact absurd failed (finished _)
    | cons c rest =>
        have ink : isBlank c = false := by
          have head := List.head?_dropWhile_not isBlank dump.toList
          simpa [behind] using head
        rw [behind] at failed split
        by_cases opens : c = '('
        · subst opens
          rw [run_advance (advance_opens _ _)] at failed
          split at failed
          · rename_i error reads
            obtain rfl := Except.error.inj failed
            exact absurd reads (run_opened rfl rest)
          · exact absurd failed (finished _)
        · rw [run_stuck (advance_unexpected _ _ ink opens)] at failed
          obtain ⟨rfl, rfl⟩ : c = found ∧ _ = place := by simpa using failed
          exact ⟨_, rest, split.symm, front, ink, opens, rfl⟩
  · rintro ⟨blanks, rest, split, blank, ink, other, rfl⟩
    rw [read, split, initial, run_blanks rfl blank, run_stuck (advance_unexpected _ _ ink other),
      Nat.zero_add]

end Unexpected

/-- A dump that can be read is read only as a whole. Cut off before its last closing parenthesis, it
is found to be incomplete, and whatever is added to it is either blank or found to be trailing. No
character is unexpected but the first one that is not blank, and that only if it opens no node. -/
theorem cut_or_extended_dump :
    (∀ dump node, read dump = .ok node →
      (∀ front back, dump = front ++ back → ')' ∈ back.toList →
        read front = .error .unexpectedEnd ∨
          (∃ offset, read front = .error (.missingTag offset)) ∨
          ∃ offset, read front = .error (.unterminatedString offset)) ∧
      ∀ more, read (dump ++ more) =
        if more.toList.all isBlank then .ok node
        else .error (.trailingInput (byteCount (dump.toList ++ more.toList.takeWhile isBlank)))) ∧
    ∀ dump found offset, read dump = .error (.unexpected found offset) ↔
      ∃ blanks rest, dump.toList = blanks ++ found :: rest ∧ Blanks blanks ∧
        isBlank found = false ∧ found ≠ '(' ∧ offset = byteCount blanks := by
  refine ⟨fun dump node done => ?_, fun dump found offset => read_eq_unexpected⟩
  obtain ⟨frames, reads⟩ := read_eq_ok.mp done
  constructor
  · rintro front back rfl closes
    rw [String.toList_append] at reads
    obtain ⟨middle, front, behind⟩ := run_ok_append reads
    -- had the node been closed by then, only blanks could follow, and a parenthesis does
    have unfinished (node : Node) : middle.mode ≠ .done node := by
      intro early
      obtain ⟨offset, mode, frames⟩ := middle
      obtain rfl : mode = .done node := early
      rw [run_done] at behind
      split at behind
      · rename_i blank
        exact absurd (List.all_eq_true.mp blank _ closes) (by decide)
      · cases behind
    have ends := finish_of_open unfinished
    simp only [read, front]
    rcases ends with ends | ends | ⟨start, ends⟩
    · exact .inl ends
    · exact .inr (.inl ⟨0, ends⟩)
    · exact .inr (.inr ⟨start, ends⟩)
  · intro more
    rw [read, String.toList_append, run_append, reads, Except.bind, run_done,
      ← Text.byteCount_append, ← Text.byteCount_append]
    by_cases blank : more.toList.all isBlank = true
    · rw [if_pos blank, if_pos blank]
      rfl
    · rw [if_neg blank, if_neg blank]

def quotingDump : String := "(str \"a)\\\"\" :b)"

theorem cut_or_extended_dump_string :
    read quotingDump = .ok (.mk "str" [.atom (.text "a)\""), .atom (.text "b")] none) ∧
    (read "(str \"a)\\" = .error .unexpectedEnd ∨
      (∃ offset, read "(str \"a)\\" = .error (.missingTag offset)) ∨
      ∃ offset, read "(str \"a)\\" = .error (.unterminatedString offset)) ∧
    read (quotingDump ++ " \n)") = .error (.trailingInput 17) := by
  have reads : read quotingDump =
      .ok (.mk "str" [.atom (.text "a)\""), .atom (.text "b")] none) := rfl
  obtain ⟨cut, extended⟩ := cut_or_extended_dump.1 _ _ reads
  exact ⟨reads, cut "(str \"a)\\" "\"\" :b)" (by decide) (by decide), extended " \n)"⟩

end ProbeCoverage.Ast.Dump
