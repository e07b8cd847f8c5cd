import ProbeCoverage.Proofs.Ast.Reading

/-!
Dumps as they are printed. A node is its tag and its children in parentheses; every child has blanks
in front of it, and the closing parenthesis may have some. Whatever the blanks are, the reader gets
the tree back: words and tags end where a delimiter follows, and strings undo their escapes.
-/

namespace ProbeCoverage.Ast.Dump

open Text (byteCount isBlank)

def escaped (c : Char) : List Char :=
  if c = '"' ∨ c = '\\' then ['\\', c] else [c]

def writeAtom : Atom → List Char
  | .text value => '"' :: (value.toList.flatMap escaped ++ ['"'])
  | atom => atom.display.toList

mutual

/-- The texts of a node, which differ in their blanks. -/
inductive Written : Node → List Char → Prop
  | node {tag : String} {children : List Child} {location : Option Span} {body gap : List Char} :
      AllWritten children body → Blanks gap →
        Written (.mk tag children location) ('(' :: (tag.toList ++ (body ++ (gap ++ [')']))))

inductive AllWritten : List Child → List Char → Prop
  | nil : AllWritten [] []
  | node {node : Node} {rest : List Child} {gap text more : List Char} :
      Blanks gap → gap ≠ [] → Written node text → AllWritten rest more →
        AllWritten (.node node :: rest) (gap ++ (text ++ more))
  | atom {atom : Atom} {rest : List Child} {gap more : List Char} :
      Blanks gap → gap ≠ [] → AllWritten rest more →
        AllWritten (.atom atom :: rest) (gap ++ (writeAtom atom ++ more))

end

def isTag (tag : String) : Bool :=
  !tag.toList.isEmpty && tag.toList.all fun c => !isDelimiter c

def isPlainAtom : Atom → Bool
  | .float _ => false
  | .int value => Decimal.fitsInt64 value
  | _ => true

mutual

/-- Whether a tree has no locations and only tags and atoms that a dump can show. -/
def isPlain : Node → Bool
  | .mk tag children location => isTag tag && location.isNone && allPlain children

def allPlain : List Child → Bool
  | [] => true
  | .node node :: rest => isPlain node && allPlain rest
  | .atom atom :: rest => isPlainAtom atom && allPlain rest

end

section Delimiters

def Delimited (text : List Char) : Prop :=
  ∃ c rest, text = c :: rest ∧ isDelimiter c = true

variable {gap rest : List Char}

theorem isDelimiter_of_isBlank {c : Char} (blank : isBlank c = true) : isDelimiter c = true := by
  simp [isDelimiter, blank]

theorem delimited_gap (blank : Blanks gap) (some : gap ≠ []) (rest : List Char) :
    Delimited (gap ++ rest) := by
  cases gap with
  | nil => exact absurd rfl some
  | cons c gap =>
      exact ⟨c, gap ++ rest, rfl, isDelimiter_of_isBlank (blank c List.mem_cons_self)⟩

theorem delimited_blanks (blank : Blanks gap) (follows : Delimited rest) :
    Delimited (gap ++ rest) := by
  by_cases empty : gap = []
  · subst empty
    exact follows
  · exact delimited_gap blank empty rest

theorem delimited_children {children : List Child} {body : List Char}
    (written : AllWritten children body) (follows : Delimited rest) : Delimited (body ++ rest) := by
  cases written with
  | nil => exact follows
  | node blank some _ _ | atom blank some _ =>
      rw [List.append_assoc]
      exact delimited_gap blank some _

end Delimiters

section Words

variable {offset start : Nat} {frames : List Frame} {read word rest : List Char}

theorem run_letters {mode : List Char → Mode}
    (collects : ∀ offset read c, isDelimiter c = false →
      advance offset (mode read) frames c = .ok (mode (c :: read), frames))
    (free : ∀ c ∈ word, isDelimiter c = false) (rest : List Char) :
    run ⟨offset, mode read, frames⟩ (word ++ rest) =
      run ⟨offset + byteCount word, mode (word.reverse ++ read), frames⟩ rest := by
  induction word generalizing offset read with
  | nil => rfl
  | cons c word ih =>
      simp only [List.forall_mem_cons] at free
      rw [List.cons_append, run_advance (collects offset read c free.1), ih free.2, byteCount,
        Nat.add_assoc, List.reverse_cons, List.append_assoc, List.singleton_append]

theorem run_congr {mode other : Mode} {first second : List Frame} {c : Char}
    (same : advance offset mode first c = advance offset other second c) (rest : List Char) :
    run ⟨offset, mode, first⟩ (c :: rest) = run ⟨offset, other, second⟩ (c :: rest) := by
  simp only [run, step, same]

theorem run_tag_end (some : read ≠ []) (follows : Delimited rest) :
    run ⟨offset, .tag read, frames⟩ rest =
      run ⟨offset, .gap, ⟨textOf read, []⟩ :: frames⟩ rest := by
  obtain ⟨c, rest, rfl, ends⟩ := follows
  apply run_congr
  simp [advance, ends, some]

theorem run_word_end (follows : Delimited rest) :
    run ⟨offset, .word read, frames⟩ rest =
      run ⟨offset, .gap, addChild (.atom (atomOfWord (textOf read))) frames⟩ rest := by
  obtain ⟨c, rest, rfl, ends⟩ := follows
  apply run_congr
  simp [advance, ends]

theorem run_word {c : Char} (free : ∀ d ∈ c :: word, isDelimiter d = false) (plain : c ≠ ':')
    (follows : Delimited rest) :
    run ⟨offset, .gap, frames⟩ (c :: word ++ rest) =
      run ⟨offset + byteCount (c :: word), .gap,
        addChild (.atom (atomOfWord (String.ofList (c :: word)))) frames⟩ rest := by
  simp only [List.forall_mem_cons] at free
  have first : advance offset .gap frames c = .ok (.word [c], frames) := by
    have other := free.1
    simp only [isDelimiter, Bool.or_eq_false_iff] at other
    simp [advance, enter, other, plain]
  have collects (offset : Nat) (read : List Char) (c : Char) (letter : isDelimiter c = false) :
      advance offset (.word read) frames c = .ok (.word (c :: read), frames) := by
    simp [advance, letter]
  rw [List.cons_append, run_advance first, run_letters collects free.2, run_word_end follows,
    textOf]
  simp [byteCount, Nat.add_assoc]

theorem run_string (text rest : List Char) :
    run ⟨offset, .string start read, frames⟩ (text.flatMap escaped ++ rest) =
      run ⟨offset + byteCount (text.flatMap escaped), .string start (text.reverse ++ read), frames⟩
        rest := by
  induction text generalizing offset read with
  | nil => rfl
  | cons c text ih =>
      rw [List.flatMap_cons, List.append_assoc, escaped]
      by_cases special : c = '"' ∨ c = '\\'
      · have opens : advance offset (.string start read) frames '\\' =
            .ok (.escape start read, frames) := rfl
        have closes : advance (offset + '\\'.utf8Size) (.escape start read) frames c =
            .ok (.string start (c :: read), frames) := by
          rcases special with rfl | rfl <;> rfl
        rw [if_pos special, List.cons_append, run_advance opens, List.singleton_append,
          run_advance closes, ih]
        simp [byteCount, Nat.add_assoc]
      · have keeps : advance offset (.string start read) frames c =
            .ok (.string start (c :: read), frames) := by
          simp only [not_or] at special
          simp [advance, special]
        rw [if_neg special, List.singleton_append, run_advance keeps, ih]
        simp [byteCount, Nat.add_assoc]

end Words

section Numbers

theorem takeSign_digits (number : Nat) :
    Decimal.takeSign (Nat.toDigits 10 number) = (false, Nat.toDigits 10 number) := by
  have all : ∀ digit ∈ Nat.toDigits 10 number, digit.isDigit = true := fun _ member =>
    Nat.isDigit_of_mem_toDigits (by decide) (by decide) member
  generalize Nat.toDigits 10 number = digits at all
  unfold Decimal.takeSign
  split
  · exact absurd (all '-' List.mem_cons_self) (by decide)
  · exact absurd (all '+' List.mem_cons_self) (by decide)
  · rfl

theorem readInt_signed {word : List Char} {negative : Bool} {number : Nat} {value : Int}
    (sign : Decimal.takeSign word = (negative, Nat.toDigits 10 number))
    (signed : value = if negative then -(number : Int) else number)
    (fits : Decimal.fitsInt64 value = true) : Decimal.readInt word = some value := by
  have all : (Nat.toDigits 10 number).all Char.isDigit = true :=
    List.all_eq_true.mpr fun _ member =>
      Nat.isDigit_of_mem_toDigits (by decide) (by decide) member
  have magnitude : Decimal.foldDigits 0 (Nat.toDigits 10 number) = number :=
    Nat.ofDigitChars_ten_toDigits
  subst signed
  simp [Decimal.readInt, sign, all, magnitude, fits]

theorem toList_negSucc (number : Nat) :
    (toString (Int.negSucc number)).toList = '-' :: Nat.toDigits 10 (number + 1) := by
  have digits := @Nat.toString_eq_ofList_toDigits (number + 1)
  rw [show toString (Int.negSucc number) = "-" ++ toString (number + 1) from rfl, digits]
  simp

theorem toList_ofNat (number : Nat) :
    (toString (Int.ofNat number)).toList = Nat.toDigits 10 number := by
  rw [show toString (Int.ofNat number) = toString number from rfl,
    Nat.toString_eq_ofList_toDigits, String.toList_ofList]

theorem readInt_toString {value : Int} (fits : Decimal.fitsInt64 value = true) :
    Decimal.readInt (toString value).toList = some value := by
  cases value with
  | ofNat number =>
      rw [toList_ofNat]
      exact readInt_signed (takeSign_digits number) rfl fits
  | negSucc number =>
      rw [toList_negSucc]
      exact readInt_signed rfl (by simp; omega) fits

theorem mem_toString {value : Int} {c : Char} (member : c ∈ (toString value).toList) :
    c = '-' ∨ c.isDigit = true := by
  cases value with
  | ofNat number =>
      rw [toList_ofNat] at member
      exact .inr (Nat.isDigit_of_mem_toDigits (by decide) (by decide) member)
  | negSucc number =>
      rw [toList_negSucc] at member
      rcases List.mem_cons.mp member with rfl | digit
      · exact .inl rfl
      · exact .inr (Nat.isDigit_of_mem_toDigits (by decide) (by decide) digit)

theorem toString_ne_nil (value : Int) : (toString value).toList ≠ [] := by
  cases value with
  | ofNat number =>
      rw [toList_ofNat]
      exact Nat.toDigits_ne_nil
  | negSucc number =>
      rw [toList_negSucc]
      exact List.cons_ne_nil _ _

theorem isDelimiter_of_number {c : Char} (number : c = '-' ∨ c.isDigit = true) :
    isDelimiter c = false ∧ c ≠ ':' := by
  rcases number with rfl | digit
  · decide
  · simp only [Char.isDigit, Bool.and_eq_true, decide_eq_true_eq, ge_iff_le,
      UInt32.le_iff_toNat_le] at digit
    have low : 48 ≤ c.toNat := digit.1
    have high : c.toNat ≤ 57 := digit.2
    have other (d : Char) (outside : d.toNat < 48 ∨ 57 < d.toNat) : c ≠ d := by
      rintro rfl
      omega
    have ink : isBlank c = false := by
      simp only [isBlank, Bool.or_eq_false_iff, Bool.and_eq_false_iff, decide_eq_false_iff_not,
        beq_eq_false_iff_ne]
      omega
    simp [isDelimiter, ink, other '(' (by decide), other ')' (by decide), other '"' (by decide),
      other ':' (by decide)]

theorem atomOfWord_int {value : Int} (fits : Decimal.fitsInt64 value = true) :
    atomOfWord (toString value) = .int value := by
  have letters {c : Char} (member : c ∈ (toString value).toList) := mem_toString member
  have number := readInt_toString fits
  generalize toString value = word at letters number
  unfold atomOfWord
  -- a keyword has a letter that no number has
  split
  · exact absurd (@letters 'n' (by decide)) (by decide)
  · exact absurd (@letters 't' (by decide)) (by decide)
  · exact absurd (@letters 'f' (by decide)) (by decide)
  · rw [number]

end Numbers

section Trees

variable {offset : Nat} {frames : List Frame} {rest : List Char}

theorem run_atom {atom : Atom} (plain : isPlainAtom atom = true) (follows : Delimited rest) :
    run ⟨offset, .gap, frames⟩ (writeAtom atom ++ rest) =
      run ⟨offset + byteCount (writeAtom atom), .gap, addChild (.atom atom) frames⟩ rest := by
  cases atom with
  | nil =>
      have letters : ∀ c ∈ ['n', 'i', 'l'], isDelimiter c = false := by simp [isDelimiter, isBlank]
      exact run_word letters (by decide) follows
  | bool value =>
      cases value with
      | true =>
          have letters : ∀ c ∈ ['t', 'r', 'u', 'e'], isDelimiter c = false := by
            simp [isDelimiter, isBlank]
          exact run_word letters (by decide) follows
      | false =>
          have letters : ∀ c ∈ ['f', 'a', 'l', 's', 'e'], isDelimiter c = false := by
            simp [isDelimiter, isBlank]
          exact run_word letters (by decide) follows
  | float value => cases plain
  | int value =>
      change run ⟨offset, .gap, frames⟩ ((toString value).toList ++ rest) =
        run ⟨offset + byteCount (toString value).toList, .gap, _⟩ rest
      have letters {c : Char} (member : c ∈ (toString value).toList) :=
        isDelimiter_of_number (mem_toString member)
      obtain ⟨c, word, same⟩ := List.exists_cons_of_ne_nil (toString_ne_nil value)
      have spelled : String.ofList (c :: word) = toString value := by
        rw [← same, String.ofList_toList]
      rw [same] at letters ⊢
      rw [run_word (fun d member => (letters member).1) (letters List.mem_cons_self).2 follows,
        spelled, atomOfWord_int plain]
  | text value =>
      have opens : advance offset .gap frames '"' = .ok (.string offset [], frames) := rfl
      have closes (offset start : Nat) (read : List Char) :
          advance offset (.string start read) frames '"' =
            .ok (.gap, addChild (.atom (.text (textOf read))) frames) := rfl
      rw [writeAtom, List.cons_append, run_advance opens, List.append_assoc, run_string,
        List.singleton_append, run_advance (closes _ _ _)]
      simp [textOf, byteCount, Nat.add_assoc]

theorem eq_of_plain {node : Node} (plain : isPlain node = true) :
    .mk node.tag node.children none = node := by
  obtain ⟨tag, children, location⟩ := node
  simp only [isPlain, Bool.and_eq_true, Option.isNone_iff_eq_none] at plain
  rw [plain.1.2]
  rfl

theorem closeFrame_plain {node : Node} (plain : isPlain node = true) (outer : Frame)
    (frames : List Frame) :
    closeFrame (⟨node.tag, node.children.reverse⟩ :: outer :: frames) =
      (.gap, ⟨outer.tag, .node node :: outer.children⟩ :: frames) := by
  simp [closeFrame, addChild, eq_of_plain plain]

mutual

theorem run_node : (node : Node) → isPlain node = true → ∀ {text : List Char}, Written node text →
    ∃ inside, text = '(' :: inside ∧ ∀ offset frames rest,
      run ⟨offset, .tag [], frames⟩ (inside ++ rest) =
        run ⟨offset + byteCount inside,
          (closeFrame (⟨node.tag, node.children.reverse⟩ :: frames)).1,
          (closeFrame (⟨node.tag, node.children.reverse⟩ :: frames)).2⟩ rest
  | .mk tag children location => by
      intro plain text written
      cases written with
      | @node _ _ _ body gap inner blank =>
          simp only [isPlain, isTag, Bool.and_eq_true, Bool.not_eq_true', List.isEmpty_eq_false_iff,
            List.all_eq_true] at plain
          obtain ⟨⟨⟨some, free⟩, _⟩, below⟩ := plain
          -- the parenthesis is read outside, since the outermost node has no gap in front of it
          refine ⟨_, rfl, fun offset frames rest => ?_⟩
          have collects (offset : Nat) (read : List Char) (c : Char)
              (letter : isDelimiter c = false) :
              advance offset (.tag read) frames c = .ok (.tag (c :: read), frames) := by
            simp [advance, letter]
          have closes (offset : Nat) (frames : List Frame) :
              advance offset .gap frames ')' = .ok (closeFrame frames) := rfl
          have ends : Delimited (gap ++ ')' :: rest) :=
            delimited_blanks blank ⟨')', rest, rfl, rfl⟩
          simp only [List.append_assoc, List.singleton_append]
          rw [run_letters collects free,
            run_tag_end (by simpa using some) (delimited_children inner ends),
            run_children children below inner ends, run_blanks rfl blank, run_advance (closes _ _)]
          simp [Node.tag, Node.children, textOf, byteCount, Nat.add_assoc]

theorem run_children : (children : List Child) → allPlain children = true →
    ∀ {text : List Char}, AllWritten children text → ∀ {offset tag done frames rest},
      Delimited rest →
        run ⟨offset, .gap, ⟨tag, done⟩ :: frames⟩ (text ++ rest) =
          run ⟨offset + byteCount text, .gap, ⟨tag, children.reverse ++ done⟩ :: frames⟩ rest
  | [] => by
      intro _ text written offset tag done frames rest _
      cases written
      rfl
  | .node node :: children => by
      intro plain text written offset tag done frames rest follows
      rw [allPlain, Bool.and_eq_true] at plain
      cases written with
      | @node _ _ gap _ more blank _ inner others =>
          obtain ⟨inside, rfl, reads⟩ := run_node node plain.1 inner
          have opens (offset : Nat) (frames : List Frame) :
              advance offset .gap frames '(' = .ok (.tag [], frames) := rfl
          have closed := closeFrame_plain plain.1 ⟨tag, done⟩ frames
          simp only [List.append_assoc, List.cons_append]
          rw [run_blanks rfl blank, run_advance (opens _ _), reads, closed,
            run_children children plain.2 others follows]
          simp [byteCount, Nat.add_assoc]
  | .atom atom :: children => by
      intro plain text written offset tag done frames rest follows
      rw [allPlain, Bool.and_eq_true] at plain
      cases written with
      | @atom _ _ gap more blank _ others =>
          have added : addChild (.atom atom) (⟨tag, done⟩ :: frames) =
              ⟨tag, .atom atom :: done⟩ :: frames := rfl
          simp only [List.append_assoc]
          rw [run_blanks rfl blank, run_atom plain.1 (delimited_children others follows), added,
            run_children children plain.2 others follows]
          simp [Nat.add_assoc]

end

end Trees

mutual

theorem exists_written : (node : Node) → ∃ text, Written node text
  | .mk _ children _ => by
      obtain ⟨body, written⟩ := exists_allWritten children
      exact ⟨_, .node written (List.forall_mem_nil _)⟩

theorem exists_allWritten : (children : List Child) → ∃ text, AllWritten children text
  | [] => ⟨[], .nil⟩
  | .node node :: rest => by
      obtain ⟨text, inner⟩ := exists_written node
      obtain ⟨more, others⟩ := exists_allWritten rest
      have space : Blanks [' '] := by decide
      exact ⟨_, .node space (List.cons_ne_nil _ _) inner others⟩
  | .atom atom :: rest => by
      obtain ⟨more, others⟩ := exists_allWritten rest
      have space : Blanks [' '] := by decide
      exact ⟨_, .atom space (List.cons_ne_nil _ _) others⟩

end

/-- Every tree that a dump can show has printed texts, and each of them reads back as the tree. -/
theorem read_written {node : Node} (plain : isPlain node = true) :
    (∃ text, Written node text) ∧
    ∀ (dump : String) (text front back : List Char), Written node text → Blanks front →
      Blanks back → dump.toList = front ++ (text ++ back) → read dump = .ok node := by
  refine ⟨exists_written node, ?_⟩
  intro dump text front back written leading trailing spelled
  obtain ⟨inside, rfl, reads⟩ := run_node node plain written
  have closed : closeFrame [⟨node.tag, node.children.reverse⟩] = (.done node, []) := by
    simp [closeFrame, eq_of_plain plain]
  have blank : back.all isBlank = true := List.all_eq_true.mpr trailing
  rw [read, spelled, initial, run_blanks rfl leading, List.cons_append,
    run_advance (advance_opens _ _), reads, closed, run_done, if_pos blank]
  rfl

def spokenCall : Node :=
  .mk "send"
    [.atom .nil, .atom (.text "say \"\\"), .node (.mk "int" [.atom (.int (-3))] none)] none

theorem read_written_call :
    isPlain spokenCall = true ∧
    (∃ text, Written spokenCall text ∧
      "\t(send nil\n\"say \\\"\\\\\" \t(int -3 ))\n".toList = ['\t'] ++ (text ++ ['\n'])) ∧
    read "\t(send nil\n\"say \\\"\\\\\" \t(int -3 ))\n" = .ok spokenCall := by
  have space : Blanks [' '] := by decide
  have feed : Blanks ['\n'] := by decide
  have wide : Blanks [' ', '\t'] := by decide
  have number : Written (.mk "int" [.atom (.int (-3))] none) "(int -3 )".toList :=
    .node (.atom space (by decide) .nil) space
  have written : Written spokenCall "(send nil\n\"say \\\"\\\\\" \t(int -3 ))".toList :=
    .node (.atom space (by decide) (.atom feed (by decide) (.node wide (by decide) number .nil)))
      (List.forall_mem_nil _)
  exact ⟨by decide, ⟨_, written, rfl⟩,
    (read_written (by decide)).2 _ _ ['\t'] ['\n'] written (by decide) (by decide) rfl⟩

end ProbeCoverage.Ast.Dump
