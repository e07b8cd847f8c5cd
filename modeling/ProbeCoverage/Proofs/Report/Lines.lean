import Mathlib.Data.List.TakeWhile
import ProbeCoverage.Proofs.Coverage.Bytes
import ProbeCoverage.Proofs.Text.Lines
import ProbeCoverage.Report.Annotated

/-!
Missed bytes on their lines. A report looks for lines with a missed byte by counting newlines as it
walks over the bytes, an annotated text takes the bytes off line by line, and a span counts the
newlines before its ends. All three put every byte on the same line.
-/

namespace ProbeCoverage.Coverage

open Text (byteCount lineStart OnLine)
open Probe (Hits)

def MissedAt (lines : List (List Char)) (states : List ByteState) (index column : Nat) : Prop :=
  ∃ line, lines[index]? = some line ∧ column < byteCount line ∧
    states[lineStart lines index + column]? = some .missed

section Missing

variable {line : List Char} {rest : List (List Char)} {row later : List ByteState}
variable {state : ByteState} {index column number found : Nat} {listed : Bool}
variable {pairs behind : List (UInt8 × ByteState)}

theorem missedAt_first (size : row.length = byteCount line) :
    MissedAt (line :: rest) (row ++ later) 0 column ↔ row[column]? = some .missed := by
  simp only [MissedAt, lineStart, List.getElem?_cons_zero, Nat.zero_add, Option.some.injEq]
  constructor
  · rintro ⟨_, rfl, inside, missed⟩
    rwa [List.getElem?_append_left (by omega)] at missed
  · intro missed
    have inside := (List.getElem?_eq_some_iff.mp missed).1
    exact ⟨line, rfl, by omega, by rwa [List.getElem?_append_left inside]⟩

theorem missedAt_behind (size : row.length = byteCount line) :
    MissedAt (line :: rest) (row ++ state :: later) (index + 1) column ↔
      MissedAt rest later index column := by
  have shift (offset : Nat) : (row ++ state :: later)[byteCount line + 1 + offset]? =
      later[offset]? := by
    rw [← size, Nat.add_assoc, List.getElem?_append_right (Nat.le_add_right _ _),
      Nat.add_sub_cancel_left, Nat.add_comm 1, List.getElem?_cons_succ]
  simp only [MissedAt, lineStart, List.getElem?_cons_succ, Nat.add_assoc _ (lineStart _ _), shift]

theorem linesMissing_ascending (number : Nat) (listed : Bool) (pairs : List (UInt8 × ByteState)) :
    (linesMissing number listed pairs).Pairwise (· < ·) ∧
      ∀ found ∈ linesMissing number listed pairs,
        number ≤ found ∧ (listed = true → number < found) := by
  fun_induction linesMissing number listed pairs with
  | case1 => simp
  | case2 number listed state rest ih =>
      refine ⟨ih.1, fun found member => ?_⟩
      have low := (ih.2 found member).1
      exact ⟨by omega, fun _ => by omega⟩
  | case3 number listed byte state rest other new ih =>
      refine ⟨List.pairwise_cons.mpr ⟨fun found member => (ih.2 found member).2 rfl, ih.1⟩, ?_⟩
      intro found member
      rcases List.mem_cons.mp member with rfl | later
      · exact ⟨Nat.le_refl _, by simp_all⟩
      · exact ⟨(ih.2 found later).1, fun _ => (ih.2 found later).2 rfl⟩
  | case4 number listed byte state rest other old ih => exact ih

theorem mem_linesMissing_row (plain : ∀ pair ∈ pairs, pair.1 ≠ 10) :
    found ∈ linesMissing number listed (pairs ++ behind) ↔
      (found = number ∧ listed = false ∧ .missed ∈ pairs.map Prod.snd) ∨
        found ∈ linesMissing number (listed || (pairs.map Prod.snd).contains .missed) behind := by
  induction pairs generalizing listed with
  | nil => simp
  | cons pair pairs ih =>
      obtain ⟨byte, state⟩ := pair
      have other : byte ≠ 10 := plain _ List.mem_cons_self
      simp only [List.forall_mem_cons] at plain
      rw [List.cons_append, linesMissing, if_neg other]
      by_cases missed : state = .missed
      · subst missed
        cases listed with
        | false => simp [ih plain.2]
        | true => simp [ih plain.2]
      · have apart : (ByteState.missed == state) = false := beq_eq_false_iff_ne.mpr (Ne.symm missed)
        have same : .missed ∈ state :: pairs.map Prod.snd ↔ .missed ∈ pairs.map Prod.snd := by
          rw [List.mem_cons, or_iff_right (Ne.symm missed)]
        rw [if_neg (by simp [missed]), ih plain.2, List.map_cons, same, List.contains_cons, apart,
          Bool.false_or]

theorem mem_linesMissing {text : List Char} {states : List ByteState}
    (size : states.length = byteCount text) :
    found ∈ linesMissing number false ((Text.bytes text).zip states) ↔
      ∃ index column, found = number + index ∧ MissedAt (Text.lines text) states index column := by
  have plainRow {line : List Char} (plain : '\n' ∉ line) (row : List ByteState) :
      ∀ pair ∈ (Text.bytes line).zip row, pair.1 ≠ 10 := by
    rintro ⟨byte, state⟩ member rfl
    exact @Text.not_mem_bytes '\n' line (by decide) plain (List.of_mem_zip member).1
  induction text using Text.line_induction generalizing states number with
  | last line plain =>
      have first := @missedAt_first line [] states []
      rw [List.append_nil] at first
      rw [Text.lines_last plain, ← List.append_nil (List.zip _ _),
        mem_linesMissing_row (plainRow plain states),
        List.map_snd_zip (by simp [size, Text.length_bytes]), List.mem_iff_getElem?]
      simp only [linesMissing, List.not_mem_nil, or_false, true_and]
      constructor
      · rintro ⟨rfl, column, missed⟩
        exact ⟨0, column, rfl, (first size).mpr missed⟩
      · rintro ⟨index, column, rfl, missed⟩
        cases index with
        | zero => exact ⟨rfl, column, (first size).mp missed⟩
        | succ index => simp [MissedAt] at missed
  | more line rest plain ih =>
      have one : '\n'.utf8Size = 1 := rfl
      rw [Text.byteCount_append, byteCount, one] at size
      -- the states of the first line, of its newline, and of what follows
      obtain ⟨row, state, later, rfl, whole⟩ : ∃ row state later,
          states = row ++ state :: later ∧ row.length = byteCount line := by
        have inside : byteCount line < states.length := by omega
        refine ⟨states.take (byteCount line), states[byteCount line],
          states.drop (byteCount line + 1), ?_, ?_⟩
        · rw [← List.drop_eq_getElem_cons inside, List.take_append_drop]
        · rw [List.length_take]
          omega
      have further : later.length = byteCount rest := by
        rw [List.length_append, List.length_cons] at size
        omega
      have bytes : Text.bytes ('\n' :: rest) = 10 :: Text.bytes rest := Text.bytes_cons _ _
      rw [Text.lines_more plain, Text.bytes_append, bytes,
        List.zip_append (by rw [whole, Text.length_bytes]), List.zip_cons_cons,
        mem_linesMissing_row (plainRow plain row),
        List.map_snd_zip (by simp [whole, Text.length_bytes]), linesMissing, if_pos rfl,
        List.mem_iff_getElem?]
      constructor
      · rintro (⟨rfl, _, column, missed⟩ | behind)
        · exact ⟨0, column, rfl, (missedAt_first whole).mpr missed⟩
        · obtain ⟨index, column, rfl, missed⟩ := (ih further).mp behind
          exact ⟨index + 1, column, by omega, (missedAt_behind whole).mpr missed⟩
      · rintro ⟨index, column, rfl, missed⟩
        cases index with
        | zero => exact .inl ⟨rfl, rfl, column, (missedAt_first whole).mp missed⟩
        | succ index =>
            refine .inr ((ih further).mpr ⟨index, column, by omega, ?_⟩)
            exact (missedAt_behind whole).mp missed

theorem mem_partialLines {text : List Char} {states : List ByteState}
    (size : states.length = byteCount text) :
    found ∈ partialLines text states ↔
      ∃ column, MissedAt (Text.lines text) states found column := by
  simp [partialLines, mem_linesMissing size]

theorem newline_behind {text : List Char} {byte : UInt8}
    (there : (Text.lines text)[index]? = some line)
    (behind : (Text.bytes text)[lineStart (Text.lines text) index + byteCount line]? = some byte) :
    byte = 10 := by
  induction text using Text.line_induction generalizing index with
  | last only plain =>
      rw [Text.lines_last plain] at there behind
      obtain ⟨rfl, rfl⟩ : index = 0 ∧ only = line := by
        cases index with
        | zero => simpa using there
        | succ index => simp at there
      simp [lineStart, ← Text.length_bytes] at behind
  | more first rest plain ih =>
      have bytes : Text.bytes ('\n' :: rest) = 10 :: Text.bytes rest := Text.bytes_cons _ _
      rw [Text.lines_more plain] at there behind
      rw [Text.bytes_append, bytes] at behind
      cases index with
      | zero =>
          obtain rfl : first = line := by simpa using there
          simpa [lineStart, ← Text.length_bytes, eq_comm] using behind
      | succ index =>
          refine ih there ?_
          rw [lineStart, ← Text.length_bytes, Nat.add_assoc, Nat.add_assoc,
            List.getElem?_append_right (Nat.le_add_right _ _), Nat.add_sub_cancel_left,
            Nat.add_comm 1, List.getElem?_cons_succ] at behind
          exact behind

theorem missedAt_of_missed {text : List Char} {states : List ByteState} {offset : Nat}
    {byte : UInt8} (read : (Text.bytes text)[offset]? = some byte) (other : byte ≠ 10)
    (missed : states[offset]? = some .missed) :
    ∃ column, MissedAt (Text.lines text) states (Text.newlinesBefore offset text) column := by
  have inside : offset < byteCount text := by
    rw [← Text.length_bytes]
    exact (List.getElem?_eq_some_iff.mp read).1
  obtain ⟨line, there, low, high⟩ :=
    (Text.onLine_iff_newlinesBefore (Nat.le_of_lt inside) _).mpr rfl
  generalize Text.newlinesBefore offset text = index at *
  obtain ⟨column, rfl⟩ := Nat.exists_eq_add_of_le low
  refine ⟨column, line, there, ?_, missed⟩
  -- the one offset of a line that is in no column is that of its newline
  by_contra outside
  obtain rfl : column = byteCount line := by omega
  exact other (newline_behind there read)

end Missing

section Reports

variable {file : CoveredFile} {hits : Hits} {config : Config} {coverage : FileCoverage}

theorem analyze_lines (done : file.analyze hits config = .ok coverage) :
    coverage.bytes = byteStates file.source.toList coverage.nodes ∧
      ∃ marks, coverage.lines =
        if config.allowPartial then lineStates file.source.toList marks
        else dropPartial (partialLines file.source.toList coverage.bytes)
          (lineStates file.source.toList marks) := by
  unfold CoveredFile.analyze at done
  dsimp only at done
  split at done
  · cases done
  · rename_i found listed
    obtain rfl := Except.ok.inj done
    exact ⟨rfl, found.filterMap Finding.mark, rfl⟩

theorem dropPartial_getElem? (ones : List Nat) (lines : List (Option Nat)) (index : Nat) :
    (dropPartial ones lines)[index]? =
      lines[index]?.map fun count => if index ∈ ones then some 0 else count := by
  simp [dropPartial, List.getElem?_zipIdx, Function.comp_def]

theorem mem_uncoveredLines {index : Nat} :
    index + 1 ∈ coverage.uncoveredLines ↔ coverage.lines[index]? = some (some 0) := by
  simp only [FileCoverage.uncoveredLines, List.mem_filterMap, Prod.exists,
    List.mem_zipIdx_iff_getElem?, Option.ite_none_right_eq_some, Option.some.injEq]
  constructor
  · rintro ⟨_, _, there, rfl, same⟩
    obtain rfl := Nat.succ_inj.mp same
    exact there
  · intro there
    exact ⟨_, index, there, rfl, rfl⟩

variable (done : file.analyze hits config = .ok coverage)

include done

theorem report_bytes_length : coverage.bytes.length = byteCount file.source.toList := by
  rw [(analyze_lines done).1, byteStates_length, Text.length_bytes]

theorem report_lines_length :
    coverage.lines.length = (Text.lines file.source.toList).length := by
  obtain ⟨_, marks, counted⟩ := analyze_lines done
  rw [counted]
  split <;> simp [dropPartial, lineStates, lineCount]

theorem missed_not_newline {offset : Nat} (missed : coverage.bytes[offset]? = some .missed) :
    ∃ byte, (Text.bytes file.source.toList)[offset]? = some byte ∧ byte ≠ 10 := by
  rw [(analyze_lines done).1, byteStates_getElem?, Option.map_eq_some_iff] at missed
  obtain ⟨byte, read, state⟩ := missed
  refine ⟨byte, read, ?_⟩
  rintro rfl
  rw [byteState_blank rfl] at state
  cases state

/-- Unless partly run lines are allowed, a line with a missed byte counts as one that never ran. -/
theorem report_line_missed {index column : Nat} (strict : config.allowPartial = false)
    (missed : MissedAt (Text.lines file.source.toList) coverage.bytes index column) :
    coverage.lines[index]? = some (some 0) := by
  have listed : index ∈ partialLines file.source.toList coverage.bytes :=
    (mem_partialLines (report_bytes_length done)).mpr ⟨column, missed⟩
  obtain ⟨_, marks, counted⟩ := analyze_lines done
  obtain ⟨line, there, _⟩ := missed
  have inside : index < (lineStates file.source.toList marks).length := by
    simpa [lineStates, lineCount] using (List.getElem?_eq_some_iff.mp there).1
  rw [counted, strict, if_neg Bool.false_ne_true, dropPartial_getElem?,
    List.getElem?_eq_getElem inside, Option.map_some, if_pos listed]

end Reports

end ProbeCoverage.Coverage

namespace ProbeCoverage.Report

open Ast (Span)
open Coverage
open Probe (Hits)
open Text (byteCount lineStart OnLine)

def AnnotatedLine.Marks (line : AnnotatedLine) (column : Nat) : Prop :=
  ∃ markers, line.markers = some markers ∧ markers.toList[column]? = some 'x'

section Marks

variable {gutter : Gutter} {row : List ByteState} {column : Nat}

theorem trimEnd_append (text : List Char) :
    ∃ spaces, text = trimEnd text ++ spaces ∧ ∀ c ∈ spaces, c = ' ' := by
  refine ⟨(text.reverse.takeWhile (· == ' ')).reverse, ?_, ?_⟩
  · rw [trimEnd, ← List.reverse_append, List.takeWhile_append_dropWhile, List.reverse_reverse]
  · intro c member
    simpa using List.mem_takeWhile_imp (List.mem_reverse.mp member)

theorem trimEnd_getElem? (text : List Char) (column : Nat) :
    (trimEnd text)[column]? = some 'x' ↔ text[column]? = some 'x' := by
  obtain ⟨spaces, split, blank⟩ := trimEnd_append text
  generalize trimEnd text = front at split ⊢
  subst split
  by_cases inside : column < front.length
  · rw [List.getElem?_append_left inside]
  · constructor
    · intro kept
      exact absurd (List.getElem?_eq_some_iff.mp kept).1 inside
    · intro cut
      rw [List.getElem?_append_right (Nat.le_of_not_lt inside)] at cut
      exact absurd (blank 'x' (List.mem_of_getElem? cut)) (by decide)

theorem markerOf_eq_x (state : ByteState) : markerOf state = 'x' ↔ state = .missed := by
  cases state <;> decide

theorem markersOf_marks :
    (∃ markers, markersOf gutter row = some markers ∧ markers.toList[column]? = some 'x') ↔
      gutter ≠ .missed ∧ row[column]? = some .missed := by
  have mark : (row.map markerOf)[column]? = some 'x' ↔ row[column]? = some .missed := by
    rw [List.getElem?_map, Option.map_eq_some_iff]
    simp only [markerOf_eq_x, exists_eq_right]
  unfold markersOf
  constructor
  · rintro ⟨markers, written, marked⟩
    simp only [Option.ite_none_right_eq_some, Bool.and_eq_true, bne_iff_ne, Option.some.injEq]
      at written
    obtain ⟨⟨ran, _⟩, rfl⟩ := written
    rw [String.toList_ofList, trimEnd_getElem?, mark] at marked
    exact ⟨ran, marked⟩
  · rintro ⟨ran, missed⟩
    have marked := mark.mpr missed
    refine ⟨String.ofList (trimEnd (row.map markerOf)), ?_, ?_⟩
    · simp [ran, List.mem_of_getElem? marked]
    · rwa [String.toList_ofList, trimEnd_getElem?]

theorem markersOf_eq_none
    (unmarked : ∀ column : Nat, ¬(gutter ≠ .missed ∧ row[column]? = some .missed)) :
    markersOf gutter row = none := by
  unfold markersOf
  rw [if_neg]
  simp only [Bool.and_eq_true, bne_iff_ne, List.contains_iff_mem, List.mem_map, markerOf_eq_x]
  rintro ⟨ran, _, member, rfl⟩
  obtain ⟨column, missed⟩ := List.mem_iff_getElem?.mp member
  exact unmarked column ⟨ran, missed⟩

end Marks

section Annotation

variable {lines : List (List Char)} {counts : List (Option Nat)} {states : List ByteState}
variable {index column : Nat} {line : AnnotatedLine}

theorem annotateLines_getElem? (lines : List (List Char)) (counts : List (Option Nat))
    (states : List ByteState) (index : Nat) :
    (annotateLines lines counts states)[index]? = lines[index]?.map fun line =>
      let gutter := Gutter.ofCount counts[index]?.join
      { gutter, text := String.ofList line
        markers := markersOf gutter
          ((states.drop (lineStart lines index)).take (byteCount line)) } := by
  induction lines generalizing counts states index with
  | nil => rfl
  | cons line rest ih =>
      cases index with
      | zero => simp [annotateLines, lineStart, List.head?_eq_getElem?]
      | succ index =>
          simp only [annotateLines, List.getElem?_cons_succ, ih, lineStart, List.getElem?_tail,
            List.drop_drop]

theorem row_missed {text : List Char} (there : lines[index]? = some text) :
    ((states.drop (lineStart lines index)).take (byteCount text))[column]? = some .missed ↔
      MissedAt lines states index column := by
  simp only [MissedAt, there, Option.some.injEq, exists_eq_left', List.getElem?_take,
    List.getElem?_drop, Option.ite_none_right_eq_some]

theorem annotated_marks (annotated : (annotateLines lines counts states)[index]? = some line)
    (column : Nat) :
    line.Marks column ↔ line.gutter ≠ .missed ∧ MissedAt lines states index column := by
  rw [annotateLines_getElem?, Option.map_eq_some_iff] at annotated
  obtain ⟨text, there, rfl⟩ := annotated
  rw [← row_missed there]
  exact markersOf_marks

theorem annotated_unmarked (annotated : (annotateLines lines counts states)[index]? = some line)
    (unmarked : ∀ column, ¬(line.gutter ≠ .missed ∧ MissedAt lines states index column)) :
    line.markers = none := by
  rw [annotateLines_getElem?, Option.map_eq_some_iff] at annotated
  obtain ⟨text, there, rfl⟩ := annotated
  apply markersOf_eq_none
  intro column
  rw [row_missed there]
  exact unmarked column

theorem annotated_texts : (annotateLines lines counts states).map (fun line => line.text.toList) =
    lines := by
  induction lines generalizing counts states with
  | nil => rfl
  | cons line rest ih => simp [annotateLines, ih]

theorem annotated_gutters (size : counts.length = lines.length) :
    (annotateLines lines counts states).map AnnotatedLine.gutter = counts.map Gutter.ofCount := by
  induction lines generalizing counts states with
  | nil =>
      obtain rfl := List.eq_nil_of_length_eq_zero size
      rfl
  | cons line rest ih =>
      cases counts with
      | nil => cases size
      | cons count counts => simp [annotateLines, ih (Nat.succ_inj.mp size)]

end Annotation

/-- Lines are numbered in one way. A report has a count for each line of the source and finds
exactly the lines in which some byte is missed, in order; spans number the line that holds an
offset; and an annotated line has an `x` under each of its missed bytes, unless all of it is missed.
So if partly run lines are not allowed, each line of a missed byte is uncovered and nothing is
marked. -/
theorem line_numbers_agree {file : CoveredFile} {hits : Hits} {config : Config}
    {coverage : FileCoverage} (done : file.analyze hits config = .ok coverage) :
    let source := file.source.toList
    let lines := source.splitOn '\n'
    let missing := partialLines source coverage.bytes
    let annotated := annotate file.source coverage
    (coverage.lines.length = lines.length ∧ missing.Pairwise (· < ·) ∧
      ∀ index, index ∈ missing ↔
        index < coverage.lines.length ∧ ∃ column, MissedAt lines coverage.bytes index column) ∧
    (∀ start stop, start ≤ byteCount source → stop ≤ byteCount source →
      let span := Span.ofSource source start stop
      ∀ number,
        (span.startLine = number ↔ ∃ index, number = index + 1 ∧ OnLine lines index start) ∧
        (span.endLine = number ↔ ∃ index, number = index + 1 ∧ OnLine lines index stop)) ∧
    (annotated.map (fun line => line.text.toList) = lines ∧
      annotated.map AnnotatedLine.gutter = coverage.lines.map Gutter.ofCount ∧
      ∀ index line column, annotated[index]? = some line →
        (line.Marks column ↔
          line.gutter ≠ .missed ∧ MissedAt lines coverage.bytes index column)) ∧
    (config.allowPartial = false →
      (∀ offset, coverage.bytes[offset]? = some .missed →
        Span.lineAt source offset ∈ coverage.uncoveredLines) ∧
      ∀ line ∈ annotated, line.markers = none) := by
  intro source lines missing annotated
  have split : Text.lines source = lines := Text.lines_eq_splitOn source
  have counted := report_lines_length done
  have gutters : annotated.map AnnotatedLine.gutter = coverage.lines.map Gutter.ofCount :=
    annotated_gutters counted
  rw [← split]
  have ascending : missing.Pairwise (· < ·) := (linesMissing_ascending 0 false _).1
  refine ⟨⟨counted, ascending, ?_⟩, ?_, ⟨annotated_texts, gutters, ?_⟩, ?_⟩
  · intro index
    rw [mem_partialLines (report_bytes_length done), counted]
    constructor
    · rintro ⟨column, line, there, missed⟩
      exact ⟨(List.getElem?_eq_some_iff.mp there).1, column, line, there, missed⟩
    · exact And.right
  · intro start stop startsInside stopsInside span number
    simp only [Text.onLine_iff_newlinesBefore startsInside,
      Text.onLine_iff_newlinesBefore stopsInside, exists_eq_right']
    exact ⟨eq_comm, eq_comm⟩
  · intro index line column there
    exact annotated_marks there column
  · intro strict
    constructor
    · intro offset missed
      obtain ⟨byte, read, other⟩ := missed_not_newline done missed
      obtain ⟨column, inside⟩ := missedAt_of_missed read other missed
      exact mem_uncoveredLines.mpr (report_line_missed done strict inside)
    · intro line member
      obtain ⟨index, there⟩ := List.mem_iff_getElem?.mp member
      apply annotated_unmarked there
      rintro column ⟨ran, missed⟩
      -- the line counts as one that never ran, and so its gutter says
      have never := congrArg (·[index]?) gutters
      simp only [List.getElem?_map, there, report_line_missed done strict missed] at never
      exact ran (Option.some.inj never)

/-- Three calls on two lines, the first one with a name of two bytes. -/
def callsSource : String := "é;b\nc\n"

def callsProgram : Ast.Node :=
  let call (name : String) (span : Span) : Ast.Child :=
    .node (.mk "send" [.atom .nil, .atom (.text name)] (some span))
  .mk "begin" [call "é" ⟨0, 2, 1, 1⟩, call "b" ⟨3, 4, 1, 1⟩, call "c" ⟨5, 6, 2, 2⟩]
    (some ⟨0, 6, 1, 2⟩)

/-- The first call is interrupted. The call behind it is marked on its line, and if partly run lines
are not allowed, the line is uncovered. -/
theorem line_numbers_agree_calls :
    ∃ file lenient strict,
      CoveredFile.cover "a.rb" callsSource (some callsProgram) Probe.defaultGlobal 0 = .ok file ∧
      file.analyze ⟨#[1]⟩ {} = .ok lenient ∧
      file.analyze ⟨#[1]⟩ { allowPartial := false } = .ok strict ∧
      (∃ line, (annotate callsSource lenient)[0]? = some line ∧ line.Marks 3) ∧
      Span.lineAt callsSource.toList 3 = 1 ∧ 1 ∈ strict.uncoveredLines ∧
      ∀ line ∈ annotate callsSource strict, line.markers = none := by
  have known {file : CoveredFile} {lenient strict : FileCoverage}
      (covered : CoveredFile.cover "a.rb" callsSource (some callsProgram) Probe.defaultGlobal 0 =
        .ok file)
      (allowed : file.analyze ⟨#[1]⟩ {} = .ok lenient)
      (refused : file.analyze ⟨#[1]⟩ { allowPartial := false } = .ok strict)
      (ran : (annotate callsSource lenient)[0]?.map AnnotatedLine.gutter = some (.count 1))
      (missed : lenient.bytes[3]? = some .missed ∧ strict.bytes[3]? = some .missed) :
      (∃ line, (annotate callsSource lenient)[0]? = some line ∧ line.Marks 3) ∧
      Span.lineAt callsSource.toList 3 = 1 ∧ 1 ∈ strict.uncoveredLines ∧
      ∀ line ∈ annotate callsSource strict, line.markers = none := by
    obtain ⟨_, same⟩ := built_of_cover covered
    obtain ⟨_, _, ⟨_, _, marks⟩, _⟩ := line_numbers_agree allowed
    obtain ⟨_, _, _, unmarked⟩ := line_numbers_agree refused
    rw [same] at marks unmarked
    obtain ⟨uncovered, none⟩ := unmarked rfl
    obtain ⟨line, there, gutter⟩ := Option.map_eq_some_iff.mp ran
    refine ⟨⟨line, there, (marks 0 line 3 there).mpr ⟨?_, ['é', ';', 'b'], ?_, ?_, missed.1⟩⟩,
      rfl, uncovered 3 missed.2, none⟩
    · rw [gutter]
      decide
    · rfl
    · decide
  exact ⟨_, _, _, rfl, rfl, rfl, known rfl rfl rfl (by decide +kernel) (by decide +kernel)⟩

end ProbeCoverage.Report
