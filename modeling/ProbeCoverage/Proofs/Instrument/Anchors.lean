import ProbeCoverage.Instrument.Anchor
import ProbeCoverage.Proofs.Text.Encoding

/-!
Finding the place of an anchor by its bytes. A search for `{` and for the word `do` among the bytes
of a text, with the text cut open around each `do`, comes to the same place as one walk over its
characters: below 128 a byte is a character of its own, so all these cuts are between characters.
-/

namespace ProbeCoverage.Instrument

open Cover (Anchor)
open Text (Wide bytes_cons head?_bytes_iff toUInt8_eq_iff utf8EncodeChar_cases)

theorem tailFrom_byteCount (ahead tail : List Char) :
    tailFrom (ahead ++ tail) (Text.byteCount ahead) = tail := by
  rw [tailFrom, Text.from?_eq_some_iff.mpr ⟨ahead, rfl, rfl⟩, Option.getD_some]

section Openers

def braceAt (offset : Nat) : List Char → Option Nat
  | [] => none
  | c :: rest => if c = '\x7b' then some offset else braceAt (offset + c.utf8Size) rest

def wordAt (offset : Nat) (previous : Option Char) : List Char → Option Nat
  | [] => none
  | c :: rest =>
      if c = 'd' && rest.head? = some 'o' && endsWord previous && endsWord rest[1]? then some offset
      else wordAt (offset + c.utf8Size) (some c) rest

variable {offset found : Nat} {previous : Option Char} {text : List Char}

theorem braceAt_ge (stands : braceAt offset text = some found) : offset ≤ found := by
  fun_induction braceAt offset text with
  | case1 => cases stands
  | case2 offset rest => exact Nat.le_of_eq (Option.some.inj stands)
  | case3 offset c rest _ ih =>
      have later := ih stands
      omega

theorem wordAt_ge (stands : wordAt offset previous text = some found) : offset ≤ found := by
  fun_induction wordAt offset previous text with
  | case1 => cases stands
  | case2 offset previous c rest => exact Nat.le_of_eq (Option.some.inj stands)
  | case3 offset previous c rest _ ih =>
      have later := ih stands
      omega

/-- One walk finds what two searches find, whichever comes first. -/
theorem blockOpenerEnd_eq (offset : Nat) (previous : Option Char) (text : List Char) :
    blockOpenerEnd offset previous text =
      Option.merge min ((braceAt offset text).map (· + 1))
        ((wordAt offset previous text).map (· + 2)) := by
  induction text generalizing offset previous with
  | nil => rfl
  | cons c rest ih =>
      rw [blockOpenerEnd, braceAt, wordAt]
      by_cases brace : c = '\x7b'
      · subst brace
        rw [if_pos rfl, if_pos rfl, if_neg (by simp)]
        cases word : wordAt (offset + '\x7b'.utf8Size) (some '\x7b') rest with
        | none => rfl
        | some found =>
            have later := wordAt_ge word
            simp only [Option.map_some, Option.merge_some_some, Option.some.injEq]
            omega
      · rw [if_neg brace, if_neg brace]
        split
        · rename_i word
          simp only [Bool.and_eq_true, decide_eq_true_eq] at word
          obtain ⟨⟨⟨rfl, second⟩, _⟩, _⟩ := word
          obtain ⟨others, rfl⟩ := List.head?_eq_some_iff.mp second
          -- neither letter of the word is a brace, so a brace comes behind both
          rw [braceAt, if_neg (by decide)]
          cases behind : braceAt (offset + 'd'.utf8Size + 'o'.utf8Size) others with
          | none => rfl
          | some found =>
              have later := braceAt_ge behind
              have sizes : 'd'.utf8Size = 1 ∧ 'o'.utf8Size = 1 := by decide
              simp only [Option.map_some, Option.merge_some_some, Option.some.injEq]
              omega
        · exact ih _ _

end Openers

section Slices

def doOffsets (offset : Nat) : List UInt8 → List Nat
  | [] => []
  | byte :: rest =>
      if byte = 100 ∧ rest.head? = some 111 then offset :: doOffsets (offset + 1) rest
      else doOffsets (offset + 1) rest

/-- Whether a `do` stands alone, by the text in front of it and the text behind it; nothing where
the text cannot be cut around it. -/
def standsAlone? (text : List Char) (offset : Nat) : Option Bool := do
  let (front, _) ← Text.cut? offset text
  let back ← Text.from? (offset + 2) text
  pure (endsWord front.getLast? && endsWord back.head?)

def firstAlone? (text : List Char) : List Nat → Option (Option Nat)
  | [] => some none
  | offset :: rest =>
      match standsAlone? text offset with
      | none => none
      | some true => some (some offset)
      | some false => firstAlone? text rest

/-- The offset that an anchor stands for, found among the bytes of the source and by cutting it;
nothing where a cut fails. -/
def resolveBySlices (source : List Char) : Anchor → Option Nat
  | .exactly offset => some (min offset (Text.byteCount source))
  | .afterBlockOpener offset => do
      let rest := tailFrom source offset
      let brace := (Text.bytes rest).findIdx? (· = 123)
      let word ← firstAlone? rest (doOffsets 0 (Text.bytes rest))
      pure (offset + (Option.merge min (brace.map (· + 1)) (word.map (· + 2))).getD 0)
  | .afterMethodName offset => do
      let rest := tailFrom source offset
      let afterWord := skipDef rest
      let start := Text.byteCount afterWord - Text.byteCount (afterWord.dropWhile Text.isBlank)
      let name ← Text.from? start afterWord
      pure (offset + (Text.byteCount rest - Text.byteCount afterWord) + start +
        Text.byteCount (name.takeWhile isMethodNameChar))

theorem doOffsets_wide {c : Char} {bytes : List UInt8} (wide : Wide c bytes) (offset : Nat)
    (back : List UInt8) : doOffsets offset (bytes ++ back) = doOffsets (offset + c.utf8Size) back := by
  rw [← wide.size]
  have apart (byte : UInt8) (member : byte ∈ bytes) : byte ≠ 100 :=
    @Wide.byte_ne c 'd' bytes byte wide member (by decide)
  clear wide
  induction bytes generalizing offset with
  | nil => rfl
  | cons byte rest ih =>
      have other := apart byte List.mem_cons_self
      rw [List.cons_append, doOffsets, if_neg (fun stands => other stands.1),
        ih _ fun later member => apart later (List.mem_cons_of_mem byte member), List.length_cons]
      congr 1
      omega

theorem doOffsets_cons (offset : Nat) (c : Char) (rest : List Char) :
    doOffsets offset (Text.bytes (c :: rest)) =
      if c = 'd' ∧ rest.head? = some 'o' then
        offset :: doOffsets (offset + c.utf8Size) (Text.bytes rest)
      else doOffsets (offset + c.utf8Size) (Text.bytes rest) := by
  rw [bytes_cons]
  rcases utf8EncodeChar_cases c with ⟨encoded, one, small⟩ | wide
  · have first : c.toUInt8 = 100 ↔ c = 'd' := @toUInt8_eq_iff c 'd' small (by decide)
    have second : (Text.bytes rest).head? = some 111 ↔ rest.head? = some 'o' :=
      @head?_bytes_iff 'o' (by decide) rest
    simp only [encoded, one, List.singleton_append, doOffsets, first, second]
  · rw [doOffsets_wide wide, if_neg fun stands => wide.ne_letter (by decide) stands.1]

theorem findIdx?_brace_char (c : Char) :
    (String.utf8EncodeChar c).findIdx? (· = 123) = if c = '\x7b' then some 0 else none := by
  rcases utf8EncodeChar_cases c with ⟨encoded, _, small⟩ | wide
  · have brace : c.toUInt8 = 123 ↔ c = '\x7b' := @toUInt8_eq_iff c '\x7b' small (by decide)
    simp [encoded, List.findIdx?_cons, brace]
  · rw [if_neg (wide.ne_letter (by decide)), List.findIdx?_eq_none_iff]
    intro byte member
    have apart : byte ≠ 123 := @Wide.byte_ne c '\x7b' _ byte wide member (by decide)
    simp [apart]

theorem findIdx?_brace (offset : Nat) (text : List Char) :
    ((Text.bytes text).findIdx? (· = 123)).map (· + offset) = braceAt offset text := by
  induction text generalizing offset with
  | nil => rfl
  | cons c rest ih =>
      rw [bytes_cons, List.findIdx?_append, String.length_utf8EncodeChar, braceAt,
        ← ih (offset + c.utf8Size), findIdx?_brace_char]
      by_cases stands : c = '\x7b'
      · simp [stands]
      · simp only [if_neg stands, Option.none_or, Option.map_map]
        congr 1
        funext index
        simp only [Function.comp_apply]
        omega

theorem standsAlone?_eq (front rest : List Char) :
    standsAlone? (front ++ 'd' :: 'o' :: rest) (Text.byteCount front) =
      some (endsWord front.getLast? && endsWord rest.head?) := by
  have behind : Text.from? (Text.byteCount front + 2) (front ++ 'd' :: 'o' :: rest) = some rest :=
    Text.from?_eq_some_iff.mpr ⟨front ++ ['d', 'o'], by simp, Text.byteCount_append front ['d', 'o']⟩
  simp [standsAlone?, Text.cut?_byteCount, behind]

/-- Cutting the text around each `do` never fails, and finds the first one that is a whole word. -/
theorem firstAlone?_eq (front text : List Char) :
    firstAlone? (front ++ text) (doOffsets (Text.byteCount front) (Text.bytes text)) =
      some (wordAt (Text.byteCount front) front.getLast? text) := by
  induction text generalizing front with
  | nil => rfl
  | cons c rest ih =>
      -- what has been passed is the front of the text, so the cut behind it is known
      have next : firstAlone? (front ++ c :: rest)
          (doOffsets (Text.byteCount front + c.utf8Size) (Text.bytes rest)) =
            some (wordAt (Text.byteCount front + c.utf8Size) (some c) rest) := by
        simpa [Text.byteCount] using ih (front ++ [c])
      rw [doOffsets_cons, wordAt]
      by_cases stands : c = 'd' ∧ rest.head? = some 'o'
      · rw [if_pos stands]
        obtain ⟨rfl, second⟩ := stands
        obtain ⟨others, rfl⟩ := List.head?_eq_some_iff.mp second
        rw [firstAlone?, standsAlone?_eq]
        cases alone : endsWord front.getLast? && endsWord others.head? with
        | true =>
            rw [if_pos]
            simpa [List.head?_eq_getElem?] using alone
        | false =>
            rw [if_neg]
            · exact next
            · simpa [List.head?_eq_getElem?] using alone
      · rw [if_neg stands, if_neg]
        · exact next
        · intro word
          simp only [Bool.and_eq_true, decide_eq_true_eq] at word
          exact stands word.1.1

theorem byteCount_dropWhile (test : Char → Bool) (text : List Char) :
    Text.byteCount (text.takeWhile test) + Text.byteCount (text.dropWhile test) =
      Text.byteCount text := by
  rw [← Text.byteCount_append, List.takeWhile_append_dropWhile]

theorem byteCount_skipDef (text : List Char) :
    Text.byteCount (skipDef text) ≤ Text.byteCount text := by
  unfold skipDef
  split
  · simp only [Text.byteCount]
    omega
  · exact Nat.le_refl _

theorem resolveBySlices_eq (source : List Char) (anchor : Anchor) :
    resolveBySlices source anchor = some (resolve source anchor) := by
  cases anchor with
  | exactly offset => rfl
  | afterBlockOpener offset =>
      have word := firstAlone?_eq [] (tailFrom source offset)
      have brace := findIdx?_brace 0 (tailFrom source offset)
      simp only [List.nil_append, Text.byteCount_nil, List.getLast?_nil] at word
      simp only [Nat.add_zero, Option.map_id'] at brace
      simp [resolveBySlices, resolve, word, brace, blockOpenerEnd_eq]
  | afterMethodName offset =>
      have parts := byteCount_dropWhile Text.isBlank (skipDef (tailFrom source offset))
      have within := byteCount_skipDef (tailFrom source offset)
      simp only [resolveBySlices, resolve, methodNameEnd]
      generalize skipDef (tailFrom source offset) = afterWord at parts within ⊢
      have named : Text.from? (Text.byteCount afterWord -
          Text.byteCount (afterWord.dropWhile Text.isBlank)) afterWord =
            some (afterWord.dropWhile Text.isBlank) :=
        Text.from?_eq_some_iff.mpr ⟨afterWord.takeWhile Text.isBlank,
          (List.takeWhile_append_dropWhile).symm, by omega⟩
      simp only [named, Option.bind_eq_bind, Option.bind_some, Option.pure_def, Option.some.injEq]
      omega

end Slices

section Bounds

def offsetOf : Anchor → Nat
  | .exactly offset | .afterBlockOpener offset | .afterMethodName offset => offset

/-- An anchor stands for a place from its offset on. Only one that names an offset behind the end of
the source stands for the end. -/
theorem offsetOf_le_resolve (source : List Char) (anchor : Anchor) :
    offsetOf anchor ≤ resolve source anchor ∨
      anchor = .exactly (offsetOf anchor) ∧ Text.byteCount source < offsetOf anchor ∧
        resolve source anchor = Text.byteCount source := by
  cases anchor with
  | exactly offset =>
      rcases Nat.lt_or_ge (Text.byteCount source) offset with behind | inside
      · exact .inr ⟨rfl, behind, Nat.min_eq_right (Nat.le_of_lt behind)⟩
      · exact .inl (Nat.le_min.mpr ⟨Nat.le_refl offset, inside⟩)
  | afterBlockOpener offset => exact .inl (Nat.le_add_right _ _)
  | afterMethodName offset => exact .inl (Nat.le_add_right _ _)

end Bounds

end ProbeCoverage.Instrument
