import ProbeCoverage.Proofs.Instrument.Anchors

/-!
The place of an empty block. A block is opened by a `{`, or by a `do` with no letter, digit or
underscore next to it, so the `do` of `undo` or of `done` opens none. The probe of an empty block goes
behind the opener that ends first.
-/

namespace ProbeCoverage.Instrument

def Apart (neighbour : Option Char) : Prop :=
  ∀ c ∈ neighbour, Text.isNameChar c = false

/-- An offset right behind the opener of a block. Only the source from `start` on is looked at, so
what stands in front of `start` is next to no word. -/
inductive OpenerEnd (source : List Char) (start : Nat) : Nat → Prop where
  | brace {ahead front back : List Char} :
      source = ahead ++ (front ++ '\x7b' :: back) → Text.byteCount ahead = start →
      OpenerEnd source start (start + Text.byteCount front + 1)
  | word {ahead front back : List Char} :
      source = ahead ++ (front ++ 'd' :: 'o' :: back) → Text.byteCount ahead = start →
      Apart front.getLast? → Apart back.head? →
      OpenerEnd source start (start + Text.byteCount front + 2)

section Walk

variable {previous : Option Char} {text rest : List Char} {c : Char} {stop : Nat}

/-- How far an opener of a text reaches. `previous` is the character in front of the text. -/
inductive Opens (previous : Option Char) (text : List Char) : Nat → Prop where
  | brace {front back : List Char} :
      text = front ++ '\x7b' :: back → Opens previous text (Text.byteCount front + 1)
  | word {front back : List Char} :
      text = front ++ 'd' :: 'o' :: back → Apart (front.getLast?.or previous) → Apart back.head? →
      Opens previous text (Text.byteCount front + 2)

theorem endsWord_iff (neighbour : Option Char) : endsWord neighbour = true ↔ Apart neighbour := by
  cases neighbour <;> simp [endsWord, Apart]

def StartsWord (previous : Option Char) (text : List Char) : Prop :=
  ∃ back, text = 'd' :: 'o' :: back ∧ Apart previous ∧ Apart back.head?

theorem startsWord_iff (previous : Option Char) (c : Char) (rest : List Char) :
    (c = 'd' && rest.head? = some 'o' && endsWord previous && endsWord rest[1]?) = true ↔
      StartsWord previous (c :: rest) := by
  simp only [Bool.and_eq_true, decide_eq_true_eq, endsWord_iff]
  constructor
  · rintro ⟨⟨⟨rfl, second⟩, before⟩, behind⟩
    obtain ⟨back, rfl⟩ := List.head?_eq_some_iff.mp second
    exact ⟨back, rfl, before, by simpa [List.head?_eq_getElem?] using behind⟩
  · rintro ⟨back, same, before, behind⟩
    obtain ⟨rfl, rfl⟩ := List.cons.inj same
    exact ⟨⟨⟨rfl, rfl⟩, before⟩, by simpa [List.head?_eq_getElem?] using behind⟩

theorem getLast?_cons_or (c : Char) (front : List Char) (previous : Option Char) :
    (c :: front).getLast?.or previous = front.getLast?.or (some c) := by
  rw [List.getLast?_cons]
  cases front.getLast? <;> rfl

theorem Opens.pos (opens : Opens previous text stop) : 1 ≤ stop := by
  cases opens <;> omega

theorem opens_cons (brace : c ≠ '\x7b') (word : ¬StartsWord previous (c :: rest)) :
    Opens previous (c :: rest) stop ↔ ∃ less, stop = c.utf8Size + less ∧ Opens (some c) rest less := by
  constructor
  · rintro (@⟨front, back, split⟩ | @⟨front, back, split, before, behind⟩)
    · cases front with
      | nil => exact absurd (List.cons.inj split).1 brace
      | cons first front =>
          obtain ⟨rfl, rfl⟩ := List.cons.inj split
          exact ⟨_, by rw [Text.byteCount, Nat.add_assoc], .brace rfl⟩
    · cases front with
      | nil => exact absurd ⟨back, split, before, behind⟩ word
      | cons first front =>
          obtain ⟨rfl, rfl⟩ := List.cons.inj split
          rw [getLast?_cons_or] at before
          exact ⟨_, by rw [Text.byteCount, Nat.add_assoc], .word rfl before behind⟩
  · rintro ⟨_, rfl, @⟨front, back, rfl⟩ | @⟨front, back, rfl, before, behind⟩⟩
    · have longer : Opens previous (c :: (front ++ '\x7b' :: back))
          (Text.byteCount (c :: front) + 1) := .brace rfl
      rwa [Text.byteCount, Nat.add_assoc] at longer
    · rw [← getLast?_cons_or c front previous] at before
      have longer : Opens previous (c :: (front ++ 'd' :: 'o' :: back))
          (Text.byteCount (c :: front) + 2) := .word rfl before behind
      rwa [Text.byteCount, Nat.add_assoc] at longer

/-- The walk stops behind the opener that ends first, and comes to the end if there is none. -/
theorem blockOpenerEnd_first (offset : Nat) (previous : Option Char) (text : List Char) :
    (∃ least, blockOpenerEnd offset previous text = some (offset + least) ∧
      Opens previous text least ∧ ∀ stop, Opens previous text stop → least ≤ stop) ∨
    (blockOpenerEnd offset previous text = none ∧ ∀ stop, ¬Opens previous text stop) := by
  induction text generalizing offset previous with
  | nil =>
      refine .inr ⟨rfl, ?_⟩
      rintro _ (⟨split⟩ | ⟨split, _, _⟩) <;> simp at split
  | cons c rest ih =>
      rw [blockOpenerEnd]
      by_cases brace : c = '\x7b'
      · subst brace
        rw [if_pos rfl]
        exact .inl ⟨1, rfl, @Opens.brace previous _ [] rest rfl, fun _ opens => opens.pos⟩
      rw [if_neg brace]
      by_cases word : StartsWord previous (c :: rest)
      · rw [if_pos ((startsWord_iff previous c rest).mpr word)]
        obtain ⟨back, split, before, behind⟩ := word
        refine .inl ⟨2, rfl, @Opens.word previous _ [] back split before behind, ?_⟩
        -- a brace further on ends behind both letters
        rintro _ (@⟨front, other, same⟩ | _)
        · cases front with
          | nil => exact absurd (List.cons.inj same).1 brace
          | cons first front =>
              have positive := first.utf8Size_pos
              rw [Text.byteCount]
              omega
        · omega
      · rw [if_neg (mt (startsWord_iff previous c rest).mp word)]
        simp only [opens_cons brace word]
        rcases ih (offset + c.utf8Size) (some c) with ⟨least, found, opens, first⟩ | ⟨none, free⟩
        · refine .inl ⟨c.utf8Size + least, by rw [found, Nat.add_assoc], ⟨least, rfl, opens⟩, ?_⟩
          rintro _ ⟨less, rfl, later⟩
          exact Nat.add_le_add_left (first less later) _
        · refine .inr ⟨none, ?_⟩
          rintro _ ⟨less, _, later⟩
          exact free less later

end Walk

theorem openerEnd_iff {ahead tail : List Char} {stop : Nat} :
    OpenerEnd (ahead ++ tail) (Text.byteCount ahead) stop ↔
      ∃ less, stop = Text.byteCount ahead + less ∧ Opens none tail less := by
  constructor
  · rintro (@⟨other, front, back, split, size⟩ | @⟨other, front, back, split, size, before, behind⟩)
    · obtain ⟨rfl, rfl⟩ := Text.split_unique split size.symm
      exact ⟨_, Nat.add_assoc _ _ _, .brace rfl⟩
    · obtain ⟨rfl, rfl⟩ := Text.split_unique split size.symm
      exact ⟨_, Nat.add_assoc _ _ _, .word rfl (by simpa using before) behind⟩
  · rintro ⟨_, rfl, @⟨front, back, rfl⟩ | @⟨front, back, rfl, before, behind⟩⟩
    · rw [← Nat.add_assoc]
      exact .brace rfl rfl
    · rw [← Nat.add_assoc]
      exact .word rfl rfl (by simpa using before) behind

/-- An empty block stands right behind the opener that ends first, from its offset on. Where there is
none it stands at the offset itself. -/
theorem empty_block_behind_first_opener {source : List Char} {start : Nat}
    (boundary : Text.isBoundary start source = true) :
    (OpenerEnd source start (resolve source (.afterBlockOpener start)) ∧
      ∀ stop, OpenerEnd source start stop → resolve source (.afterBlockOpener start) ≤ stop) ∨
    ((∀ stop, ¬OpenerEnd source start stop) ∧ resolve source (.afterBlockOpener start) = start) := by
  obtain ⟨ahead, tail, rfl, rfl⟩ := Text.isBoundary_iff.mp boundary
  simp only [resolve, tailFrom_byteCount, openerEnd_iff]
  rcases blockOpenerEnd_first 0 none tail with ⟨least, found, opens, first⟩ | ⟨none, free⟩
  · rw [found, Nat.zero_add, Option.getD_some]
    refine .inl ⟨⟨least, rfl, opens⟩, ?_⟩
    rintro _ ⟨less, rfl, other⟩
    exact Nat.add_le_add_left (first less other) _
  · rw [none]
    refine .inr ⟨?_, rfl⟩
    rintro _ ⟨less, _, opens⟩
    exact free less opens

/-- A call `né` with a block behind two words that only look like an opener. -/
def guardedBlock : List Char := "né(undo, doé)do\x7b\x7d".toList

theorem empty_block_behind_first_opener_guarded :
    Text.isBoundary 3 guardedBlock = true ∧
      OpenerEnd guardedBlock 3 17 ∧ ∀ stop, OpenerEnd guardedBlock 3 stop → 17 ≤ stop := by
  have boundary : Text.isBoundary 3 guardedBlock = true := by decide +kernel
  have place : resolve guardedBlock (.afterBlockOpener 3) = 17 := by decide +kernel
  rcases empty_block_behind_first_opener boundary with first | ⟨_, same⟩
  · rw [place] at first
    exact ⟨boundary, first⟩
  · rw [place] at same
    cases same

end ProbeCoverage.Instrument
