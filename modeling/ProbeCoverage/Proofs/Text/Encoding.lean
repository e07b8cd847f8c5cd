import ProbeCoverage.Proofs.Text.Cutting

/-!
The bytes of characters. Below 128 a byte is a character of its own, and the bytes of any other
character are all from 128 on, so an ASCII letter can be looked for among the bytes of a text.
-/

namespace ProbeCoverage.Text

structure Wide (c : Char) (bytes : List UInt8) : Prop where
  size : bytes.length = c.utf8Size
  high : ∀ byte ∈ bytes, 128 ≤ byte.toNat
  large : 128 ≤ c.toNat

theorem utf8EncodeChar_cases (c : Char) :
    (String.utf8EncodeChar c = [c.toUInt8] ∧ c.utf8Size = 1 ∧ c.toNat < 128) ∨
      Wide c (String.utf8EncodeChar c) := by
  have mask (rest : UInt8) {mark : UInt8} (large : 128 ≤ mark.toNat) :
      128 ≤ (rest ||| mark).toNat := by
    rw [UInt8.toNat_or]
    exact Nat.le_trans large Nat.right_le_or
  by_cases one : c.utf8Size = 1
  · refine .inl ⟨String.utf8EncodeChar_eq_singleton one, one, ?_⟩
    exact Nat.lt_succ_of_le (UInt32.le_iff_toNat_le.mp (Char.utf8Size_eq_one_iff.mp one))
  · refine .inr ⟨String.length_utf8EncodeChar c, ?_, ?_⟩
    · rcases c.utf8Size_eq with single | two | three | four
      · exact absurd single one
      · rw [String.utf8EncodeChar_eq_cons_cons two]
        simp only [List.forall_mem_cons]
        exact ⟨mask _ (by decide), mask _ (by decide), List.forall_mem_nil _⟩
      · rw [String.utf8EncodeChar_eq_cons_cons_cons three]
        simp only [List.forall_mem_cons]
        exact ⟨mask _ (by decide), mask _ (by decide), mask _ (by decide), List.forall_mem_nil _⟩
      · rw [String.utf8EncodeChar_eq_cons_cons_cons_cons four]
        simp only [List.forall_mem_cons]
        exact ⟨mask _ (by decide), mask _ (by decide), mask _ (by decide), mask _ (by decide),
          List.forall_mem_nil _⟩
    · rw [Char.utf8Size_eq_one_iff, UInt32.le_iff_toNat_le] at one
      exact Nat.lt_of_not_le one

theorem bytes_cons (c : Char) (rest : List Char) :
    bytes (c :: rest) = String.utf8EncodeChar c ++ bytes rest := by
  rw [bytes, List.flatMap_cons]
  rfl

variable {c letter : Char}

theorem toUInt8_eq_iff (small : c.toNat < 128) (ascii : letter.toNat < 128) :
    c.toUInt8 = letter.toUInt8 ↔ c = letter := by
  constructor
  · intro same
    have numbers : c.toNat % 256 = letter.toNat % 256 := congrArg UInt8.toNat same
    rw [Nat.mod_eq_of_lt (by omega), Nat.mod_eq_of_lt (by omega)] at numbers
    exact Char.ext (UInt32.toNat.inj numbers)
  · rintro rfl
    rfl

theorem Wide.ne_letter {bytes : List UInt8} (wide : Wide c bytes) (ascii : letter.toNat < 128) :
    c ≠ letter := by
  rintro rfl
  exact absurd wide.large (Nat.not_le.mpr ascii)

theorem Wide.byte_ne {bytes : List UInt8} {byte : UInt8} (wide : Wide c bytes)
    (member : byte ∈ bytes) (ascii : letter.toNat < 128) : byte ≠ letter.toUInt8 := by
  rintro rfl
  have high : 128 ≤ letter.toNat % 256 := wide.high _ member
  omega

theorem head?_bytes_iff (ascii : letter.toNat < 128) (text : List Char) :
    (bytes text).head? = some letter.toUInt8 ↔ text.head? = some letter := by
  cases text with
  | nil => simp [bytes]
  | cons c rest =>
      rw [bytes_cons]
      rcases utf8EncodeChar_cases c with ⟨encoded, _, small⟩ | wide
      · simp [encoded, toUInt8_eq_iff small ascii]
      · have other := wide.ne_letter ascii
        cases encoded : String.utf8EncodeChar c with
        | nil =>
            have size := c.utf8Size_pos
            rw [← wide.size, encoded] at size
            exact absurd size (by decide)
        | cons first others =>
            have apart := wide.byte_ne (encoded ▸ List.mem_cons_self) ascii
            simp [other, apart]

theorem not_mem_bytes {text : List Char} (ascii : letter.toNat < 128) (free : letter ∉ text) :
    letter.toUInt8 ∉ bytes text := by
  intro member
  obtain ⟨c, inside, member⟩ := List.mem_flatMap.mp member
  rcases utf8EncodeChar_cases c with ⟨encoded, _, small⟩ | wide
  · rw [encoded, List.mem_singleton] at member
    exact free ((toUInt8_eq_iff small ascii).mp member.symm ▸ inside)
  · exact wide.byte_ne member ascii rfl

end ProbeCoverage.Text
