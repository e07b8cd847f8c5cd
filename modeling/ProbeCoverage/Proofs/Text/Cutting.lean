import ProbeCoverage.Ast.Node

/-!
Cutting texts at byte offsets. A cut that succeeds splits the text into two parts whose first one
has as many bytes as the offset says, and every split of the text is found by such a cut. Slices next
to each other join to one slice. Bytes and newlines are counted part by part.
-/

namespace ProbeCoverage.Text

@[simp] theorem byteCount_nil : byteCount [] = 0 := rfl

@[simp] theorem byteCount_append (first second : List Char) :
    byteCount (first ++ second) = byteCount first + byteCount second := by
  induction first with
  | nil => simp
  | cons c rest ih => simp only [List.cons_append, byteCount, ih, Nat.add_assoc]

theorem eq_nil_of_byteCount {text : List Char} (none : byteCount text = 0) : text = [] := by
  cases text with
  | nil => rfl
  | cons c rest =>
      have positive := c.utf8Size_pos
      rw [byteCount] at none
      omega

theorem cut?_byteCount (head tail : List Char) :
    cut? (byteCount head) (head ++ tail) = some (head, tail) := by
  induction head with
  | nil => rw [byteCount, cut?, List.nil_append]
  | cons c rest ih =>
      have positive := c.utf8Size_pos
      obtain ⟨less, size⟩ : ∃ less, byteCount (c :: rest) = less + 1 :=
        Nat.exists_eq_succ_of_ne_zero (by rw [byteCount]; omega)
      have fits : c.utf8Size ≤ less + 1 := by
        rw [← size, byteCount]
        omega
      rw [size, List.cons_append, cut?, if_pos fits, ← size, byteCount, Nat.add_sub_cancel_left, ih]
      rfl

theorem cut?_eq_some_iff {offset : Nat} {text head tail : List Char} :
    cut? offset text = some (head, tail) ↔ text = head ++ tail ∧ byteCount head = offset := by
  constructor
  · intro found
    fun_induction cut? offset text generalizing head tail with
    | case1 text => simp_all
    | case2 => simp at found
    | case3 offset c rest fits ih =>
        obtain ⟨⟨before, after⟩, inside, same⟩ := Option.map_eq_some_iff.mp found
        obtain ⟨rfl, rfl⟩ := Prod.mk.inj same
        obtain ⟨rfl, size⟩ := ih inside
        refine ⟨rfl, ?_⟩
        rw [byteCount, size]
        omega
    | case4 => simp at found
  · rintro ⟨rfl, rfl⟩
    exact cut?_byteCount head tail

theorem from?_eq_cut? (offset : Nat) (text : List Char) :
    from? offset text = (cut? offset text).map Prod.snd := by
  fun_induction cut? offset text with
  | case1 text => rw [from?]; rfl
  | case2 => rfl
  | case3 offset c rest fits ih =>
      rw [from?, if_pos fits, ih, Option.map_map]
      rfl
  | case4 offset c rest fits => rw [from?, if_neg fits]; rfl

theorem from?_eq_some_iff {offset : Nat} {text tail : List Char} :
    from? offset text = some tail ↔ ∃ head, text = head ++ tail ∧ byteCount head = offset := by
  rw [from?_eq_cut?, Option.map_eq_some_iff]
  constructor
  · rintro ⟨⟨head, _⟩, found, rfl⟩
    exact ⟨head, cut?_eq_some_iff.mp found⟩
  · rintro ⟨head, split⟩
    exact ⟨(head, tail), cut?_eq_some_iff.mpr split, rfl⟩

theorem isBoundary_iff {offset : Nat} {text : List Char} :
    isBoundary offset text = true ↔ ∃ head tail, text = head ++ tail ∧ byteCount head = offset := by
  rw [isBoundary, Option.isSome_iff_exists]
  constructor
  · rintro ⟨tail, found⟩
    obtain ⟨head, split⟩ := from?_eq_some_iff.mp found
    exact ⟨head, tail, split⟩
  · rintro ⟨head, tail, split⟩
    exact ⟨tail, from?_eq_some_iff.mpr ⟨head, split⟩⟩

theorem slice?_eq_some_iff {start stop : Nat} {text middle : List Char} :
    slice? start stop text = some middle ↔
      ∃ head tail, text = head ++ (middle ++ tail) ∧ byteCount head = start ∧
        start + byteCount middle = stop := by
  unfold slice?
  constructor
  · intro found
    split at found
    · rename_i ordered
      simp only [Option.bind_eq_bind, Option.bind_eq_some_iff] at found
      obtain ⟨rest, cutAt, ⟨inside, tail⟩, cutAgain, same⟩ := found
      obtain rfl : inside = middle := by simpa using same
      obtain ⟨head, rfl, size⟩ := from?_eq_some_iff.mp cutAt
      obtain ⟨rfl, length⟩ := cut?_eq_some_iff.mp cutAgain
      exact ⟨head, tail, rfl, size, by omega⟩
    · cases found
  · rintro ⟨head, tail, rfl, rfl, rfl⟩
    have first : from? (byteCount head) (head ++ (middle ++ tail)) = some (middle ++ tail) :=
      from?_eq_some_iff.mpr ⟨head, rfl, rfl⟩
    rw [if_pos (Nat.le_add_right _ _), first, Nat.add_sub_cancel_left]
    simp [cut?_byteCount]

/-- Two parts at the front of a text with the same number of bytes are the same part. -/
theorem split_unique {head tail other rest : List Char} (same : head ++ tail = other ++ rest)
    (size : byteCount head = byteCount other) : head = other ∧ tail = rest := by
  have found := cut?_byteCount head tail
  rw [same, size, cut?_byteCount] at found
  simpa [eq_comm] using found

theorem slice?_join {start middle stop : Nat} {text first second : List Char}
    (left : slice? start middle text = some first)
    (right : slice? middle stop text = some second) :
    slice? start stop text = some (first ++ second) := by
  obtain ⟨head, tail, rfl, rfl, rfl⟩ := slice?_eq_some_iff.mp left
  obtain ⟨other, rest, same, size, rfl⟩ := slice?_eq_some_iff.mp right
  obtain ⟨_, rfl⟩ := split_unique ((List.append_assoc head first tail).trans same) (by simp [size])
  exact slice?_eq_some_iff.mpr ⟨head, rest, by simp, rfl, by simp [Nat.add_assoc]⟩

theorem slice?_nothing {offset : Nat} {text : List Char} (boundary : isBoundary offset text = true) :
    slice? offset offset text = some [] := by
  obtain ⟨head, tail, split, size⟩ := isBoundary_iff.mp boundary
  exact slice?_eq_some_iff.mpr ⟨head, tail, split, size, rfl⟩

theorem slice?_whole {text middle : List Char}
    (found : slice? 0 (byteCount text) text = some middle) : middle = text := by
  obtain ⟨head, tail, split, none, size⟩ := slice?_eq_some_iff.mp found
  obtain rfl := eq_nil_of_byteCount none
  have nothing : byteCount tail = 0 := by
    rw [split] at size
    simp only [List.nil_append, byteCount_append] at size
    omega
  rw [split, eq_nil_of_byteCount nothing]
  simp

structure Sliceable (text : List Char) (start stop : Nat) : Prop where
  ordered : start ≤ stop
  inside : stop ≤ byteCount text
  opens : isBoundary start text = true
  closes : isBoundary stop text = true

theorem slice?_isSome_iff {start stop : Nat} {text : List Char} :
    (slice? start stop text).isSome = true ↔ Sliceable text start stop := by
  rw [Option.isSome_iff_exists]
  constructor
  · rintro ⟨middle, found⟩
    obtain ⟨head, tail, rfl, rfl, rfl⟩ := slice?_eq_some_iff.mp found
    refine ⟨Nat.le_add_right _ _, ?_, isBoundary_iff.mpr ⟨head, _, rfl, rfl⟩,
      isBoundary_iff.mpr ⟨head ++ middle, tail, by simp, by simp⟩⟩
    simp only [byteCount_append]
    omega
  · rintro ⟨ordered, _, opens, closes⟩
    obtain ⟨head, tail, rfl, rfl⟩ := isBoundary_iff.mp opens
    obtain ⟨other, rest, split, rfl⟩ := isBoundary_iff.mp closes
    rcases List.append_eq_append_iff.mp split with ⟨middle, rfl, rfl⟩ | ⟨excess, rfl, rfl⟩
    · exact ⟨middle, slice?_eq_some_iff.mpr ⟨head, rest, rfl, rfl, by simp⟩⟩
    · have nothing : byteCount excess = 0 := by
        rw [byteCount_append] at ordered
        omega
      obtain rfl := eq_nil_of_byteCount nothing
      exact ⟨[], slice?_eq_some_iff.mpr ⟨other, tail, by simp, by simp, by simp⟩⟩

theorem slice?_eq_none_iff {start stop : Nat} {text : List Char} :
    slice? start stop text = none ↔ ¬Sliceable text start stop := by
  rw [← slice?_isSome_iff, Option.not_isSome_iff_eq_none]

theorem newlinesBefore_append (head tail : List Char) (offset : Nat) :
    newlinesBefore (byteCount head + offset) (head ++ tail) =
      head.count '\n' + newlinesBefore offset tail := by
  induction head with
  | nil => simp
  | cons c rest ih =>
      have positive := c.utf8Size_pos
      obtain ⟨less, size⟩ : ∃ less, byteCount (c :: rest) + offset = less + 1 :=
        Nat.exists_eq_succ_of_ne_zero (by rw [byteCount]; omega)
      rw [size, List.cons_append, newlinesBefore, ← size, byteCount,
        show c.utf8Size + byteCount rest + offset - c.utf8Size = byteCount rest + offset by omega,
        ih, List.count_cons]
      by_cases newline : c = '\n'
      · simp [newline]
        omega
      · simp [newline]

theorem newlinesBefore_within (text tail : List Char) (offset : Nat)
    (within : offset ≤ byteCount text) :
    newlinesBefore offset (text ++ tail) = newlinesBefore offset text := by
  induction text generalizing offset with
  | nil =>
      obtain rfl : offset = 0 := by simpa using within
      simp [newlinesBefore]
  | cons c rest ih =>
      cases offset with
      | zero => simp [newlinesBefore]
      | succ offset =>
          rw [byteCount] at within
          rw [List.cons_append, newlinesBefore, newlinesBefore, ih _ (by omega)]

@[simp] theorem bytes_append (first second : List Char) :
    bytes (first ++ second) = bytes first ++ bytes second := by
  simp [bytes]

theorem length_bytes (text : List Char) : (bytes text).length = byteCount text := by
  induction text with
  | nil => rfl
  | cons c rest ih =>
      rw [← List.singleton_append, bytes_append, List.length_append, ih, byteCount_append]
      simp [bytes, byteCount]

end ProbeCoverage.Text
