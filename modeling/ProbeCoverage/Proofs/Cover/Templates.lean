import ProbeCoverage.Proofs.Cover.Patterns

/-!
Templates as texts. The placeholders of a text are found from left to right, each from its `%{` to
the next closing brace. A text is a template exactly if all of them are closed and known and one of
them is the node, and a template keeps the whole text: filled in with its own placeholders, it gives
the text back. The patterns of all kinds are such texts, given piece by piece.
-/

namespace ProbeCoverage.Cover

def opener : List Char := ['%', '\x7b']

inductive Place where
  | named (name : String)
  | unclosed
  deriving DecidableEq, Repr

/-- The placeholders of a text from left to right. The text in front of a placeholder holds no `%{`,
and its search goes on behind the closing brace. -/
inductive Places : List Char → List Place → Prop
  | nothing {text : List Char} : ¬opener <:+: text → Places text []
  | unclosed {front rest : List Char} :
      ¬opener <:+: front → '\x7d' ∉ rest → Places (front ++ (opener ++ rest)) [.unclosed]
  | named {front name rest : List Char} {places : List Place} :
      ¬opener <:+: front → '\x7d' ∉ name → Places rest places →
        Places (front ++ (opener ++ (name ++ '\x7d' :: rest)))
          (.named (String.ofList name) :: places)

def placeholderNames (trackers : List Tracker) : List String :=
  "node" :: "local" :: trackers.map Tracker.placeholder

namespace Place

def Known (trackers : List Tracker) : Place → Prop
  | .named name => name ∈ placeholderNames trackers
  | .unclosed => False

instance (trackers : List Tracker) : DecidablePred (Known trackers)
  | .named name => inferInstanceAs (Decidable (name ∈ placeholderNames trackers))
  | .unclosed => inferInstanceAs (Decidable False)

def fault? (template : String) (trackers : List Tracker) : Place → Option Template.Error
  | .named name =>
      if name ∈ placeholderNames trackers then none else some (.unknownPlaceholder name template)
  | .unclosed => some (.unterminatedPlaceholder template)

theorem fault?_eq_none {template : String} {trackers : List Tracker} {place : Place} :
    place.fault? template trackers = none ↔ place.Known trackers := by
  cases place <;> simp [fault?, Known]

end Place

section Search

variable {text : List Char}

theorem opener_cons (c : Char) (text : List Char) :
    opener <:+: c :: text ↔ (c = '%' ∧ text.head? = some '\x7b') ∨ opener <:+: text := by
  rw [List.infix_cons_iff]
  cases text with
  | nil => simp [opener]
  | cons d text => simp [opener, List.cons_prefix_cons, eq_comm]

theorem first_opener (holds : opener <:+: text) :
    ∃ front rest, text = front ++ (opener ++ rest) ∧ ¬opener <:+: front := by
  induction text with
  | nil => simp [opener] at holds
  | cons c text ih =>
      by_cases here : c = '%' ∧ text.head? = some '\x7b'
      · obtain ⟨rfl, follows⟩ := here
        obtain ⟨rest, rfl⟩ := List.head?_eq_some_iff.mp follows
        exact ⟨[], rest, rfl, by decide⟩
      · have later := ((opener_cons c text).mp holds).resolve_left here
        obtain ⟨front, rest, rfl, plain⟩ := ih later
        refine ⟨c :: front, rest, rfl, ?_⟩
        rw [opener_cons, not_or]
        refine ⟨?_, plain⟩
        rintro ⟨rfl, follows⟩
        apply here
        refine ⟨rfl, ?_⟩
        cases front with
        | nil => cases follows
        | cons d front => exact follows

theorem exists_places (text : List Char) : ∃ places, Places text places := by
  induction size : text.length using Nat.strongRecOn generalizing text with
  | ind length ih =>
      by_cases holds : opener <:+: text
      · obtain ⟨front, rest, rfl, plain⟩ := first_opener holds
        by_cases closes : '\x7d' ∈ rest
        · obtain ⟨name, behind, rfl, free⟩ := List.eq_append_cons_of_mem closes
          have shorter : behind.length < length := by
            rw [← size]
            simp only [List.length_append, List.length_cons]
            omega
          obtain ⟨places, found⟩ := ih _ shorter behind rfl
          exact ⟨_, .named plain free found⟩
        · exact ⟨_, .unclosed plain closes⟩
      · exact ⟨[], .nothing holds⟩

end Search

namespace Template

section Scan

variable {template : String} {trackers : List Tracker} {read front name rest : List Char}

def literalMode (held : Bool) (read : List Char) : Mode :=
  if held then .percent read else .text read

def heldText (held : Bool) : List Char :=
  if held then ['%'] else []

theorem scan_step {held : Bool} {c : Char} (literal : ¬(held = true ∧ c = '\x7b'))
    (read rest : List Char) :
    scan template trackers (literalMode held read) (c :: rest) =
      scan template trackers (literalMode (c = '%')
        (if c = '%' then heldText held ++ read else c :: (heldText held ++ read))) rest := by
  by_cases percent : c = '%'
  · cases held <;> simp [literalMode, heldText, scan, percent]
  · cases held with
    | false => simp [literalMode, heldText, scan, percent]
    | true =>
        have other : c ≠ '\x7b' := fun brace => literal ⟨rfl, brace⟩
        simp [literalMode, heldText, scan, percent, other]

theorem scan_literal {held : Bool} (plain : ¬opener <:+: heldText held ++ front)
    (read rest : List Char) :
    ∃ holds kept, heldText holds ++ kept = front.reverse ++ (heldText held ++ read) ∧
      scan template trackers (literalMode held read) (front ++ rest) =
        scan template trackers (literalMode holds kept) rest := by
  -- a percent sign is held back until the next character shows that it is text
  induction front generalizing held read with
  | nil => exact ⟨held, read, rfl, rfl⟩
  | cons c front ih =>
      have literal : ¬(held = true ∧ c = '\x7b') := by
        rintro ⟨rfl, rfl⟩
        exact plain ⟨[], front, rfl⟩
      have behind : ¬opener <:+: heldText (c = '%') ++ front := by
        intro holds
        apply plain
        apply List.infix_append_of_infix_right
        by_cases percent : c = '%'
        · simpa [heldText, percent] using holds
        · exact List.infix_cons (by simpa [heldText, percent] using holds)
      obtain ⟨holds, kept, same, scanned⟩ := ih behind
        (if c = '%' then heldText held ++ read else c :: (heldText held ++ read))
      refine ⟨holds, kept, ?_, ?_⟩
      · rw [same]
        by_cases percent : c = '%' <;> simp [heldText, percent]
      · rw [List.cons_append, scan_step literal, scanned]

theorem scan_nothing (plain : ¬opener <:+: front) :
    scan template trackers (.text []) front = .ok (textSegment front.reverse) := by
  obtain ⟨holds, kept, same, scanned⟩ := @scan_literal template trackers front false plain [] []
  have ends : scan template trackers (literalMode holds kept) [] =
      .ok (textSegment (heldText holds ++ kept)) := by
    cases holds <;> rfl
  rw [same, ← scanned, List.append_nil, ← List.append_assoc, List.append_nil] at ends
  simpa [heldText, literalMode] using ends

theorem scan_front (plain : ¬opener <:+: front) (rest : List Char) :
    scan template trackers (.text []) (front ++ (opener ++ rest)) =
      (scan template trackers (.name []) rest).map (textSegment front.reverse ++ ·) := by
  obtain ⟨holds, kept, same, scanned⟩ :=
    @scan_literal template trackers front false plain [] (opener ++ rest)
  have opens : scan template trackers (literalMode holds kept) (opener ++ rest) =
      (scan template trackers (.name []) rest).map (textSegment (heldText holds ++ kept) ++ ·) := by
    cases holds <;> simp [literalMode, heldText, opener, scan]
  rw [same, ← scanned] at opens
  simpa [heldText, literalMode] using opens

theorem scan_name (free : '\x7d' ∉ name) (read rest : List Char) :
    scan template trackers (.name read) (name ++ '\x7d' :: rest) =
      scan template trackers (.name (name.reverse ++ read)) ('\x7d' :: rest) := by
  induction name generalizing read with
  | nil => rfl
  | cons c name ih =>
      simp only [List.mem_cons, not_or] at free
      have other : c ≠ '\x7d' := Ne.symm free.1
      rw [List.cons_append, scan]
      simp [other, ih free.2]

theorem scan_unclosed (free : '\x7d' ∉ rest) (read : List Char) :
    scan template trackers (.name read) rest = .error (.unterminatedPlaceholder template) := by
  induction rest generalizing read with
  | nil => rfl
  | cons c rest ih =>
      simp only [List.mem_cons, not_or] at free
      have other : c ≠ '\x7d' := Ne.symm free.1
      rw [scan]
      simp [other, ih free.2]

theorem scan_known {segment : Segment} (free : '\x7d' ∉ name)
    (names : segment? trackers (String.ofList name) = some segment) (rest : List Char) :
    scan template trackers (.name []) (name ++ '\x7d' :: rest) =
      (scan template trackers (.text []) rest).map (segment :: ·) := by
  rw [scan_name free, scan]
  simp [names]

theorem scan_unknown (free : '\x7d' ∉ name)
    (unnamed : segment? trackers (String.ofList name) = none) (rest : List Char) :
    scan template trackers (.name []) (name ++ '\x7d' :: rest) =
      .error (.unknownPlaceholder (String.ofList name) template) := by
  rw [scan_name free, scan]
  simp [unnamed]

end Scan

section Pieces

variable {template name : String} {trackers : List Tracker} {text : List Char}
variable {places : List Place}

theorem segment?_known (known : name ∈ placeholderNames trackers) :
    ∃ segment, segment? trackers name = some segment ∧ segment.source = placeholderText name ∧
      (segment = .node ↔ name = "node") ∧
      ∀ counter, segment = .tracker counter → counter ∈ trackers := by
  unfold segment?
  by_cases node : name = "node"
  · subst node
    exact ⟨.node, rfl, rfl, by simp, by simp⟩
  · by_cases temporary : name = "local"
    · subst temporary
      exact ⟨.temporary, rfl, rfl, by decide, by simp⟩
    · simp only [placeholderNames, List.mem_cons, node, temporary, false_or, List.mem_map] at known
      obtain ⟨counter, listed, rfl⟩ := known
      cases found : trackers.find? fun other => other.placeholder == counter.placeholder with
      | none => exact absurd (List.find?_eq_none.mp found counter listed) (by simp)
      | some other =>
          have same : other.placeholder = counter.placeholder := by
            simpa using List.find?_some found
          refine ⟨.tracker other, by simp [node, temporary], ?_, by simp [node], ?_⟩
          · rw [Segment.source, same]
          · rintro _ ⟨⟩
            exact List.mem_of_find?_eq_some found

theorem segment?_unknown (unknown : name ∉ placeholderNames trackers) :
    segment? trackers name = none := by
  simp only [placeholderNames, List.mem_cons, List.mem_map, not_or, not_exists, not_and] at unknown
  obtain ⟨node, temporary, free⟩ := unknown
  simp only [segment?, node, temporary, beq_iff_eq, if_false, Option.map_eq_none_iff,
    List.find?_eq_none]
  exact free

/-- The pieces of a text: they spell it, and tell its placeholders. -/
structure Spells (trackers : List Tracker) (text : List Char) (places : List Place)
    (segments : List Segment) : Prop where
  source : (Pattern.source segments).toList = text
  nodes : segments.count .node = places.count (.named "node")
  declared : ∀ counter ∈ trackersOf segments, counter ∈ trackers

theorem source_append (first second : List Segment) :
    Pattern.source (first ++ second) = Pattern.source first ++ Pattern.source second := by
  simp [Pattern.source, String.join_append]

theorem source_textSegment (read : List Char) :
    (Pattern.source (textSegment read)).toList = read.reverse := by
  cases read with
  | nil => rfl
  | cons c read => simp [textSegment, Pattern.source, Segment.source, String.join]

theorem spells_text (text : List Char) : Spells trackers text [] (textSegment text.reverse) where
  source := by rw [source_textSegment, List.reverse_reverse]
  nodes := by cases text.reverse <;> rfl
  declared := by cases text.reverse <;> simp [textSegment, trackersOf, Segment.tracker?]

theorem Spells.append {first second : List Char} {left right : List Place}
    {front back : List Segment} (before : Spells trackers first left front)
    (behind : Spells trackers second right back) :
    Spells trackers (first ++ second) (left ++ right) (front ++ back) where
  source := by rw [source_append, String.toList_append, before.source, behind.source]
  nodes := by rw [List.count_append, List.count_append, before.nodes, behind.nodes]
  declared := by
    intro counter member
    rw [trackersOf, List.filterMap_append, List.mem_append] at member
    rcases member with inside | inside
    · exact before.declared counter inside
    · exact behind.declared counter inside

theorem spells_placeholder {name : List Char} {segment : Segment}
    (spelled : segment.source = placeholderText (String.ofList name))
    (node : segment = .node ↔ String.ofList name = "node")
    (declared : ∀ counter, segment = .tracker counter → counter ∈ trackers) :
    Spells trackers (opener ++ (name ++ ['\x7d'])) [.named (String.ofList name)] [segment] where
  source := by
    simp [Pattern.source, String.join, spelled, placeholderText, opener]
  nodes := by simp [List.count_singleton, node]
  declared := by
    intro counter member
    cases segment <;> simp_all [trackersOf, Segment.tracker?]

/-- The first placeholder that is unclosed or unknown stops the search, and without one the pieces
are those of the text. -/
theorem scan_places (found : Places text places) :
    (∃ error, places.findSome? (Place.fault? template trackers) = some error ∧
      scan template trackers (.text []) text = .error error) ∨
    (places.findSome? (Place.fault? template trackers) = none ∧
      ∃ segments, scan template trackers (.text []) text = .ok segments ∧
        Spells trackers text places segments) := by
  induction found with
  | nothing plain => exact .inr ⟨rfl, _, scan_nothing plain, spells_text _⟩
  | unclosed plain free =>
      refine .inl ⟨_, rfl, ?_⟩
      rw [scan_front plain, scan_unclosed free]
      rfl
  | @named front name rest places plain free found ih =>
      rw [scan_front plain]
      by_cases known : String.ofList name ∈ placeholderNames trackers
      · obtain ⟨segment, names, spelled, node, declared⟩ := segment?_known known
        have passed : Place.fault? template trackers (.named (String.ofList name)) = none :=
          Place.fault?_eq_none.mpr known
        rw [scan_known free names, List.findSome?_cons_of_isNone (by rw [passed]; rfl)]
        rcases ih with ⟨error, first, scanned⟩ | ⟨faultless, segments, scanned, spells⟩
        · exact .inl ⟨error, first, by rw [scanned]; rfl⟩
        · -- literal text, the placeholder, and what is found behind it
          have whole := (spells_text front).append
            ((spells_placeholder spelled node declared).append spells)
          exact .inr ⟨faultless, _, by rw [scanned]; rfl, by simpa using whole⟩
      · rw [scan_unknown free (segment?_unknown known)]
        exact .inl ⟨_, by simp [Place.fault?, known], rfl⟩

end Pieces

section Filling

variable {filling : Filling} {segments : List Segment}

def filledText (filling : Filling) : Segment → String
  | .text value => value
  | .node => ""
  | .temporary => filling.temporary
  | .tracker counter => (filling.probe? counter).getD ""

def asWritten : Filling where
  temporary := placeholderText "local"
  probe? counter := some (placeholderText counter.placeholder)

theorem fill_probed (probed : ∀ counter ∈ trackersOf segments, (filling.probe? counter).isSome) :
    fill filling segments = some (String.join (segments.map (filledText filling))) := by
  induction segments with
  | nil => rfl
  | cons segment rest ih =>
      rw [List.map_cons, String.join_cons]
      cases segment with
      | text | node | temporary => simp [fill, ih probed, filledText]
      | tracker counter =>
          have later := ih fun other member => probed other (List.mem_cons_of_mem counter member)
          obtain ⟨probe, here⟩ := Option.isSome_iff_exists.mp (probed counter List.mem_cons_self)
          simp [fill, filledText, here, later]

theorem fill_asWritten (free : .node ∉ segments) :
    fill asWritten segments = some (Pattern.source segments) := by
  rw [fill_probed fun _ _ => rfl, Pattern.source]
  congr 2
  apply List.map_congr_left
  intro segment member
  cases segment with
  | node => exact absurd member free
  | text | temporary | tracker => rfl

end Filling

section Reading

variable {source : String} {trackers : List Tracker} {places : List Place} {template : Template}

theorem read_places (trackers : List Tracker) (found : Places source.toList places) :
    (∃ error, places.findSome? (Place.fault? source trackers) = some error ∧
      read source trackers = .error error) ∨
    (places.findSome? (Place.fault? source trackers) = none ∧
      ∃ segments, Spells trackers source.toList places segments ∧
        read source trackers = split source segments) := by
  rcases scan_places found with ⟨error, first, scanned⟩ | ⟨faultless, segments, scanned, spells⟩
  · exact .inl ⟨error, first, by rw [read, scanned]⟩
  · exact .inr ⟨faultless, segments, spells, by rw [read, scanned]⟩

theorem split_ok {segments : List Segment} (ok : split source segments = .ok template) :
    template.before ++ .node :: template.after = segments ∧
      .node ∉ template.before ∧ .node ∉ template.after := by
  by_cases once : segments.count .node = 1
  · rw [split, if_pos once] at ok
    cases ok
    have holds : .node ∈ segments := List.count_pos_iff.mp (by rw [once]; decide)
    have whole := sides_of_pattern holds
    rw [← whole, List.count_append, List.count_cons_self] at once
    have before : .node ∉ frontOf segments := List.count_eq_zero.mp (by omega)
    have behind : .node ∉ backOf segments := List.count_eq_zero.mp (by omega)
    exact ⟨whole, before, behind⟩
  · rw [split, if_neg once] at ok
    cases ok

theorem read_ok (ok : read source trackers = .ok template) :
    Pattern.source (template.before ++ .node :: template.after) = source ∧
      (.node ∉ template.before ∧ .node ∉ template.after) ∧
      ∀ counter ∈ trackersOf template.before ++ trackersOf template.after, counter ∈ trackers := by
  obtain ⟨places, found⟩ := exists_places source.toList
  rcases read_places trackers found with ⟨error, _, failed⟩ | ⟨_, segments, spells, same⟩
  · rw [failed] at ok
    cases ok
  · obtain ⟨rfl, free⟩ := split_ok (same ▸ ok)
    refine ⟨String.toList_inj.mp spells.source, free, ?_⟩
    intro counter member
    apply spells.declared
    simpa [trackersOf, List.filterMap_cons, Segment.tracker?] using member

theorem render_asWritten (ok : read source trackers = .ok template) :
    ∃ front back, template.render asWritten = some (front, back) ∧
      front ++ placeholderText "node" ++ back = source := by
  obtain ⟨rfl, ⟨before, behind⟩, _⟩ := read_ok ok
  refine ⟨Pattern.source template.before, Pattern.source template.after, ?_, ?_⟩
  · rw [render, fill_asWritten before, fill_asWritten behind]
  · rw [source_append, String.append_assoc]
    exact congrArg _ String.join_cons.symm

theorem render_probed {filling : Filling} (ok : read source trackers = .ok template)
    (probed : ∀ counter ∈ trackers, (filling.probe? counter).isSome) :
    (template.render filling).isSome := by
  obtain ⟨_, _, declared⟩ := read_ok ok
  have before := fill_probed fun counter member =>
    probed counter (declared counter (List.mem_append_left _ member))
  have behind := fill_probed fun counter member =>
    probed counter (declared counter (List.mem_append_right _ member))
  rw [render, before, behind]
  rfl

theorem faultless_iff (source : String) (trackers : List Tracker) (places : List Place) :
    places.findSome? (Place.fault? source trackers) = none ↔
      ∀ place ∈ places, place.Known trackers := by
  simp only [List.findSome?_eq_none_iff, Place.fault?_eq_none]

/-- A text is read exactly if all its placeholders are closed and known and one of them is the node.
Otherwise the leftmost that is unclosed or unknown is reported, or the node if there is none. A
template that is read still holds the whole text, and it can be filled in if all trackers have
probes. -/
theorem read_exact_and_lossless (source : String) (trackers : List Tracker) :
    (∃ places, Places source.toList places) ∧
    (∀ places, Places source.toList places →
      ((∃ template, read source trackers = .ok template) ↔
        (∀ place ∈ places, place.Known trackers) ∧ places.count (.named "node") = 1) ∧
      ∀ error, read source trackers = .error error ↔
        places.findSome? (Place.fault? source trackers) = some error ∨
        ((∀ place ∈ places, place.Known trackers) ∧ places.count (.named "node") ≠ 1 ∧
          error = .nodePlaceholder source)) ∧
    ∀ template, read source trackers = .ok template →
      (∃ front back, template.render asWritten = some (front, back) ∧
        front ++ placeholderText "node" ++ back = source) ∧
      ∀ filling : Filling, (∀ counter ∈ trackers, (filling.probe? counter).isSome) →
        (template.render filling).isSome := by
  refine ⟨exists_places _, ?_, ?_⟩
  · intro places found
    simp only [← faultless_iff source]
    rcases read_places trackers found with
      ⟨fault, first, failed⟩ | ⟨faultless, segments, spells, same⟩
    · rw [failed, first]
      simp
    · rw [same, split, spells.nodes, faultless]
      by_cases once : places.count (.named "node") = 1
      · simp [once]
      · simp [once, eq_comm]
  · intro template ok
    exact ⟨render_asWritten ok, fun _ probed => render_probed ok probed⟩

def strayText : String := "%%\x7bnode\x7d%\x7d\x7b%\x7bbranch_tracker\x7d%"

theorem read_exact_and_lossless_stray :
    Places strayText.toList [.named "node", .named "branch_tracker"] ∧
    (∃ template, read strayText [.branch] = .ok template ∧
      (∃ front back, template.render asWritten = some (front, back) ∧
        front ++ placeholderText "node" ++ back = strayText) ∧
      (template.render ⟨"t", fun _ => some "p"⟩).isSome) ∧
    read strayText [.call] = .error (.unknownPlaceholder "branch_tracker" strayText) := by
  have behind : Places "%\x7d\x7b%\x7bbranch_tracker\x7d%".toList [.named "branch_tracker"] :=
    @Places.named "%\x7d\x7b".toList "branch_tracker".toList ['%'] [] (by decide) (by decide)
      (.nothing (by decide))
  have found : Places strayText.toList [.named "node", .named "branch_tracker"] :=
    @Places.named ['%'] "node".toList _ _ (by decide) (by decide) behind
  obtain ⟨_, known, rendered⟩ := read_exact_and_lossless strayText [.branch]
  obtain ⟨_, unknown, _⟩ := read_exact_and_lossless strayText [.call]
  obtain ⟨template, ok⟩ := (known _ found).1.mpr (by decide)
  obtain ⟨whole, filled⟩ := rendered template ok
  exact ⟨found, ⟨template, ok, whole, filled _ fun _ _ => rfl⟩,
    ((unknown _ found).2 _).mpr (.inl (by decide))⟩

end Reading

section Patterns

variable {template : String} {trackers : List Tracker} {filling : Filling}
variable {read name text : List Char} {pattern : Pattern} {segment : Segment}

/-- A pattern with its neighbouring texts joined, and `read` in front of it, last character first. -/
def joined (read : List Char) : Pattern → List Segment
  | [] => textSegment read
  | .text value :: rest => joined (value.toList.reverse ++ read) rest
  | segment :: rest => textSegment read ++ segment :: joined [] rest

theorem scan_text (plain : '%' ∉ text) (read rest : List Char) :
    scan template trackers (.text read) (text ++ rest) =
      scan template trackers (.text (text.reverse ++ read)) rest := by
  induction text generalizing read with
  | nil => rfl
  | cons c text ih =>
      simp only [List.mem_cons, not_or] at plain
      have other : c ≠ '%' := Ne.symm plain.1
      rw [List.cons_append, scan]
      simp [other, ih plain.2]

theorem scan_opener (read rest : List Char) :
    scan template trackers (.text read) (opener ++ rest) =
      (scan template trackers (.name []) rest).map (textSegment read ++ ·) := by
  simp [opener, scan]

theorem placeholder_injective {counter other : Tracker}
    (same : counter.placeholder = other.placeholder) : counter = other := by
  have names : counter.name = other.name := by simpa [Tracker.placeholder] using same
  cases counter <;> cases other <;> first | rfl | simp [Tracker.name] at names

theorem segment?_placeholder (counter : Tracker) :
    segment? trackers counter.placeholder =
      if counter ∈ trackers then some (.tracker counter) else none := by
  have node : counter.placeholder ≠ "node" := by cases counter <;> decide
  have temporary : counter.placeholder ≠ "local" := by cases counter <;> decide
  have found : (trackers.find? fun other => other.placeholder == counter.placeholder) =
      if counter ∈ trackers then some counter else none := by
    induction trackers with
    | nil => rfl
    | cons other rest ih =>
        by_cases same : other = counter
        · simp [same]
        · have differs : other.placeholder ≠ counter.placeholder := mt placeholder_injective same
          simp [differs, ih, Ne.symm same]
  simp only [segment?, beq_iff_eq, node, temporary, if_false, found]
  split <;> rfl

theorem free_placeholder (counter : Tracker) : '\x7d' ∉ counter.placeholder.toList := by
  cases counter <;> decide

theorem scan_placeholder (free : '\x7d' ∉ name)
    (names : segment? trackers (String.ofList name) = some segment) (read rest : List Char) :
    scan template trackers (.text read) (opener ++ (name ++ '\x7d' :: rest)) =
      (scan template trackers (.text []) rest).map (textSegment read ++ segment :: ·) := by
  rw [scan_opener, scan_known free names]
  cases scan template trackers (.text []) rest <;> rfl

theorem source_cons (segment : Segment) (rest : Pattern) :
    (Pattern.source (segment :: rest)).toList = segment.source.toList ++ rest.source.toList := by
  simp [Pattern.source, String.join_cons]

theorem toList_placeholderText (name : String) (rest : List Char) :
    (placeholderText name).toList ++ rest = opener ++ (name.toList ++ '\x7d' :: rest) := by
  simp [placeholderText, opener]

/-- Reading back what a pattern spells, by induction over the pattern: its first tracker that is not
at hand is refused, and without one its pieces are found. -/
theorem scan_source (plain : pattern.all (Segment.lacks '%') = true) (read : List Char) :
    scan template trackers (.text read) pattern.source.toList =
      match undeclared? trackers pattern with
      | some counter => .error (.unknownPlaceholder counter.placeholder template)
      | none => .ok (joined read pattern) := by
  induction pattern generalizing read with
  | nil => rfl
  | cons segment rest ih =>
      obtain ⟨literal, later⟩ := Bool.and_eq_true_iff.mp plain
      have known {segment : Segment} {name : List Char} (free : '\x7d' ∉ name)
          (names : segment? trackers (String.ofList name) = some segment)
          (listed : undeclared? trackers (segment :: rest) = undeclared? trackers rest)
          (apart : joined read (segment :: rest) = textSegment read ++ segment :: joined [] rest) :
          scan template trackers (.text read)
              (opener ++ (name ++ '\x7d' :: (Pattern.source rest).toList)) =
            match undeclared? trackers (segment :: rest) with
            | some counter => .error (.unknownPlaceholder counter.placeholder template)
            | none => .ok (joined read (segment :: rest)) := by
        rw [scan_placeholder free names, ih later, listed, apart]
        cases undeclared? trackers rest <;> rfl
      rw [source_cons]
      cases segment with
      | text value =>
          rw [Segment.source, scan_text (of_decide_eq_true literal), ih later]
          rfl
      | node | temporary =>
          rw [Segment.source, toList_placeholderText]
          exact known (by decide) rfl rfl rfl
      | tracker counter =>
          have free := free_placeholder counter
          have names := @segment?_placeholder trackers counter
          rw [← @String.ofList_toList counter.placeholder] at names
          rw [Segment.source, toList_placeholderText]
          by_cases listed : counter ∈ trackers
          · rw [if_pos listed] at names
            exact known free names (by simp [undeclared?, listed]) rfl
          · rw [if_neg listed] at names
            rw [scan_opener, scan_unknown free names, String.ofList_toList]
            simp [undeclared?, listed, Except.map]

theorem count_joined (read : List Char) (pattern : Pattern) :
    (joined read pattern).count .node = pattern.count .node := by
  have none (read : List Char) : (textSegment read).count .node = 0 := by cases read <;> rfl
  fun_induction joined read pattern with
  | case1 read => exact none read
  | case2 read value rest ih => simp [ih]
  | case3 read segment rest other ih => simp [List.count_append, none, List.count_cons, ih]

theorem joined_sides (read : List Char) (front back : Pattern) :
    joined read (front ++ .node :: back) = joined read front ++ .node :: joined [] back := by
  fun_induction joined read front with
  | case1 read => rfl
  | case2 read value rest ih => exact ih
  | case3 read segment rest other ih =>
      rw [List.cons_append, joined, ih]
      · simp
      · exact other

theorem fill_textSegment (read : List Char) (rest : List Segment) :
    fill filling (textSegment read ++ rest) =
      (fill filling rest).map (String.ofList read.reverse ++ ·) := by
  cases read with
  | nil => simp [textSegment]
  | cons c read => rfl

theorem fill_joined (read : List Char) (pattern : Pattern) :
    fill filling (joined read pattern) =
      (fill filling pattern).map (String.ofList read.reverse ++ ·) := by
  fun_induction joined read pattern with
  | case1 read => simpa using fill_textSegment read []
  | case2 read value rest ih =>
      rw [ih, fill, Option.map_map]
      congr 1
      funext later
      simp [String.append_assoc]
  | case3 read segment rest other ih =>
      rw [fill_textSegment]
      congr 1
      have same : fill filling (joined [] rest) = fill filling rest := by simpa using ih
      cases segment with
      | text value => exact absurd rfl (other value)
      | node | temporary | tracker => simp only [fill, same]

theorem sides_of_append {front back : List Segment} (free : .node ∉ front) :
    frontOf (front ++ .node :: back) = front ∧ backOf (front ++ .node :: back) = back := by
  induction front with
  | nil => exact ⟨rfl, rfl⟩
  | cons segment front ih =>
      simp only [List.mem_cons, not_or] at free
      obtain ⟨other, later⟩ := free
      obtain ⟨before, behind⟩ := ih later
      constructor
      · simpa [frontOf, Ne.symm other] using before
      · simpa [backOf, Ne.symm other] using behind

theorem sides_joined (once : pattern.count .node = 1) :
    frontOf (joined [] pattern) = joined [] (frontOf pattern) ∧
      backOf (joined [] pattern) = joined [] (backOf pattern) := by
  have sides := sides_of_pattern (List.count_pos_iff.mp (by omega : 0 < pattern.count .node))
  have counts := congrArg (List.count .node) sides
  rw [List.count_append, List.count_cons_self] at counts
  have free : .node ∉ joined [] (frontOf pattern) := by
    rw [← List.count_eq_zero, count_joined]
    omega
  have apart := @sides_of_append _ (joined [] (backOf pattern)) free
  rwa [← joined_sides, sides] at apart

/-- A pattern, written out and read again, is the same template up to how its text is cut: it is
refused for the same reason, or filled to the same texts. -/
theorem render_read_source (plain : pattern.all (Segment.lacks '%') = true)
    (trackers : List Tracker) (filling : Filling) :
    (Template.read pattern.source trackers).map (·.render filling) =
      (ofPattern pattern trackers).map (·.render filling) := by
  rw [Template.read, scan_source plain, ofPattern]
  cases undeclared? trackers pattern with
  | some counter => rfl
  | none =>
      by_cases once : pattern.count .node = 1
      · obtain ⟨front, back⟩ := sides_joined once
        have before : fill filling (frontOf (joined [] pattern)) =
            fill filling (frontOf pattern) := by
          rw [front, fill_joined]
          simp
        have after : fill filling (backOf (joined [] pattern)) = fill filling (backOf pattern) := by
          rw [back, fill_joined]
          simp
        simp only [frontOf, backOf] at before after
        simp only [split, count_joined, if_pos once, Except.map, render, before, after]
      · simp only [split, count_joined, if_neg once, Except.map]

/-- Every pattern of a kind is what its text is read as. -/
theorem render_read_patterns {kind : Kind} {count : Nat} (listed : pattern ∈ patterns kind count) :
    ∃ template checked, Template.read pattern.source kind.trackers = .ok template ∧
      ofPattern pattern kind.trackers = .ok checked ∧
      ∀ filling, template.render filling = checked.render filling := by
  obtain ⟨tidy, declared⟩ := pattern_of_listed listed
  have same := render_read_source (tidy.2 '%' (by decide)) kind.trackers
  rw [ofPattern_ok declared tidy.1] at same ⊢
  cases found : Template.read pattern.source kind.trackers with
  | error fault => simpa [found, Except.map] using same asWritten
  | ok template => exact ⟨template, _, rfl, rfl, by simpa [found, Except.map] using same⟩

end Patterns

end Template

end ProbeCoverage.Cover
