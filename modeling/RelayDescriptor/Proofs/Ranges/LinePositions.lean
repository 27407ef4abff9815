import RelayDescriptor.Document.Ranges

/-!
# Positions of lines

The search for documents asks for the first of several byte patterns.  Here each
search is tied to positions: a line starts at the first position and right after
every line feed, and a search finds the least later line start with a given
beginning.  Positions are those of the whole blob, also where a search looks only at
the bytes from some line on.
-/

namespace RelayDescriptor

theorem searchFrom_eq_some_iff {α : Type} [BEq α] [LawfulBEq α]
    {pattern list : List α} {index : Nat} :
    searchFrom pattern 0 list = some index ↔
      index ≤ list.length ∧ pattern <+: list.drop index ∧
        ∀ earlier < index, ¬pattern <+: list.drop earlier := by
  induction list generalizing index with
  | nil =>
      cases pattern with
      | nil =>
          constructor
          · intro found
            cases found
            simp
          · rintro ⟨bound, _, _⟩
            obtain rfl : index = 0 := Nat.le_zero.mp bound
            rfl
      | cons a pattern => simp [searchFrom]
  | cons a rest induction =>
      by_cases here : pattern <+: a :: rest
      · have first : searchFrom pattern 0 (a :: rest) = some 0 := by
          simp [searchFrom, here]
        rw [first]
        constructor
        · intro found
          cases found
          exact ⟨Nat.zero_le _, here, fun earlier below => absurd below (Nat.not_lt_zero _)⟩
        · rintro ⟨_, _, none⟩
          cases index with
          | zero => rfl
          | succ index => exact absurd here (none 0 (Nat.succ_pos index))
      · have later :
            searchFrom pattern 0 (a :: rest) = (searchFrom pattern 0 rest).map (· + 1) := by
          rw [← searchFrom_add]
          simp [searchFrom, here]
        rw [later, Option.map_eq_some_iff]
        constructor
        · rintro ⟨index, found, rfl⟩
          obtain ⟨bound, occurs, none⟩ := induction.mp found
          refine ⟨Nat.succ_le_succ bound, occurs, ?_⟩
          intro earlier below
          cases earlier with
          | zero => exact here
          | succ earlier => exact none earlier (Nat.lt_of_succ_lt_succ below)
        · rintro ⟨bound, occurs, none⟩
          cases index with
          | zero => exact absurd occurs here
          | succ index =>
              refine ⟨index, induction.mpr ⟨Nat.le_of_succ_le_succ bound, occurs, ?_⟩, rfl⟩
              intro earlier below
              exact none (earlier + 1) (Nat.succ_lt_succ below)

theorem searchFrom_eq_none_iff {α : Type} [BEq α] [LawfulBEq α] {pattern list : List α} :
    searchFrom pattern 0 list = none ↔
      ∀ index ≤ list.length, ¬pattern <+: list.drop index := by
  constructor
  · intro absent index
    induction index using Nat.strongRecOn with
    | ind index induction =>
        intro bound occurs
        have found : searchFrom pattern 0 list = some index :=
          searchFrom_eq_some_iff.mpr ⟨bound, occurs, fun earlier below =>
            induction earlier below (Nat.le_trans (Nat.le_of_lt below) bound)⟩
        rw [absent] at found
        cases found
  · intro never
    cases found : searchFrom pattern 0 list with
    | none => rfl
    | some index =>
        obtain ⟨bound, occurs, _⟩ := searchFrom_eq_some_iff.mp found
        exact absurd occurs (never index bound)

namespace Document

/-- A line starts at the first position and right after every line feed. -/
def IsLineStart (bytes : List UInt8) (position : Nat) : Prop :=
  position = 0 ∨ bytes[position - 1]? = some lineFeed

/-- A line with a given beginning starts at a position. -/
def LineAt (beginning bytes : List UInt8) (position : Nat) : Prop :=
  IsLineStart bytes position ∧ beginning <+: bytes.drop position

/-- A line starts at a position with the keyword and a space or a line feed. -/
def KeywordLineAt (keyword bytes : List UInt8) (position : Nat) : Prop :=
  LineAt (spaced keyword) bytes position ∨ LineAt (bare keyword) bytes position

/-- An annotation line starts at a position. -/
def AnnotationAt (bytes : List UInt8) (position : Nat) : Prop := LineAt [atSign] bytes position

variable {beginning keyword bytes : List UInt8} {position count : Nat}

theorem IsLineStart.le_length (starts : IsLineStart bytes position) :
    position ≤ bytes.length := by
  rcases starts with rfl | follows
  · exact Nat.zero_le _
  · have bound := (List.getElem?_eq_some_iff.mp follows).1
    omega

/-- Within the bytes from a position on, later lines start where they start within all bytes. -/
theorem isLineStart_drop (positive : 0 < count) :
    IsLineStart (bytes.drop position) count ↔ IsLineStart bytes (position + count) := by
  have nonzero : count ≠ 0 := Nat.ne_of_gt positive
  have index : position + (count - 1) = position + count - 1 := by omega
  simp [IsLineStart, nonzero, List.getElem?_drop, index]

theorem lineAt_drop (positive : 0 < count) :
    LineAt beginning (bytes.drop position) count ↔ LineAt beginning bytes (position + count) := by
  simp [LineAt, isLineStart_drop positive, List.drop_drop]

theorem lineAt_drop_sub {later : Nat} (behind : position < later) :
    LineAt beginning (bytes.drop position) (later - position) ↔ LineAt beginning bytes later := by
  rw [lineAt_drop (Nat.sub_pos_of_lt behind), Nat.add_sub_cancel' (Nat.le_of_lt behind)]

theorem lineAt_zero : LineAt beginning bytes 0 ↔ beginning <+: bytes := by
  simp [LineAt, IsLineStart]

/-- From a line start on, the same lines start as within all bytes. -/
theorem lineAt_drop_of_isLineStart (aligned : IsLineStart bytes position) :
    LineAt beginning (bytes.drop position) count ↔ LineAt beginning bytes (position + count) := by
  cases count with
  | zero => simp [LineAt, IsLineStart, show position = 0 ∨ _ from aligned]
  | succ count => exact lineAt_drop (Nat.succ_pos count)

theorem keywordLineAt_drop_of_isLineStart (aligned : IsLineStart bytes position) :
    KeywordLineAt keyword (bytes.drop position) count ↔
      KeywordLineAt keyword bytes (position + count) := by
  simp only [KeywordLineAt, lineAt_drop_of_isLineStart aligned]

theorem opensWith_iff_beginning :
    opensWith keyword bytes = true ↔ spaced keyword <+: bytes ∨ bare keyword <+: bytes := by
  rw [opensWith, Bool.or_eq_true, List.isPrefixOf_iff_prefix, List.isPrefixOf_iff_prefix]

theorem opensWith_iff : opensWith keyword bytes = true ↔ KeywordLineAt keyword bytes 0 := by
  rw [opensWith_iff_beginning, KeywordLineAt, lineAt_zero, lineAt_zero]

/-- A line feed followed by a beginning is a later line with that beginning. -/
theorem lineFeed_cons_prefix_iff {index : Nat} :
    lineFeed :: beginning <+: bytes.drop index ↔ LineAt beginning bytes (index + 1) := by
  simp only [LineAt, IsLineStart, Nat.add_one_sub_one, Nat.succ_ne_zero, false_or]
  constructor
  · rintro ⟨rest, equal⟩
    have split : bytes.drop index = lineFeed :: (beginning ++ rest) := equal.symm
    have first : bytes[index]? = some lineFeed := by
      have head := congrArg List.head? split
      simpa [List.head?_drop] using head
    have others : bytes.drop (index + 1) = beginning ++ rest := by
      have tail := congrArg List.tail split
      simpa [List.tail_drop] using tail
    exact ⟨first, rest, others.symm⟩
  · rintro ⟨first, rest, equal⟩
    obtain ⟨bound, head⟩ := List.getElem?_eq_some_iff.mp first
    rw [List.drop_eq_getElem_cons bound, head, ← equal]
    exact ⟨rest, rfl⟩

/-- The search for a later line finds the least one. -/
theorem nextLine?_eq_some_iff :
    nextLine? beginning bytes = some count ↔
      0 < count ∧ LineAt beginning bytes count ∧
        ∀ earlier, 0 < earlier → earlier < count → ¬LineAt beginning bytes earlier := by
  simp only [nextLine?, Option.map_eq_some_iff, searchFrom_eq_some_iff,
    lineFeed_cons_prefix_iff]
  constructor
  · rintro ⟨index, ⟨_, line, least⟩, rfl⟩
    refine ⟨Nat.succ_pos index, line, ?_⟩
    intro earlier positive below
    obtain ⟨before, rfl⟩ := Nat.exists_eq_succ_of_ne_zero (Nat.ne_of_gt positive)
    exact least before (Nat.lt_of_succ_lt_succ below)
  · rintro ⟨positive, line, least⟩
    obtain ⟨index, rfl⟩ := Nat.exists_eq_succ_of_ne_zero (Nat.ne_of_gt positive)
    have bound : index + 1 ≤ bytes.length := line.1.le_length
    exact ⟨index, ⟨Nat.le_of_succ_le bound, line, fun earlier below =>
      least (earlier + 1) (Nat.succ_pos earlier) (Nat.succ_lt_succ below)⟩, rfl⟩

theorem nextLine?_eq_none_iff :
    nextLine? beginning bytes = none ↔ ∀ later, 0 < later → ¬LineAt beginning bytes later := by
  simp only [nextLine?, Option.map_eq_none_iff, searchFrom_eq_none_iff,
    lineFeed_cons_prefix_iff]
  constructor
  · intro never later positive line
    obtain ⟨index, rfl⟩ := Nat.exists_eq_succ_of_ne_zero (Nat.ne_of_gt positive)
    exact never index (Nat.le_of_succ_le line.1.le_length) line
  · intro never index _ line
    exact never (index + 1) (Nat.succ_pos index) line

/-- The search for the next document finds a keyword line. -/
theorem keywordLineAt_of_nextDocument? (found : nextDocument? keyword bytes = some count) :
    0 < count ∧ KeywordLineAt keyword bytes count := by
  rcases Option.or_eq_some_iff.mp found with withSpace | ⟨_, alone⟩
  · obtain ⟨positive, line, _⟩ := nextLine?_eq_some_iff.mp withSpace
    exact ⟨positive, .inl line⟩
  · obtain ⟨positive, line, _⟩ := nextLine?_eq_some_iff.mp alone
    exact ⟨positive, .inr line⟩

theorem nextDocument?_eq_none_iff :
    nextDocument? keyword bytes = none ↔
      ∀ later, 0 < later → ¬KeywordLineAt keyword bytes later := by
  simp only [nextDocument?, Option.or_eq_none_iff, nextLine?_eq_none_iff, KeywordLineAt, not_or]
  constructor
  · rintro ⟨withSpace, alone⟩ later positive
    exact ⟨withSpace later positive, alone later positive⟩
  · intro never
    exact ⟨fun later positive => (never later positive).1,
      fun later positive => (never later positive).2⟩

/-- A document opens with a keyword line. -/
theorem keywordLineAt_of_opening? (found : opening? keyword bytes = some count) :
    KeywordLineAt keyword bytes count := by
  rw [opening?] at found
  split at found
  next opens =>
    cases found
    exact opensWith_iff.mp opens
  next => exact (keywordLineAt_of_nextDocument? found).2

theorem opening?_eq_none_iff :
    opening? keyword bytes = none ↔ ∀ later, ¬KeywordLineAt keyword bytes later := by
  rw [opening?]
  split
  next opens =>
    constructor
    · intro absent
      cases absent
    · intro never
      exact absurd (opensWith_iff.mp opens) (never 0)
  next closed =>
    rw [nextDocument?_eq_none_iff]
    constructor
    · intro never later
      cases later with
      | zero => exact fun line => closed (opensWith_iff.mpr line)
      | succ later => exact never (later + 1) (Nat.succ_pos later)
    · intro never later _
      exact never later

/-- There are annotations if and only if some line is one. -/
theorem hasAnnotations_iff : hasAnnotations bytes = true ↔ ∃ line, AnnotationAt bytes line := by
  rw [hasAnnotations, Bool.or_eq_true, List.isPrefixOf_iff_prefix, ← lineAt_zero]
  constructor
  · rintro (first | later)
    · exact ⟨0, first⟩
    · obtain ⟨count, found⟩ := Option.isSome_iff_exists.mp later
      exact ⟨count, (nextLine?_eq_some_iff.mp found).2.1⟩
  · rintro ⟨line, marked⟩
    cases line with
    | zero => exact .inl marked
    | succ line =>
        refine .inr (Option.isSome_iff_ne_none.mpr fun absent => ?_)
        exact nextLine?_eq_none_iff.mp absent (line + 1) (Nat.succ_pos line) marked

end Document

end RelayDescriptor
