import RelayDescriptor.Proofs.Ranges.LinePositions

/-!
# Lines of bytes

Cutting bytes into lines and searching them for line beginnings fit together: the
line starts are the places between the lines, and a search for a later line finds the
first of the later lines that has the beginning.
-/

namespace RelayDescriptor

namespace Document

variable {beginning keyword bytes left right line : List UInt8} {position count : Nat}
  {above below : List (List UInt8)}

/-- Bytes that a line may follow: there are none, or they end with a line feed. -/
def IsClosed (bytes : List UInt8) : Prop := bytes = [] ∨ bytes.getLast? = some lineFeed

theorem byteLines_eq_nil_iff : byteLines bytes = [] ↔ bytes = [] := by
  constructor
  · intro empty
    rw [← flatten_byteLines bytes, empty, List.flatten_nil]
  · rintro rfl
    rfl

theorem byteLines_cons_of_ne {b : UInt8} (different : b ≠ lineFeed)
    (split : byteLines bytes = line :: below) : byteLines (b :: bytes) = (b :: line) :: below := by
  simp [byteLines, different, split]

theorem byteLines_concat (inner : lineFeed ∉ line) :
    byteLines (line ++ [lineFeed]) = [line ++ [lineFeed]] := by
  induction line with
  | nil => rfl
  | cons b line induction =>
      rw [List.mem_cons, not_or] at inner
      rw [List.cons_append, byteLines, if_neg (Ne.symm inner.1), induction inner.2]

theorem byteLines_append (closed : IsClosed left) (right : List UInt8) :
    byteLines (left ++ right) = byteLines left ++ byteLines right := by
  induction left with
  | nil => rfl
  | cons b left induction =>
      by_cases feed : b = lineFeed
      · have rest : IsClosed left := by
          rcases closed with empty | ended
          · cases empty
          · cases left with
            | nil => exact .inl rfl
            | cons c left => exact .inr (by simpa using ended)
        simp [byteLines, feed, induction rest]
      · have rest : left ≠ [] ∧ IsClosed left := by
          rcases closed with empty | ended
          · cases empty
          · cases left with
            | nil => exact absurd (by simpa using ended) feed
            | cons c left => exact ⟨List.cons_ne_nil c left, .inr (by simpa using ended)⟩
        cases split : byteLines left with
        | nil => exact absurd (byteLines_eq_nil_iff.mp split) rest.1
        | cons line lines =>
            have joined := induction rest.2
            rw [split, List.cons_append] at joined
            rw [List.cons_append, byteLines_cons_of_ne feed joined,
              byteLines_cons_of_ne feed split, List.cons_append]

/-- Without its first line, the lines of bytes are the others. -/
theorem byteLines_drop_head (split : byteLines bytes = line :: below) :
    byteLines (bytes.drop line.length) = below := by
  induction bytes generalizing line below with
  | nil => cases split
  | cons b bytes induction =>
      rw [byteLines] at split
      split at split
      · obtain ⟨rfl, rfl⟩ := List.cons.inj split
        rfl
      · cases found : byteLines bytes with
        | nil =>
            rw [found] at split
            obtain ⟨rfl, rfl⟩ := List.cons.inj split
            obtain rfl := byteLines_eq_nil_iff.mp found
            rfl
        | cons first lines =>
            rw [found] at split
            obtain ⟨rfl, rfl⟩ := List.cons.inj split
            exact induction found

theorem byteLines_drop (split : byteLines bytes = above ++ below) :
    byteLines (bytes.drop above.flatten.length) = below := by
  induction above generalizing bytes with
  | nil => simpa using split
  | cons first above induction =>
      rw [List.flatten_cons, List.length_append, ← List.drop_drop]
      exact induction (byteLines_drop_head split)

theorem drop_eq_flatten (split : byteLines bytes = above ++ below) :
    bytes.drop above.flatten.length = below.flatten := by
  rw [← flatten_byteLines (bytes.drop above.flatten.length), byteLines_drop split]

theorem take_eq_flatten (split : byteLines bytes = above ++ below) :
    bytes.take above.flatten.length = above.flatten := by
  rw [← flatten_byteLines bytes, split, List.flatten_append, List.take_left]

/-- Every line but the last ends with a line feed. -/
theorem getLast?_of_mem_above (split : byteLines bytes = above ++ line :: below) :
    ∀ earlier ∈ above, earlier.getLast? = some lineFeed := by
  induction bytes generalizing above line below with
  | nil => simp [byteLines] at split
  | cons b bytes induction =>
      intro earlier member
      rw [byteLines] at split
      split at split
      next feed =>
        cases above with
        | nil => cases member
        | cons first above =>
            obtain ⟨rfl, rest⟩ := List.cons.inj split
            rcases List.mem_cons.mp member with rfl | member
            · simp [feed]
            · exact induction rest earlier member
      next =>
        cases found : byteLines bytes with
        | nil =>
            rw [found] at split
            cases above with
            | nil => cases member
            | cons first above => simp at split
        | cons first lines =>
            rw [found] at split
            cases above with
            | nil => cases member
            | cons head above =>
                obtain ⟨rfl, rest⟩ := List.cons.inj split
                have ends : ∀ earlier ∈ first :: above, earlier.getLast? = some lineFeed :=
                  induction (by rw [found, rest]; rfl)
                rcases List.mem_cons.mp member with rfl | member
                · have last := ends first List.mem_cons_self
                  cases first with
                  | nil => simp at last
                  | cons c first => simpa using last
                · exact ends earlier (List.mem_cons_of_mem _ member)

theorem isClosed_flatten (ends : ∀ earlier ∈ above, earlier.getLast? = some lineFeed) :
    IsClosed above.flatten := by
  rcases List.eq_nil_or_concat above with rfl | ⟨others, last, rfl⟩
  · exact .inl rfl
  · have closes := ends last (by simp)
    exact .inr (by simp [List.getLast?_append, closes])

theorem isLineStart_iff_isClosed (bound : position ≤ bytes.length) :
    IsLineStart bytes position ↔ IsClosed (bytes.take position) := by
  cases position with
  | zero => simp [IsLineStart, IsClosed]
  | succ position =>
      have last : (bytes.take (position + 1)).getLast? = bytes[position]? := by
        rw [List.getLast?_eq_getElem?, List.length_take, Nat.min_eq_left bound,
          Nat.add_one_sub_one, List.getElem?_take_of_lt (Nat.lt_succ_self position)]
      have nonempty : bytes.take (position + 1) ≠ [] := by
        intro empty
        have length := congrArg List.length empty
        rw [List.length_take, Nat.min_eq_left bound] at length
        cases length
      simp [IsLineStart, IsClosed, last, nonempty]

/-- At a line start the lines fall into those above and those below. -/
theorem byteLines_of_isLineStart (aligned : IsLineStart bytes position) :
    byteLines bytes = byteLines (bytes.take position) ++ byteLines (bytes.drop position) := by
  have closed := (isLineStart_iff_isClosed aligned.le_length).mp aligned
  rw [← byteLines_append closed, List.take_append_drop]

theorem isLineStart_of_byteLines (split : byteLines bytes = above ++ line :: below) :
    IsLineStart bytes above.flatten.length := by
  have bound : above.flatten.length ≤ bytes.length := by
    rw [← flatten_byteLines bytes, split, List.flatten_append, List.length_append]
    exact Nat.le_add_right _ _
  rw [isLineStart_iff_isClosed bound, take_eq_flatten split]
  exact isClosed_flatten (getLast?_of_mem_above split)

theorem lineFeed_mem_of_getLast? (ends : line.getLast? = some lineFeed) : lineFeed ∈ line := by
  obtain ⟨others, rfl⟩ := List.getLast?_eq_some_iff.mp ends
  simp

/-- A beginning that only its last byte may end does not reach into the next line. -/
theorem prefix_of_prefix_append (inner : lineFeed ∉ beginning.dropLast)
    (occurs : beginning <+: line ++ right) (closes : right ≠ [] → lineFeed ∈ line) :
    beginning <+: line := by
  rcases Nat.le_total beginning.length line.length with short | long
  · exact List.prefix_of_prefix_length_le occurs (List.prefix_append line _) short
  · have within : line <+: beginning :=
      List.prefix_of_prefix_length_le (List.prefix_append line _) occurs long
    obtain ⟨others, rfl⟩ := within
    cases others with
    | nil => simp
    | cons b others =>
        have more : right ≠ [] := by
          rintro rfl
          have size := occurs.length_le
          simp only [List.length_append, List.length_cons, List.length_nil] at size
          omega
        refine absurd ?_ inner
        rw [List.dropLast_append_of_ne_nil (List.cons_ne_nil b others)]
        exact List.mem_append_left _ (closes more)

/-- Where a line starts, the bytes begin as the line does.  Only the last byte of the beginning
may be a line feed. -/
theorem lineAt_iff_beginning (inner : lineFeed ∉ beginning.dropLast)
    (split : byteLines bytes = above ++ line :: below) :
    LineAt beginning bytes above.flatten.length ↔ beginning <+: line := by
  rw [LineAt, drop_eq_flatten split, List.flatten_cons]
  constructor
  · rintro ⟨_, occurs⟩
    refine prefix_of_prefix_append inner occurs ?_
    intro more
    cases below with
    | nil => exact absurd rfl more
    | cons next below =>
        have ends : ∀ earlier ∈ above ++ [line], earlier.getLast? = some lineFeed :=
          getLast?_of_mem_above (by rw [split, List.append_assoc]; rfl)
        exact lineFeed_mem_of_getLast? (ends line (by simp))
  · intro occurs
    exact ⟨isLineStart_of_byteLines split, occurs.trans (List.prefix_append line _)⟩

theorem length_pos_of_mem_byteLines (member : line ∈ byteLines bytes) : 0 < line.length := by
  induction bytes generalizing line with
  | nil => cases member
  | cons b bytes induction =>
      rw [byteLines] at member
      split at member
      · rcases List.mem_cons.mp member with rfl | member
        · exact Nat.succ_pos 0
        · exact induction member
      · cases found : byteLines bytes with
        | nil =>
            rw [found, List.mem_singleton] at member
            rw [member]
            exact Nat.succ_pos 0
        | cons first lines =>
            rw [found] at member
            rcases List.mem_cons.mp member with rfl | member
            · exact Nat.succ_pos _
            · exact induction (found ▸ List.mem_cons_of_mem first member)

theorem length_pos_of_byteLines (split : byteLines bytes = above ++ line :: below) :
    0 < line.length :=
  length_pos_of_mem_byteLines (split ▸ List.mem_append_right above List.mem_cons_self)

/-- Of two ways to stop at a line, the one with fewer bytes above has fewer lines above. -/
theorem above_of_length_le {above₁ above₂ below₁ below₂ : List (List UInt8)}
    {line₁ : List UInt8} (first : byteLines bytes = above₁ ++ line₁ :: below₁)
    (second : byteLines bytes = above₂ ++ below₂)
    (below : above₂.flatten.length ≤ above₁.flatten.length) :
    ∃ between, above₁ = above₂ ++ between ∧ below₂ = between ++ line₁ :: below₁ := by
  have same : above₁ ++ line₁ :: below₁ = above₂ ++ below₂ := first.symm.trans second
  rcases List.append_eq_append_iff.mp same with ⟨rest, longer, tail⟩ | ⟨rest, longer, tail⟩
  · cases rest with
    | nil => exact ⟨[], by simpa using longer.symm, by simpa using tail.symm⟩
    | cons line rest =>
        obtain ⟨rfl, _⟩ := List.cons.inj tail
        have positive : 0 < line₁.length := length_pos_of_byteLines first
        rw [longer, List.flatten_append, List.length_append, List.flatten_cons,
          List.length_append] at below
        omega
  · exact ⟨rest, longer, tail⟩

theorem above_of_length_lt {above₁ above₂ below₁ below₂ : List (List UInt8)}
    {line₁ : List UInt8} (first : byteLines bytes = above₁ ++ line₁ :: below₁)
    (second : byteLines bytes = above₂ ++ below₂)
    (below : above₁.flatten.length < above₂.flatten.length) :
    ∃ between, above₂ = above₁ ++ line₁ :: between ∧ below₁ = between ++ below₂ := by
  have same : above₁ ++ line₁ :: below₁ = above₂ ++ below₂ := first.symm.trans second
  rcases List.append_eq_append_iff.mp same with ⟨rest, longer, tail⟩ | ⟨rest, shorter, _⟩
  · cases rest with
    | nil =>
        rw [longer, List.append_nil] at below
        exact absurd below (Nat.lt_irrefl _)
    | cons line rest =>
        obtain ⟨rfl, rfl⟩ := List.cons.inj tail
        exact ⟨rest, longer, rfl⟩
  · rw [shorter, List.flatten_append, List.length_append] at below
    omega

/-- Every line start before the end is the place of a line. -/
theorem exists_line_of_isLineStart (aligned : IsLineStart bytes position)
    (inside : position < bytes.length) :
    ∃ above line below, byteLines bytes = above ++ line :: below ∧
      above.flatten.length = position := by
  have split := byteLines_of_isLineStart aligned
  cases rest : byteLines (bytes.drop position) with
  | nil =>
      have length := congrArg List.length (byteLines_eq_nil_iff.mp rest)
      rw [List.length_drop, List.length_nil] at length
      omega
  | cons line below =>
      refine ⟨_, line, below, rest ▸ split, ?_⟩
      rw [flatten_byteLines, List.length_take, Nat.min_eq_left aligned.le_length]

/-- A line with a beginning starts where the lines above end. -/
theorem lineAt_iff_byteLines (nonempty : beginning ≠ [])
    (inner : lineFeed ∉ beginning.dropLast) :
    LineAt beginning bytes position ↔
      ∃ above line below, byteLines bytes = above ++ line :: below ∧
        above.flatten.length = position ∧ beginning <+: line := by
  constructor
  · intro found
    have size : 0 < beginning.length := List.length_pos_iff.mpr nonempty
    have bound := found.2.length_le
    rw [List.length_drop] at bound
    obtain ⟨above, line, below, split, rfl⟩ := exists_line_of_isLineStart found.1 (by omega)
    exact ⟨above, line, below, split, rfl, (lineAt_iff_beginning inner split).mp found⟩
  · rintro ⟨above, line, below, split, rfl, occurs⟩
    exact (lineAt_iff_beginning inner split).mpr occurs

/-- A keyword line starts where a line that opens with the keyword does. -/
theorem keywordLineAt_iff (inner : lineFeed ∉ keyword)
    (split : byteLines bytes = above ++ line :: below) :
    KeywordLineAt keyword bytes above.flatten.length ↔ opensWith keyword line = true := by
  have spacedInner : lineFeed ∉ (spaced keyword).dropLast := by
    rwa [spaced, List.dropLast_concat]
  have bareInner : lineFeed ∉ (bare keyword).dropLast := by
    rwa [bare, List.dropLast_concat]
  rw [KeywordLineAt, lineAt_iff_beginning spacedInner split, lineAt_iff_beginning bareInner split,
    opensWith_iff_beginning]

/-- The search passes over the first line and finds the first later one with the beginning. -/
theorem nextLine?_of_byteLines {first : List UInt8} {skipped : List (List UInt8)}
    (nonempty : beginning ≠ []) (inner : lineFeed ∉ beginning.dropLast)
    (split : byteLines bytes = first :: skipped ++ line :: below)
    (others : ∀ other ∈ skipped, ¬beginning <+: other) (occurs : beginning <+: line) :
    nextLine? beginning bytes = some (first :: skipped).flatten.length := by
  rw [nextLine?_eq_some_iff]
  have head : byteLines bytes = [] ++ first :: (skipped ++ line :: below) := split
  have positive : 0 < first.length := length_pos_of_byteLines head
  refine ⟨?_, (lineAt_iff_byteLines nonempty inner).mpr ⟨_, line, below, split, rfl, occurs⟩, ?_⟩
  · rw [List.flatten_cons, List.length_append]
    omega
  · intro earlier later before found
    obtain ⟨above, other, rest, place, rfl, begins⟩ :=
      (lineAt_iff_byteLines nonempty inner).mp found
    obtain ⟨between, equal, tail⟩ := above_of_length_le split place (Nat.le_of_lt before)
    cases above with
    | nil => exact absurd later (Nat.lt_irrefl 0)
    | cons head above =>
        obtain ⟨rfl, rfl⟩ := List.cons.inj equal
        cases between with
        | nil => exact absurd before (by simp)
        | cons middle between =>
            obtain ⟨rfl, _⟩ := List.cons.inj tail
            exact others other (by simp) begins

theorem nextLine?_eq_none_of_byteLines {first : List UInt8} (nonempty : beginning ≠ [])
    (inner : lineFeed ∉ beginning.dropLast) (split : byteLines bytes = first :: below)
    (others : ∀ other ∈ below, ¬beginning <+: other) : nextLine? beginning bytes = none := by
  rw [nextLine?_eq_none_iff]
  intro later positive found
  obtain ⟨above, line, rest, place, rfl, begins⟩ := (lineAt_iff_byteLines nonempty inner).mp found
  cases above with
  | nil => exact absurd positive (Nat.lt_irrefl 0)
  | cons head above =>
      rw [split] at place
      obtain ⟨rfl, rfl⟩ := List.cons.inj place
      exact others line (by simp) begins

end Document

end RelayDescriptor
