import RelayDescriptor.Proofs.Ranges.AnnotationBlock

/-!
# Rounds of the search for documents

The search cuts off one range in each round.  A round that finds a document always
gets on, so the search ends with ranges for every keyword and all bytes; `Rounds`
describes it as a relation, and what each single round does is stated once, in terms
of positions of lines.
-/

namespace RelayDescriptor

namespace Document

variable {annotated isFirst : Bool} {keyword bytes : List UInt8} {position start stop : Nat}
  {ranges : List ByteRange}

theorem KeywordLineAt.header (line : KeywordLineAt keyword bytes position) :
    ∃ separator, keyword ++ [separator] <+: bytes.drop position := by
  rcases line with withSpace | alone
  · exact ⟨space, withSpace.2⟩
  · exact ⟨lineFeed, alone.2⟩

theorem KeywordLineAt.aligned (line : KeywordLineAt keyword bytes position) :
    IsLineStart bytes position := by
  rcases line with withSpace | alone
  · exact withSpace.1
  · exact alone.1

/-- The keyword and the separator after it lie within the bytes. -/
theorem KeywordLineAt.header_le_length (line : KeywordLineAt keyword bytes position) :
    position + keyword.length + 1 ≤ bytes.length := by
  obtain ⟨separator, occurs⟩ := line.header
  have size := occurs.length_le
  simp only [List.length_append, List.length_singleton, List.length_drop] at size
  omega

/-- No other line starts within the keyword and the separator after it. -/
theorem KeywordLineAt.header_le (inner : lineFeed ∉ keyword)
    (line : KeywordLineAt keyword bytes position) {later : Nat}
    (aligned : IsLineStart bytes later) (below : position < later) :
    position + keyword.length + 1 ≤ later := by
  rcases Nat.lt_or_ge (later - 1 - position) keyword.length with within | beyond
  · rcases aligned with rfl | follows
    · exact absurd below (Nat.not_lt_zero _)
    · obtain ⟨separator, rest, equal⟩ := line.header
      have index : position + (later - 1 - position) = later - 1 := by omega
      have same : bytes[later - 1]? = keyword[later - 1 - position]? := by
        rw [← index, ← List.getElem?_drop, ← equal, List.append_assoc,
          List.getElem?_append_left within, index]
      exact absurd (List.mem_of_getElem? (same.symm.trans follows)) inner
  · omega

/-- The places where ranges end: the end of the bytes, and the lines that open a document or
its annotations. -/
def IsBoundary (keyword bytes : List UInt8) (position : Nat) : Prop :=
  position = bytes.length ∨ AnnotationAt bytes position ∨ KeywordLineAt keyword bytes position

theorem IsBoundary.le_length (boundary : IsBoundary keyword bytes position) :
    position ≤ bytes.length := by
  rcases boundary with equal | marked | line
  · exact Nat.le_of_eq equal
  · exact marked.1.le_length
  · exact line.aligned.le_length

theorem IsBoundary.aligned (boundary : IsBoundary keyword bytes position)
    (inside : position < bytes.length) : IsLineStart bytes position := by
  rcases boundary with equal | marked | line
  · exact absurd equal (Nat.ne_of_lt inside)
  · exact marked.1
  · exact line.aligned

/-- A document is not empty, and it ends at a boundary. -/
theorem extent_spec (annotated : Bool) (keyword : List UInt8)
    (inside : position < bytes.length) :
    position < position + extent annotated keyword (bytes.drop position) ∧
      IsBoundary keyword bytes (position + extent annotated keyword (bytes.drop position)) := by
  rw [extent]
  cases marked : if annotated then nextLine? [atSign] (bytes.drop position) else none with
  | some count =>
      have found : nextLine? [atSign] (bytes.drop position) = some count := by
        cases annotated with
        | false => cases marked
        | true => exact marked
      obtain ⟨positive, line, _⟩ := nextLine?_eq_some_iff.mp found
      refine ⟨Nat.lt_add_of_pos_right positive, .inr (.inl ?_)⟩
      exact (lineAt_drop positive).mp line
  | none =>
      rw [Option.none_or]
      cases next : nextDocument? keyword (bytes.drop position) with
      | some count =>
          obtain ⟨positive, line⟩ := keywordLineAt_of_nextDocument? next
          refine ⟨Nat.lt_add_of_pos_right positive, .inr (.inr ?_)⟩
          exact line.imp (lineAt_drop positive).mp (lineAt_drop positive).mp
      | none =>
          have size : (none.getD (bytes.drop position).length) = bytes.length - position := by
            rw [Option.getD_none, List.length_drop]
          rw [size]
          exact ⟨by omega, .inl (by omega)⟩

/-- What a round does.  It finds a document, cuts off a range around the keyword line with which
the document opens, and stops at a boundary. -/
structure IsSpan (keyword bytes : List UInt8) (isFirst : Bool)
    (position start opening stop : Nat) : Prop where
  keywordLine : KeywordLineAt keyword bytes opening
  position_le : position ≤ start
  start_le : start ≤ opening
  lt_stop : opening < stop
  boundary : IsBoundary keyword bytes stop
  start_eq : isFirst = false → start = position
  isBlockStart : isFirst = true → IsBlockStart bytes start opening
  chosen : opening? keyword (bytes.drop position) = some (opening - position)

theorem isSpan_of_nextSpan? (first : isFirst = true → position = 0)
    (aligned : IsLineStart bytes position)
    (found : nextSpan? annotated keyword bytes isFirst position = some (start, stop)) :
    ∃ opening, IsSpan keyword bytes isFirst position start opening stop := by
  obtain ⟨count, chosen, equal⟩ := Option.map_eq_some_iff.mp found
  obtain ⟨rfl, rfl⟩ := Prod.mk.inj equal
  have line : KeywordLineAt keyword bytes (position + count) :=
    (keywordLineAt_drop_of_isLineStart aligned).mp (keywordLineAt_of_opening? chosen)
  have inside : position + count < bytes.length := by
    have header := line.header_le_length
    omega
  obtain ⟨positive, boundary⟩ := extent_spec annotated keyword inside
  have block := isBlockStart_blockStart line.aligned
  refine ⟨position + count, line, ?_, ?_, positive, boundary, ?_, ?_, ?_⟩
  · cases isFirst with
    | false => exact Nat.le_refl position
    | true => exact Nat.le_max_left position _
  · cases isFirst with
    | false => exact Nat.le_add_right position count
    | true => exact Nat.max_le.mpr ⟨Nat.le_add_right position count, block.le_position⟩
  · rintro rfl
    rfl
  · rintro rfl
    obtain rfl := first rfl
    simpa using block
  · rw [chosen, Nat.add_sub_cancel_left]

/-- The rounds of a search from a position on, with the ranges that they cut off. -/
inductive Rounds (annotated : Bool) (keyword bytes : List UInt8) :
    Bool → Nat → List ByteRange → Prop where
  | finished {isFirst : Bool} {position : Nat}
      (ended : position < bytes.length →
        nextSpan? annotated keyword bytes isFirst position = none) :
      Rounds annotated keyword bytes isFirst position []
  | round {isFirst : Bool} {position : Nat} {range : ByteRange} {ranges : List ByteRange}
      (inside : position < bytes.length)
      (found : nextSpan? annotated keyword bytes isFirst position =
        some (range.start, range.stop))
      (rest : Rounds annotated keyword bytes false range.stop ranges) :
      Rounds annotated keyword bytes isFirst position (range :: ranges)

theorem rangesFrom_of_ended
    (ended : position < bytes.length →
      nextSpan? annotated keyword bytes isFirst position = none) :
    rangesFrom annotated keyword bytes isFirst position = .ok [] := by
  rw [rangesFrom]
  split
  next inside =>
    split
    next => rfl
    next found =>
      rw [ended inside] at found
      cases found
  next => rfl

theorem rangesFrom_of_found (range : ByteRange) (inside : position < bytes.length)
    (found : nextSpan? annotated keyword bytes isFirst position =
      some (range.start, range.stop))
    (advances : range.start < range.stop) :
    rangesFrom annotated keyword bytes isFirst position =
      (rangesFrom annotated keyword bytes false range.stop).map (range :: ·) := by
  rw [rangesFrom, dif_pos inside]
  split
  next absent =>
    rw [found] at absent
    cases absent
  next start stop other =>
    rw [found] at other
    cases other
    rw [dif_pos advances]

/-- Where a round may begin: the first at the first position, a later one at a boundary. -/
def IsRoundStart (keyword bytes : List UInt8) (isFirst : Bool) (position : Nat) : Prop :=
  if isFirst then position = 0 else IsBoundary keyword bytes position

theorem IsRoundStart.aligned (begins : IsRoundStart keyword bytes isFirst position)
    (inside : position < bytes.length) : IsLineStart bytes position := by
  cases isFirst with
  | true => exact .inl begins
  | false => exact IsBoundary.aligned begins inside

/-- One round leads to a place where the next may begin. -/
theorem IsRoundStart.isSpan (begins : IsRoundStart keyword bytes isFirst position)
    (inside : position < bytes.length)
    (found : nextSpan? annotated keyword bytes isFirst position = some (start, stop)) :
    ∃ opening, IsSpan keyword bytes isFirst position start opening stop := by
  refine isSpan_of_nextSpan? ?_ (begins.aligned inside) found
  rintro rfl
  exact begins

/-- The search never comes to a standstill. -/
theorem exists_rounds (annotated : Bool) (begins : IsRoundStart keyword bytes isFirst position) :
    ∃ ranges, rangesFrom annotated keyword bytes isFirst position = .ok ranges ∧
      Rounds annotated keyword bytes isFirst position ranges := by
  induction isFirst, position using rangesFrom.induct annotated keyword bytes with
  | case1 isFirst position inside absent =>
      exact ⟨[], rangesFrom_of_ended fun _ => absent, .finished fun _ => absent⟩
  | case2 isFirst position inside start stop found advances induction =>
      obtain ⟨opening, span⟩ := begins.isSpan inside found
      obtain ⟨ranges, cut, rounds⟩ := induction span.boundary
      let range : ByteRange := ⟨start, stop, Nat.le_of_lt advances⟩
      refine ⟨range :: ranges, ?_, .round inside found rounds⟩
      rw [rangesFrom_of_found range inside found advances, cut]
      rfl
  | case3 isFirst position inside start stop found stuck =>
      obtain ⟨opening, span⟩ := begins.isSpan inside found
      exact absurd (Nat.lt_of_le_of_lt span.start_le span.lt_stop) stuck
  | case4 isFirst position outside =>
      exact ⟨[], rangesFrom_of_ended fun inside => absurd inside outside,
        .finished fun inside => absurd inside outside⟩

end Document

end RelayDescriptor
