import RelayDescriptor.Proofs.Ranges.ByteLines

/-!
# Blocks of annotations

The annotation lines directly above a document are found from below, as the longest
run of annotation lines with which the bytes before the document end.
-/

namespace RelayDescriptor

namespace Document

variable {bytes line : List UInt8} {position start : Nat}
  {above block below : List (List UInt8)}

theorem isAnnotationLine_iff : isAnnotationLine line = true ↔ [atSign] <+: line := by
  cases line with
  | nil => simp [isAnnotationLine]
  | cons b line => simp [isAnnotationLine, eq_comm]

theorem annotationAt_iff (split : byteLines bytes = above ++ line :: below) :
    AnnotationAt bytes above.flatten.length ↔ isAnnotationLine line = true := by
  have inner : lineFeed ∉ [atSign].dropLast := List.not_mem_nil
  rw [isAnnotationLine_iff]
  exact lineAt_iff_beginning inner split

theorem annotationBlock_of_byteLines (split : byteLines bytes = above ++ block)
    (annotations : ∀ line ∈ block, isAnnotationLine line = true)
    (stops : ∀ line, above.getLast? = some line → isAnnotationLine line = false) :
    annotationBlock bytes = block := by
  have none : above.reverse.takeWhile isAnnotationLine = [] := by
    cases reversed : above.reverse with
    | nil => rfl
    | cons last others =>
        have isLast : above.getLast? = some last := by
          rw [← List.head?_reverse, reversed, List.head?_cons]
        rw [List.takeWhile_cons, stops last isLast]
        rfl
  have all : ∀ line ∈ block.reverse, isAnnotationLine line = true :=
    fun line member => annotations line (List.mem_reverse.mp member)
  rw [annotationBlock, split, List.reverse_append, List.takeWhile_append_of_pos all, none,
    List.append_nil, List.reverse_reverse]

theorem blockStart_of_byteLines (split : byteLines bytes = above ++ block ++ below)
    (annotations : ∀ line ∈ block, isAnnotationLine line = true)
    (stops : ∀ line, above.getLast? = some line → isAnnotationLine line = false)
    (ends : start = (above ++ block).flatten.length) (aligned : IsLineStart bytes start) :
    blockStart bytes start = above.flatten.length := by
  subst ends
  have lines := byteLines_of_isLineStart aligned
  rw [split, byteLines_drop split] at lines
  have before := List.append_cancel_right lines
  rw [blockStart, annotationBlock_of_byteLines before.symm annotations stops,
    List.flatten_append, List.length_append, Nat.add_sub_cancel]

/-- The lines of bytes end with their annotation block, and the line above it is no
annotation. -/
theorem byteLines_eq_append_annotationBlock (bytes : List UInt8) :
    ∃ above, byteLines bytes = above ++ annotationBlock bytes ∧
      (∀ line ∈ annotationBlock bytes, isAnnotationLine line = true) ∧
      ∀ line, above.getLast? = some line → isAnnotationLine line = false := by
  refine ⟨((byteLines bytes).reverse.dropWhile isAnnotationLine).reverse, ?_, ?_, ?_⟩
  · rw [annotationBlock, ← List.reverse_append, List.takeWhile_append_dropWhile,
      List.reverse_reverse]
  · intro line member
    exact List.all_eq_true.mp List.all_takeWhile line (List.mem_reverse.mp member)
  · intro line last
    rw [List.getLast?_reverse] at last
    have first := List.head?_dropWhile_not isAnnotationLine (byteLines bytes).reverse
    rw [last] at first
    simpa using first

/-- All lines from a line start up to a position are annotations, and the line above is none. -/
structure IsBlockStart (bytes : List UInt8) (start position : Nat) : Prop where
  le_position : start ≤ position
  aligned : IsLineStart bytes start
  annotations : ∀ line, start ≤ line → line < position → IsLineStart bytes line →
    AnnotationAt bytes line
  maximal : ∀ line < start, IsLineStart bytes line →
    (∀ later, line < later → later < start → ¬IsLineStart bytes later) →
      ¬AnnotationAt bytes line

theorem isBlockStart_blockStart (aligned : IsLineStart bytes position) :
    IsBlockStart bytes (blockStart bytes position) position := by
  obtain ⟨above, lines, annotations, stops⟩ :=
    byteLines_eq_append_annotationBlock (bytes.take position)
  generalize annotationBlock (bytes.take position) = block at lines annotations
  have split := byteLines_of_isLineStart aligned
  rw [lines] at split
  have position_eq : position = (above ++ block).flatten.length := by
    rw [← lines, flatten_byteLines, List.length_take, Nat.min_eq_left aligned.le_length]
  rw [blockStart_of_byteLines split annotations stops position_eq aligned]
  rw [List.flatten_append, List.length_append] at position_eq
  rw [List.append_assoc] at split
  refine ⟨by omega, ?_, ?_, ?_⟩
  · cases block with
    | nil => simpa [position_eq] using aligned
    | cons line block => exact isLineStart_of_byteLines split
  · intro line after before starts
    have inside : line < bytes.length := Nat.lt_of_lt_of_le before aligned.le_length
    obtain ⟨upper, first, lower, place, rfl⟩ := exists_line_of_isLineStart starts inside
    rw [annotationAt_iff place]
    obtain ⟨between, rfl, _⟩ := above_of_length_le place split after
    rw [position_eq, ← List.length_append, ← List.flatten_append] at before
    rw [← List.append_assoc] at split
    obtain ⟨others, same, _⟩ := above_of_length_lt place split before
    rw [List.append_assoc] at same
    exact annotations first (by simp [List.append_cancel_left same])
  · intro line before starts last
    have inside : line < bytes.length :=
      Nat.lt_of_lt_of_le before (Nat.le_trans (by omega) aligned.le_length)
    obtain ⟨upper, first, lower, place, rfl⟩ := exists_line_of_isLineStart starts inside
    obtain ⟨between, rfl, rfl⟩ := above_of_length_lt place split before
    rw [annotationAt_iff place]
    cases between with
    | nil => simp [stops first (by simp)]
    | cons next between =>
        -- Another line would start in between.
        have later : byteLines bytes = (upper ++ [first]) ++ next ::
            (between ++ (block ++ byteLines (bytes.drop position))) := by
          rw [place]
          simp
        have nextStart := isLineStart_of_byteLines later
        have firstSize : 0 < first.length := length_pos_of_byteLines place
        have nextSize : 0 < next.length := length_pos_of_byteLines later
        refine absurd nextStart (last _ ?_ ?_)
        · simp only [List.flatten_append, List.length_append, List.flatten_singleton]
          omega
        · simp only [List.flatten_append, List.length_append, List.flatten_cons,
            List.flatten_nil, List.length_nil]
          omega

end Document

end RelayDescriptor
