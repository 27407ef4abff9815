import Mathlib.Data.List.DropRight
import Mathlib.Order.Bounds.Basic
import RelayDescriptor.Proofs.Ranges.AnnotationBlock
import RelayDescriptor.Text.Ascii

/-!
# Climbing over annotations

The annotation block directly above a line is also found by going up from line to line, as long as
the line above is an annotation.  Each step goes to an earlier position, so this ends, and it ends
at the least line start from which on all lines are annotations.
-/

namespace RelayDescriptor

namespace Document

variable {bytes : List UInt8} {position start above : Nat}

/-- A line starts at a position before another one, and none in between. -/
structure IsLineAbove (bytes : List UInt8) (above position : Nat) : Prop where
  before : above < position
  aligned : IsLineStart bytes above
  nearest : ∀ later, above < later → later < position → ¬IsLineStart bytes later

/-- The start of the line that ends right before a line start.  The line feed right before that
line start ends the line, so the one before the line is looked for among the bytes before it. -/
def lineAbove (bytes : List UInt8) (position : Nat) : Nat :=
  ((bytes.take (position - 1)).rdropWhile (· ≠ lineFeed)).length

theorem isClosed_rdropWhile (bytes : List UInt8) :
    IsClosed (bytes.rdropWhile (· ≠ lineFeed)) := by
  by_cases empty : bytes.rdropWhile (· ≠ lineFeed) = []
  · exact .inl empty
  · right
    have last := List.rdropWhile_last_not (· ≠ lineFeed) bytes empty
    rw [List.getLast?_eq_some_getLast empty]
    simpa using last

theorem isLineAbove_lineAbove (bytes : List UInt8) (positive : 0 < position) :
    IsLineAbove bytes (lineAbove bytes position) position := by
  have among := List.rdropWhile_prefix (· ≠ lineFeed) (bytes.take (position - 1))
  have short : lineAbove bytes position ≤ position - 1 :=
    Nat.le_trans among.length_le (List.length_take_le _ _)
  constructor
  · omega
  · have within := among.trans (List.take_prefix _ _)
    apply (isLineStart_iff_isClosed within.length_le).mpr
    rw [← List.prefix_iff_eq_take.mp within]
    exact isClosed_rdropWhile _
  · intro later after before starts
    obtain ⟨index, rfl⟩ := Nat.exists_eq_succ_of_ne_zero (Nat.ne_of_gt (Nat.zero_lt_of_lt after))
    have feed : bytes[index]? = some lineFeed := starts.resolve_left (Nat.succ_ne_zero index)
    -- The line feed would stand behind the last one.
    rw [← List.getElem?_take_of_lt (by omega : index < position - 1),
      ← List.rdropWhile_append_rtakeWhile (p := (· ≠ lineFeed)) (l := bytes.take (position - 1)),
      List.getElem?_append_right (Nat.le_of_lt_succ after)] at feed
    have other := List.mem_rtakeWhile_imp (List.mem_of_getElem? feed)
    simp at other

/-- Goes up from a line start over the annotation lines directly above it. -/
def climb (bytes : List UInt8) (position : Nat) : Nat :=
  if _marked : 0 < position ∧ [atSign].isPrefixOf (bytes.drop (lineAbove bytes position)) then
    climb bytes (lineAbove bytes position)
  else position
termination_by position
decreasing_by exact (isLineAbove_lineAbove bytes _marked.1).before

/-- There is at most one line directly above a line. -/
theorem IsLineAbove.unique {other : Nat} (first : IsLineAbove bytes above position)
    (second : IsLineAbove bytes other position) : other = above := by
  rcases Nat.lt_trichotomy other above with lower | same | higher
  · exact absurd first.aligned (second.nearest above lower first.before)
  · exact same
  · exact absurd second.aligned (first.nearest other higher second.before)

namespace IsBlockStart

theorem self (aligned : IsLineStart bytes position)
    (stops : ∀ above, IsLineAbove bytes above position → ¬AnnotationAt bytes above) :
    IsBlockStart bytes position position := by
  constructor
  · exact Nat.le_refl position
  · exact aligned
  · intro line after before
    exact absurd after (Nat.not_le_of_lt before)
  · intro line before starts nearest
    exact stops line ⟨before, starts, nearest⟩

/-- One step up: where the block of an annotation starts, the block below it starts. -/
theorem below (block : IsBlockStart bytes start above) (isAbove : IsLineAbove bytes above position)
    (marked : AnnotationAt bytes above) : IsBlockStart bytes start position := by
  constructor
  · exact Nat.le_trans block.le_position (Nat.le_of_lt isAbove.before)
  · exact block.aligned
  · intro line after before starts
    rcases Nat.lt_trichotomy line above with upper | same | lower
    · exact block.annotations line after upper starts
    · rwa [same]
    · exact absurd starts (isAbove.nearest line lower before)
  · exact block.maximal

/-- A block that does not reach the first line has a line above it that is no annotation. -/
theorem exists_isLineAbove (block : IsBlockStart bytes start position) :
    start = 0 ∨ ∃ above, IsLineAbove bytes above start ∧ ¬AnnotationAt bytes above := by
  apply (Nat.eq_zero_or_pos start).imp_right
  intro positive
  have isAbove := isLineAbove_lineAbove bytes positive
  exact ⟨_, isAbove, block.maximal _ isAbove.before isAbove.aligned isAbove.nearest⟩

end IsBlockStart

/-- The whole way up ends where the block of annotations starts. -/
theorem isBlockStart_climb (aligned : IsLineStart bytes position) :
    IsBlockStart bytes (climb bytes position) position := by
  -- The induction follows the climb; the line above is a line start again.
  induction position using climb.induct bytes with
  | case1 position marked induction =>
      obtain ⟨positive, opens⟩ := marked
      have isAbove := isLineAbove_lineAbove bytes positive
      rw [climb, dif_pos ⟨positive, opens⟩]
      apply (induction isAbove.aligned).below isAbove
      exact ⟨isAbove.aligned, List.isPrefixOf_iff_prefix.mp opens⟩
  | case2 position unmarked =>
      rw [climb, dif_neg unmarked]
      apply IsBlockStart.self aligned
      intro above isAbove marked
      have positive : 0 < position := Nat.zero_lt_of_lt isAbove.before
      have same := (isLineAbove_lineAbove bytes positive).unique isAbove
      rw [same] at marked
      exact unmarked ⟨positive, List.isPrefixOf_iff_prefix.mpr marked.2⟩

/-- The line starts from which on all lines up to a position are annotations. -/
def annotatedStarts (bytes : List UInt8) (position : Nat) : Set Nat :=
  {start | start ≤ position ∧ IsLineStart bytes start ∧
    ∀ line, start ≤ line → line < position → IsLineStart bytes line → AnnotationAt bytes line}

theorem IsBlockStart.isLeast (block : IsBlockStart bytes start position) :
    IsLeast (annotatedStarts bytes position) start := by
  constructor
  · exact ⟨block.le_position, block.aligned, block.annotations⟩
  · intro other member
    obtain ⟨_, aligned, annotations⟩ := member
    by_contra earlier
    have before : other < start := Nat.lt_of_not_le earlier
    -- The line right above the block would lie within the longer one.
    have isAbove := isLineAbove_lineAbove bytes (Nat.zero_lt_of_lt before)
    have after : other ≤ lineAbove bytes start := by
      by_contra below
      exact isAbove.nearest other (Nat.lt_of_not_le below) before aligned
    have marked := annotations _ after (Nat.lt_of_lt_of_le isAbove.before block.le_position)
      isAbove.aligned
    exact block.maximal _ isAbove.before isAbove.aligned isAbove.nearest marked

/-- The start of the annotations above a line start is where climbing from it ends.  It is the least
line start from which on all lines are annotations, so either it is the beginning of the bytes, or
the line right above it is no annotation. -/
theorem blockStart_isLeast (bytes : List UInt8) (position : Nat)
    (aligned : IsLineStart bytes position) :
    climb bytes position = blockStart bytes position ∧
      IsLeast (annotatedStarts bytes position) (blockStart bytes position) ∧
        (blockStart bytes position = 0 ∨
          ∃ above, IsLineAbove bytes above (blockStart bytes position) ∧
            ¬AnnotationAt bytes above) := by
  have block := isBlockStart_blockStart aligned
  have climbed := isBlockStart_climb aligned
  exact ⟨climbed.isLeast.unique block.isLeast, block.isLeast, block.exists_isLineAbove⟩

/-- Two annotations below an empty line. -/
theorem blockStart_isLeast_emptyLine :
    let bytes := "@x\n\n@a\n@\nkw\n".toList.map Ascii.byte
    IsLineStart bytes 9 ∧ blockStart bytes 9 = 4 ∧ climb bytes 9 = 4 ∧
      IsLeast (annotatedStarts bytes 9) 4 ∧
        ∃ above, IsLineAbove bytes above 4 ∧ ¬AnnotationAt bytes above := by
  intro bytes
  have aligned : IsLineStart bytes 9 := .inr (by decide)
  have found : blockStart bytes 9 = 4 := by decide
  obtain ⟨climbed, least, stops⟩ := blockStart_isLeast bytes 9 aligned
  rw [found] at climbed least stops
  exact ⟨aligned, found, climbed, least, stops.resolve_left (by decide)⟩

end Document

end RelayDescriptor
