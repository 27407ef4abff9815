import Mathlib.Data.List.Chain
import RelayDescriptor.Proofs.Ranges.Rounds

/-!
# Where ranges lie

For every blob, whatever its bytes are, the search for documents ends without a
standstill, and its ranges lie as they should: they follow each other without gaps
from line to line, each opens with annotations or a keyword line and holds a whole
keyword line opening, and what is left over at the end begins with an annotation and
holds no further document.
-/

namespace RelayDescriptor

namespace Document

variable {annotated isFirst : Bool} {keyword bytes : List UInt8} {position : Nat}
  {ranges : List ByteRange}

/-- A range that lies within the bytes, reaches from line to line and holds a document. -/
structure IsDocumentRange (keyword bytes : List UInt8) (range : ByteRange) : Prop where
  nonempty : range.start < range.stop
  stop_le_length : range.stop ≤ bytes.length
  start_aligned : IsLineStart bytes range.start
  stop_aligned : range.stop = bytes.length ∨ IsLineStart bytes range.stop
  opens : KeywordLineAt keyword bytes range.start ∨ AnnotationAt bytes range.start
  holds : ∃ line, range.start ≤ line ∧ KeywordLineAt keyword bytes line ∧
    line + keyword.length + 1 ≤ range.stop

theorem IsSpan.header_le {start opening stop : Nat} (inner : lineFeed ∉ keyword)
    (span : IsSpan keyword bytes isFirst position start opening stop) :
    opening + keyword.length + 1 ≤ stop := by
  rcases Nat.lt_or_ge stop bytes.length with inside | outside
  · exact span.keywordLine.header_le inner (span.boundary.aligned inside) span.lt_stop
  · exact Nat.le_trans span.keywordLine.header_le_length outside

/-- A range opens with the annotations above its document, or with the document itself. -/
theorem IsSpan.opens {start opening stop : Nat}
    (begins : IsRoundStart keyword bytes isFirst position) (inside : position < bytes.length)
    (span : IsSpan keyword bytes isFirst position start opening stop) :
    KeywordLineAt keyword bytes start ∨ AnnotationAt bytes start := by
  cases isFirst with
  | true =>
      have block := span.isBlockStart rfl
      rcases Nat.eq_or_lt_of_le span.start_le with rfl | above
      · exact .inl span.keywordLine
      · exact .inr (block.annotations start (Nat.le_refl start) above block.aligned)
  | false =>
      rw [span.start_eq rfl]
      rcases begins with equal | marked | line
      · exact absurd equal (Nat.ne_of_lt inside)
      · exact .inr marked
      · exact .inl line

theorem IsSpan.start_aligned {start opening stop : Nat}
    (begins : IsRoundStart keyword bytes isFirst position) (inside : position < bytes.length)
    (span : IsSpan keyword bytes isFirst position start opening stop) :
    IsLineStart bytes start := by
  rcases span.opens begins inside with line | marked
  · exact line.aligned
  · exact marked.1

theorem IsSpan.isDocumentRange {range : ByteRange} {opening : Nat} (inner : lineFeed ∉ keyword)
    (begins : IsRoundStart keyword bytes isFirst position) (inside : position < bytes.length)
    (span : IsSpan keyword bytes isFirst position range.start opening range.stop) :
    IsDocumentRange keyword bytes range where
  nonempty := Nat.lt_of_le_of_lt span.start_le span.lt_stop
  stop_le_length := span.boundary.le_length
  start_aligned := span.start_aligned begins inside
  stop_aligned := by
    rcases Nat.lt_or_ge range.stop bytes.length with before | behind
    · exact .inr (span.boundary.aligned before)
    · exact .inl (Nat.le_antisymm span.boundary.le_length behind)
  opens := span.opens begins inside
  holds := ⟨opening, span.start_le, span.keywordLine, span.header_le inner⟩

theorem Rounds.isDocumentRange (inner : lineFeed ∉ keyword)
    (rounds : Rounds annotated keyword bytes isFirst position ranges)
    (begins : IsRoundStart keyword bytes isFirst position) :
    ∀ range ∈ ranges, IsDocumentRange keyword bytes range := by
  induction rounds with
  | finished ended => simp
  | round inside found rest induction =>
      obtain ⟨opening, span⟩ := begins.isSpan inside found
      intro range member
      rcases List.mem_cons.mp member with rfl | member
      · exact span.isDocumentRange inner begins inside
      · exact induction span.boundary range member

/-- Later rounds go on where the round before ended. -/
theorem Rounds.start_eq (rounds : Rounds annotated keyword bytes false position ranges)
    (begins : IsBoundary keyword bytes position) {range : ByteRange}
    (first : ranges.head? = some range) : range.start = position := by
  cases rounds with
  | finished ended => cases first
  | round inside found rest =>
      cases first
      have roundStart : IsRoundStart keyword bytes false position := begins
      obtain ⟨opening, span⟩ := roundStart.isSpan inside found
      exact span.start_eq rfl

theorem Rounds.contiguous (rounds : Rounds annotated keyword bytes isFirst position ranges)
    (begins : IsRoundStart keyword bytes isFirst position) :
    ranges.IsChain fun earlier later => earlier.stop = later.start := by
  induction rounds with
  | finished ended => exact .nil
  | round inside found rest induction =>
      obtain ⟨opening, span⟩ := begins.isSpan inside found
      rw [List.isChain_cons]
      refine ⟨?_, induction span.boundary⟩
      intro later first
      exact (rest.start_eq span.boundary first).symm

/-- The position where the last range ends, or the search begins if there is none. -/
def endOf (position : Nat) (ranges : List ByteRange) : Nat :=
  (ranges.getLast?.map ByteRange.stop).getD position

theorem endOf_cons (range : ByteRange) (ranges : List ByteRange) :
    endOf position (range :: ranges) = endOf range.stop ranges := by
  cases ranges with
  | nil => rfl
  | cons next ranges => simp [endOf, List.getLast?_cons]

/-- When the search ends, no keyword line starts at its place or later. -/
theorem Rounds.leftOver (rounds : Rounds annotated keyword bytes isFirst position ranges)
    (begins : IsRoundStart keyword bytes isFirst position) :
    ∀ line, endOf position ranges ≤ line → ¬KeywordLineAt keyword bytes line := by
  induction rounds with
  | @finished isFirst position ended =>
      intro line behind found
      have later : position ≤ line := behind
      have inside : position < bytes.length := by
        have header := found.header_le_length
        omega
      have aligned := begins.aligned inside
      have absent := opening?_eq_none_iff.mp (Option.map_eq_none_iff.mp (ended inside))
      refine absent (line - position) ((keywordLineAt_drop_of_isLineStart aligned).mpr ?_)
      rwa [Nat.add_sub_cancel' later]
  | round inside found rest induction =>
      obtain ⟨opening, span⟩ := begins.isSpan inside found
      rw [endOf_cons]
      exact induction span.boundary

theorem Rounds.boundary (rounds : Rounds annotated keyword bytes isFirst position ranges)
    (begins : IsRoundStart keyword bytes isFirst position) :
    ∀ range ∈ ranges, IsBoundary keyword bytes range.stop := by
  induction rounds with
  | finished ended => simp
  | round inside found rest induction =>
      obtain ⟨opening, span⟩ := begins.isSpan inside found
      intro range member
      rcases List.mem_cons.mp member with rfl | member
      · exact span.boundary
      · exact induction span.boundary range member

/-- How the ranges of a blob lie.  The first one begins with the whole block of annotations above
the keyword line that is chosen first. -/
structure WellPlaced (keyword bytes : List UInt8) (ranges : List ByteRange) : Prop where
  documents : ∀ range ∈ ranges, IsDocumentRange keyword bytes range
  contiguous : ranges.IsChain fun earlier later => earlier.stop = later.start
  firstBlock : ∀ range, ranges.head? = some range →
    ∃ line, opening? keyword bytes = some line ∧ KeywordLineAt keyword bytes line ∧
      line + keyword.length + 1 ≤ range.stop ∧ IsBlockStart bytes range.start line
  eq_nil_iff : ranges = [] ↔ ∀ line, ¬KeywordLineAt keyword bytes line
  leftOver : ∀ range, ranges.getLast? = some range → range.stop < bytes.length →
    AnnotationAt bytes range.stop ∧
      ∀ line, range.stop ≤ line → ¬KeywordLineAt keyword bytes line

theorem Rounds.wellPlaced (inner : lineFeed ∉ keyword)
    (rounds : Rounds annotated keyword bytes true 0 ranges) :
    WellPlaced keyword bytes ranges := by
  have begins : IsRoundStart keyword bytes true 0 := rfl
  have documents := rounds.isDocumentRange inner begins
  refine ⟨documents, rounds.contiguous begins, ?_, ?_, ?_⟩
  · intro range first
    cases rounds with
    | finished ended => cases first
    | round inside found rest =>
        cases first
        obtain ⟨opening, span⟩ := begins.isSpan inside found
        exact ⟨opening, by simpa using span.chosen, span.keywordLine, span.header_le inner,
          span.isBlockStart rfl⟩
  · constructor
    · rintro rfl line
      exact rounds.leftOver begins line (Nat.zero_le line)
    · intro never
      cases ranges with
      | nil => rfl
      | cons range ranges =>
          obtain ⟨line, _, found, _⟩ := (documents range List.mem_cons_self).holds
          exact absurd found (never line)
  · intro range last inside
    have place : endOf 0 ranges = range.stop := by
      rw [endOf, last]
      rfl
    have none : ∀ line, range.stop ≤ line → ¬KeywordLineAt keyword bytes line :=
      place ▸ rounds.leftOver begins
    refine ⟨?_, none⟩
    rcases rounds.boundary begins range (List.mem_of_getLast? last) with equal | marked | line
    · exact absurd equal (Nat.ne_of_lt inside)
    · exact marked
    · exact absurd line (none range.stop (Nat.le_refl _))

/-- The search itself, on bytes. -/
theorem ranges_wellPlaced (inner : lineFeed ∉ keyword) (bytes : List UInt8) :
    ∃ found, Document.ranges keyword bytes = .ok found ∧ WellPlaced keyword bytes found := by
  have begins : IsRoundStart keyword bytes true 0 := rfl
  obtain ⟨found, cut, rounds⟩ := exists_rounds (hasAnnotations bytes) begins
  exact ⟨found, cut, rounds.wellPlaced inner⟩

theorem lineFeed_not_mem_of_text {text : Text} (ascii : ∀ c ∈ text, Ascii.isAscii c = true)
    (inner : '\n' ∉ text) : lineFeed ∉ text.map Ascii.byte := by
  intro member
  have single : Ascii.isAscii '\n' = true := by decide
  exact inner ((Ascii.byte_mem_map_iff ascii single).mp member)

end Document

namespace Blob

open Document

theorem documentRanges_of_isAscii {keyword : Text}
    (ascii : ∀ c ∈ keyword, Ascii.isAscii c = true) (blob : Blob) {found : List ByteRange}
    (cut : ranges (keyword.map Ascii.byte) blob.data = .ok found) :
    blob.documentRanges keyword = .ok found := by
  rw [documentRanges, Ascii.encode_of_isAscii ascii]
  show (ranges (keyword.map Ascii.byte) blob.data).mapError _ = _
  rw [cut]
  rfl

/-- Whatever bytes a blob holds, the search for its documents ends, and their ranges lie as they
should. -/
theorem documentRanges_wellPlaced (blob : Blob) (keyword : Text)
    (ascii : ∀ c ∈ keyword, Ascii.isAscii c = true) (inner : '\n' ∉ keyword) :
    ∃ found, blob.documentRanges keyword = .ok found ∧
      WellPlaced (keyword.map Ascii.byte) blob.data found := by
  obtain ⟨found, cut, placed⟩ :=
    ranges_wellPlaced (lineFeed_not_mem_of_text ascii inner) blob.data
  exact ⟨found, documentRanges_of_isAscii ascii blob cut, placed⟩

theorem documentRanges_wellPlaced_annotated :
    ∃ found,
      (Blob.mk ("@a\nkw x\n".toList.map Ascii.byte) none).documentRanges "kw".toList = .ok found ∧
        WellPlaced ("kw".toList.map Ascii.byte) ("@a\nkw x\n".toList.map Ascii.byte) found :=
  documentRanges_wellPlaced ⟨"@a\nkw x\n".toList.map Ascii.byte, none⟩ "kw".toList
    (List.all_eq_true.mp (by decide)) (by decide)

end Blob

end RelayDescriptor
