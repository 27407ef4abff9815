import RelayDescriptor.Proofs.Ranges.Concatenation

/-!
# Blobs without annotations

Without annotations, ranges start at keyword lines and reach up to the next one.  But
a keyword before a space is preferred wherever it stands, so a line that is only the
keyword is passed over while another keyword line with a space comes later.  The
lines that are found are thus not all keyword lines; they are all of them exactly if
no line that is passed over exists.
-/

namespace RelayDescriptor

namespace Document

variable {isFirst : Bool} {keyword bytes : List UInt8} {position count start stop : Nat}
  {ranges : List ByteRange} {marks others : Nat → Prop}

/-- Ranges start exactly at the marks, in increasing order, and each ends at the next mark or at
the end of the bytes. -/
structure CutAt (marks : Nat → Prop) (bytes : List UInt8) (ranges : List ByteRange) : Prop where
  mem_starts_iff : ∀ position, position ∈ ranges.map ByteRange.start ↔ marks position
  increasing : (ranges.map ByteRange.start).Pairwise (· < ·)
  contiguous : ranges.IsChain fun earlier later => earlier.stop = later.start
  ends : ∀ range, ranges.getLast? = some range → range.stop = bytes.length

theorem CutAt.congr (cut : CutAt marks bytes ranges)
    (same : ∀ position, marks position ↔ others position) : CutAt others bytes ranges where
  mem_starts_iff := fun position => (cut.mem_starts_iff position).trans (same position)
  increasing := cut.increasing
  contiguous := cut.contiguous
  ends := cut.ends

/-- The keyword lines that the search does not pass over. -/
def IsPreferred (keyword bytes : List UInt8) (position : Nat) : Prop :=
  KeywordLineAt keyword bytes position ∧
    (position = 0 ∨ LineAt (spaced keyword) bytes position ∨
      ∀ later, position < later → ¬LineAt (spaced keyword) bytes later)

/-- A line that is only the keyword stands before a keyword line with a space. -/
def IsPassedOver (keyword bytes : List UInt8) (position : Nat) : Prop :=
  0 < position ∧ LineAt (bare keyword) bytes position ∧
    ∃ later, position < later ∧ LineAt (spaced keyword) bytes later

theorem not_isPassedOver_of_isPreferred (preferred : IsPreferred keyword bytes position) :
    ¬IsPassedOver keyword bytes position := by
  rintro ⟨positive, alone, later, behind, withSpace⟩
  rcases preferred.2 with first | here | last
  · exact absurd first (Nat.ne_of_gt positive)
  · exact not_bare_of_spaced here.2 alone.2
  · exact last later behind withSpace

theorem isPreferred_of_not_isPassedOver (line : KeywordLineAt keyword bytes position)
    (found : ¬IsPassedOver keyword bytes position) : IsPreferred keyword bytes position := by
  refine ⟨line, ?_⟩
  rcases Nat.eq_zero_or_pos position with first | positive
  · exact .inl first
  · rcases line with withSpace | alone
    · exact .inr (.inl withSpace)
    · refine .inr (.inr ?_)
      intro later behind withSpace
      exact found ⟨positive, alone, later, behind, withSpace⟩

/-- The search for the next document finds the first later keyword line that is preferred. -/
theorem isPreferred_of_nextDocument?
    (found : nextDocument? keyword (bytes.drop position) = some count) :
    0 < count ∧ IsPreferred keyword bytes (position + count) ∧
      ∀ between, position < between → between < position + count →
        ¬IsPreferred keyword bytes between := by
  rcases Option.or_eq_some_iff.mp found with withSpace | ⟨never, alone⟩
  · obtain ⟨positive, line, least⟩ := nextLine?_eq_some_iff.mp withSpace
    have here := (lineAt_drop positive).mp line
    refine ⟨positive, ⟨.inl here, .inr (.inl here)⟩, ?_⟩
    rintro between after before ⟨_, first | spacedLine | last⟩
    · exact Nat.not_lt_zero position (first ▸ after)
    · exact least (between - position) (by omega) (by omega)
        ((lineAt_drop_sub after).mpr spacedLine)
    · exact last _ before here
  · obtain ⟨positive, line, least⟩ := nextLine?_eq_some_iff.mp alone
    have noSpaced : ∀ later, position < later → ¬LineAt (spaced keyword) bytes later := by
      intro later behind spacedLine
      exact nextLine?_eq_none_iff.mp never (later - position) (by omega)
        ((lineAt_drop_sub behind).mpr spacedLine)
    refine ⟨positive, ⟨.inr ((lineAt_drop positive).mp line), .inr (.inr ?_)⟩, ?_⟩
    · intro later behind
      exact noSpaced later (by omega)
    · rintro between after before ⟨spacedLine | bareLine, _⟩
      · exact noSpaced between after spacedLine
      · exact least (between - position) (by omega) (by omega)
          ((lineAt_drop_sub after).mpr bareLine)

/-- The documents from a position on are found at preferred lines if it is the first position or
such a line itself. -/
theorem isPreferred_of_opening? (begins : position = 0 ∨ IsPreferred keyword bytes position)
    (found : opening? keyword (bytes.drop position) = some count) :
    IsPreferred keyword bytes (position + count) ∧
      ∀ between, position ≤ between → between < position + count →
        ¬IsPreferred keyword bytes between := by
  have aligned : IsLineStart bytes position := by
    rcases begins with first | preferred
    · exact .inl first
    · exact preferred.1.aligned
  have here : opensWith keyword (bytes.drop position) = true ↔
      KeywordLineAt keyword bytes position := by
    rw [opensWith_iff, keywordLineAt_drop_of_isLineStart aligned, Nat.add_zero]
  rw [opening?] at found
  split at found
  next opens =>
    cases found
    refine ⟨begins.elim (fun first => ⟨here.mp opens, .inl first⟩) id, ?_⟩
    intro between after before
    exact absurd after (Nat.not_le.mpr before)
  next closed =>
    obtain ⟨_, preferred, least⟩ := isPreferred_of_nextDocument? found
    refine ⟨preferred, ?_⟩
    intro between after before
    rcases Nat.eq_or_lt_of_le after with rfl | after
    · exact fun preferred => closed (here.mpr preferred.1)
    · exact least between after before

/-- Without annotations, a document ends before the next preferred line or with the bytes. -/
theorem isPreferred_of_extent (keyword : List UInt8) {opening : Nat}
    (inside : opening < bytes.length) :
    let stop := opening + extent false keyword (bytes.drop opening)
    (stop = bytes.length ∨ IsPreferred keyword bytes stop) ∧
      ∀ between, opening < between → between < stop → ¬IsPreferred keyword bytes between := by
  rw [extent]
  cases next : nextDocument? keyword (bytes.drop opening) with
  | some count =>
      obtain ⟨_, preferred, least⟩ := isPreferred_of_nextDocument? next
      exact ⟨.inr preferred, least⟩
  | none =>
      refine ⟨.inl ?_, ?_⟩
      · simp only [Bool.false_eq_true, if_false, Option.none_or, Option.getD_none,
          List.length_drop]
        omega
      · intro between after _ preferred
        refine nextDocument?_eq_none_iff.mp next (between - opening) (by omega) ?_
        exact preferred.1.imp (lineAt_drop_sub after).mpr (lineAt_drop_sub after).mpr

/-- A round without annotations cuts off a range from one preferred line to the next. -/
structure IsPlainSpan (keyword bytes : List UInt8) (position start stop : Nat) : Prop where
  position_le : position ≤ start
  lt_stop : start < stop
  preferred : IsPreferred keyword bytes start
  least : ∀ between, position ≤ between → between < start → ¬IsPreferred keyword bytes between
  next : ∀ between, start < between → between < stop → ¬IsPreferred keyword bytes between
  stops : stop = bytes.length ∨ IsPreferred keyword bytes stop

theorem blockStart_eq_of_plain (plain : ∀ line, ¬AnnotationAt bytes line)
    (aligned : IsLineStart bytes position) : blockStart bytes position = position := by
  have block := isBlockStart_blockStart aligned
  rcases Nat.eq_or_lt_of_le block.le_position with equal | above
  · exact equal
  · exact absurd (block.annotations _ (Nat.le_refl _) above block.aligned) (plain _)

/-- Where a round may begin if there are no annotations. -/
def IsPlainStart (keyword bytes : List UInt8) (isFirst : Bool) (position : Nat) : Prop :=
  if isFirst then position = 0 else position = bytes.length ∨ IsPreferred keyword bytes position

theorem isPlainSpan_of_nextSpan? (plain : ∀ line, ¬AnnotationAt bytes line)
    (begins : IsPlainStart keyword bytes isFirst position) (inside : position < bytes.length)
    (found : nextSpan? false keyword bytes isFirst position = some (start, stop)) :
    IsPlainSpan keyword bytes position start stop := by
  obtain ⟨count, chosen, equal⟩ := Option.map_eq_some_iff.mp found
  obtain ⟨starts, rfl⟩ := Prod.mk.inj equal
  have place : position = 0 ∨ IsPreferred keyword bytes position := by
    cases isFirst with
    | true => exact .inl begins
    | false => exact .inr (begins.resolve_left (Nat.ne_of_lt inside))
  obtain ⟨preferred, least⟩ := isPreferred_of_opening? place chosen
  have start_eq : start = position + count := by
    rw [← starts]
    cases isFirst with
    | true =>
        have block := blockStart_eq_of_plain plain preferred.1.aligned
        simp only [if_true, block, Nat.max_eq_right (Nat.le_add_right position count)]
    | false =>
        have here : IsPreferred keyword bytes position :=
          begins.resolve_left (Nat.ne_of_lt inside)
        rcases Nat.eq_zero_or_pos count with rfl | positive
        · rfl
        · exact absurd here (least position (Nat.le_refl _) (Nat.lt_add_of_pos_right positive))
  subst start_eq
  have openingInside : position + count < bytes.length := by
    have header := preferred.1.header_le_length
    omega
  obtain ⟨stops, next⟩ := isPreferred_of_extent keyword openingInside
  exact ⟨Nat.le_add_right position count, (extent_spec false keyword openingInside).1, preferred,
    least, next, stops⟩

theorem IsPlainStart.isRoundStart (begins : IsPlainStart keyword bytes isFirst position) :
    IsRoundStart keyword bytes isFirst position := by
  cases isFirst with
  | true => exact begins
  | false =>
      rcases begins with ended | preferred
      · exact .inl ended
      · exact .inr (.inr preferred.1)

/-- The ranges of a search from a position on start at the preferred lines from there on. -/
theorem Rounds.mem_starts_iff (plain : ∀ line, ¬AnnotationAt bytes line)
    (rounds : Rounds false keyword bytes isFirst position ranges)
    (begins : IsPlainStart keyword bytes isFirst position) (line : Nat) :
    line ∈ ranges.map ByteRange.start ↔ position ≤ line ∧ IsPreferred keyword bytes line := by
  induction rounds with
  | @finished isFirst position ended =>
      have none := (Rounds.finished ended).leftOver begins.isRoundStart
      constructor
      · intro absent
        cases absent
      · rintro ⟨after, preferred⟩
        exact absurd preferred.1 (none line after)
  | @round isFirst position range ranges inside found rest induction =>
      have span := isPlainSpan_of_nextSpan? plain begins inside found
      rw [List.map_cons, List.mem_cons, induction span.stops]
      constructor
      · rintro (rfl | ⟨behind, preferred⟩)
        · exact ⟨span.position_le, span.preferred⟩
        · have advances := span.lt_stop
          have before := span.position_le
          exact ⟨by omega, preferred⟩
      · rintro ⟨after, preferred⟩
        rcases Nat.lt_trichotomy line range.start with before | rfl | behind
        · exact absurd preferred (span.least line after before)
        · exact .inl rfl
        · rcases Nat.lt_or_ge line range.stop with within | beyond
          · exact absurd preferred (span.next line behind within)
          · exact .inr ⟨beyond, preferred⟩

theorem Rounds.increasing (plain : ∀ line, ¬AnnotationAt bytes line)
    (rounds : Rounds false keyword bytes isFirst position ranges)
    (begins : IsPlainStart keyword bytes isFirst position) :
    (ranges.map ByteRange.start).Pairwise (· < ·) := by
  induction rounds with
  | finished ended => exact .nil
  | @round isFirst position range ranges inside found rest induction =>
      have span := isPlainSpan_of_nextSpan? plain begins inside found
      rw [List.map_cons, List.pairwise_cons]
      refine ⟨?_, induction span.stops⟩
      intro later member
      have behind := ((rest.mem_starts_iff plain span.stops later).mp member).1
      exact Nat.lt_of_lt_of_le span.lt_stop behind

/-- Without annotations, the blob is cut at the preferred lines. -/
theorem ranges_cutAt_isPreferred (inner : lineFeed ∉ keyword)
    (plain : ∀ line, ¬AnnotationAt bytes line) :
    ∃ found, Document.ranges keyword bytes = .ok found ∧
      CutAt (IsPreferred keyword bytes) bytes found := by
  have unmarked : hasAnnotations bytes = false := by
    rw [Bool.eq_false_iff]
    intro marked
    obtain ⟨line, marked⟩ := hasAnnotations_iff.mp marked
    exact plain line marked
  have begins : IsPlainStart keyword bytes true 0 := rfl
  obtain ⟨found, cut, rounds⟩ := exists_rounds false begins.isRoundStart
  have placed := rounds.wellPlaced inner
  refine ⟨found, ?_, ?_, rounds.increasing plain begins, placed.contiguous, ?_⟩
  · rw [Document.ranges, unmarked, cut]
  · intro position
    simp [rounds.mem_starts_iff plain begins position]
  · intro range last
    have bound := (placed.documents range (List.mem_of_getLast? last)).stop_le_length
    rcases Nat.eq_or_lt_of_le bound with equal | before
    · exact equal
    · exact absurd (placed.leftOver range last before).1 (plain range.stop)

/-- A blob is cut at all keyword lines exactly if none is passed over. -/
theorem CutAt.keywordLines_iff (cut : CutAt (IsPreferred keyword bytes) bytes ranges) :
    CutAt (KeywordLineAt keyword bytes) bytes ranges ↔
      ∀ line, ¬IsPassedOver keyword bytes line := by
  constructor
  · intro full line passed
    have found := (full.mem_starts_iff line).mpr (.inr passed.2.1)
    exact not_isPassedOver_of_isPreferred ((cut.mem_starts_iff line).mp found) passed
  · intro none
    refine cut.congr fun line => ⟨And.left, fun keywordLine => ?_⟩
    exact isPreferred_of_not_isPassedOver keywordLine (none line)

end Document

namespace Blob

open Document

/-- Without annotations, ranges start at the preferred keyword lines and end at the next one; these
are all keyword lines exactly if none is passed over. -/
theorem documentRanges_cutAt (blob : Blob) (keyword : Text)
    (ascii : ∀ c ∈ keyword, Ascii.isAscii c = true) (inner : '\n' ∉ keyword)
    (plain : ∀ line, ¬AnnotationAt blob.data line) :
    let bytes := keyword.map Ascii.byte
    ∃ found, blob.documentRanges keyword = .ok found ∧
      CutAt (IsPreferred bytes blob.data) blob.data found ∧
      (CutAt (KeywordLineAt bytes blob.data) blob.data found ↔
        ∀ line, ¬IsPassedOver bytes blob.data line) := by
  obtain ⟨found, cut, preferred⟩ :=
    ranges_cutAt_isPreferred (lineFeed_not_mem_of_text ascii inner) plain
  exact ⟨found, documentRanges_of_isAscii ascii blob cut, preferred, preferred.keywordLines_iff⟩

theorem documentRanges_cutAt_mixed :
    let bytes := fun text : String => text.toList.map Ascii.byte
    let blob : Blob := ⟨bytes "kw\na\nkw x\nkw\n", none⟩
    (∀ line, ¬AnnotationAt blob.data line) ∧
      ∃ found, blob.documentRanges "kw".toList = .ok found ∧
        CutAt (IsPreferred (bytes "kw") blob.data) blob.data found ∧
        (CutAt (KeywordLineAt (bytes "kw") blob.data) blob.data found ↔
          ∀ line, ¬IsPassedOver (bytes "kw") blob.data line) := by
  intro bytes blob
  have plain : ∀ line, ¬AnnotationAt blob.data line :=
    fun line marked => absurd (hasAnnotations_iff.mpr ⟨line, marked⟩) (by decide)
  exact ⟨plain, documentRanges_cutAt blob "kw".toList (List.all_eq_true.mp (by decide))
    (by decide) plain⟩

/-- A document is lost whose keyword line is passed over. -/
theorem documentRanges_passedOver :
    let bytes := fun text : String => text.toList.map Ascii.byte
    let blob : Blob := ⟨bytes "a\nkw\nkw x\n", none⟩
    let found : List ByteRange := [⟨5, 10, by decide⟩]
    (∀ line, ¬AnnotationAt blob.data line) ∧ blob.documentRanges "kw".toList = .ok found ∧
      KeywordLineAt (bytes "kw") blob.data 2 ∧
      ¬CutAt (KeywordLineAt (bytes "kw") blob.data) blob.data found := by
  intro bytes blob found
  have lost : KeywordLineAt (bytes "kw") blob.data 2 := .inr ⟨.inr (by decide), by decide⟩
  refine ⟨?_, ?_, lost, ?_⟩
  · exact fun line marked => absurd (hasAnnotations_iff.mpr ⟨line, marked⟩) (by decide)
  · refine documentRanges_of_isAscii (List.all_eq_true.mp (by decide)) blob ?_
    have last : rangesFrom (hasAnnotations blob.data) (bytes "kw") blob.data false 10 = .ok [] :=
      rangesFrom_of_ended (by decide)
    rw [ranges, rangesFrom_of_found ⟨5, 10, by decide⟩ (by decide) (by decide) (by decide), last]
    rfl
  · intro full
    exact absurd ((full.mem_starts_iff 2).mpr lost) (by decide)

end Blob

end RelayDescriptor
